import UsbTopology.Number.Binary64

set_option autoImplicit false

/-!
# Shortest decimals

`Binary64.shortest` gives the fewest decimal digits that read back as the same double, and of those
the digits nearest to it. `Binary64.text` writes them positionally or with an exponent, as a layout
says.
-/
namespace UsbTopology

namespace Binary64

def leadingPower (num den : Nat) : Int :=
  if den ≤ num then ((Nat.toDigits 10 (num / den)).length : Int) - 1
  else ((List.range 400).find? fun j => den ≤ num * Nat.pow 10 j).elim 0 fun j => -(j : Int)

/-- The multiple of `10 ^ p` that reads back as the double, if there is one; the nearer of two, and
the even one of two that are equally near. -/
def onGrid? (x : Binary64) (p : Int) : Option Nat :=
  let unit := powerOf 2 (x.exponent - 2)
  let ten := powerOf 10 p
  let a := ten.1 * unit.2
  let b := unit.1 * ten.2
  let value := 4 * x.mantissa * b
  let low := (4 * x.mantissa - if x.mantissa = leastFull ∧ x.exponent ≠ -1074 then 1 else 2) * b
  let high := (4 * x.mantissa + 2) * b
  let inside (c : Nat) : Bool :=
    if x.mantissa % 2 = 0 then low ≤ c * a && c * a ≤ high else low < c * a && c * a < high
  let below := value / a
  let above := below + 1
  match inside below, inside above with
  | false, false => none
  | true, false => some below
  | false, true => some above
  | true, true =>
    let down := value - below * a
    let up := above * a - value
    if down < up then some below
    else if up < down then some above
    else some (below + below % 2)

/-- Fewest digits and the power of ten of the last one, for a positive double. -/
def shortest (x : Binary64) : Nat × Int :=
  let lead := leadingPower x.toRatio.1 x.toRatio.2
  ((List.range 17).findSome? fun (k : Nat) =>
    (onGrid? x (lead - (k : Int))).map fun c => (c, lead - (k : Int))).getD (0, 0)

def digits (x : Binary64) : List Char × Int :=
  if x.mantissa = 0 then (['0'], 0)
  else
    let s := x.shortest
    let all := Nat.toDigits 10 s.1
    let kept := (all.reverse.dropWhile (· = '0')).reverse
    (kept, s.2 + all.length - 1)

structure Layout where
  /-- Least power of ten of their leading digits. -/
  least : Int
  /-- Least power of ten past those of their leading digits. -/
  bound : Int
deriving DecidableEq, Repr

def writePositional (digits : List Char) (lead : Int) : List Char :=
  if lead < 0 then
    '0' :: '.' :: (List.replicate ((-lead).toNat - 1) '0' ++ digits)
  else
    let whole := lead.toNat + 1
    if digits.length ≤ whole then
      digits ++ List.replicate (whole - digits.length) '0' ++ ['.', '0']
    else
      digits.take whole ++ '.' :: digits.drop whole

def writeScientific (digits : List Char) (lead : Int) : List Char :=
  let fraction := if digits.length ≤ 1 then [] else '.' :: digits.drop 1
  let sign := if 0 ≤ lead then '+' else '-'
  digits.take 1 ++ fraction ++ 'e' :: sign :: Nat.toDigits 10 lead.natAbs

def text (layout : Layout) (x : Binary64) : String :=
  let (ds, lead) := x.digits
  String.ofList
    (if layout.least ≤ lead ∧ lead < layout.bound then writePositional ds lead
    else writeScientific ds lead)

end Binary64

end UsbTopology
