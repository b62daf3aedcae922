set_option autoImplicit false

/-!
# Double precision numbers

A double without its sign is a mantissa below `2 ^ 53` and a power of two. Every operation is the
exact rational operation followed by one rounding to the nearest double, a tie going to the even
mantissa; `none` stands for a result past the largest double.
-/
namespace UsbTopology

structure Binary64 where
  mantissa : Nat
  exponent : Int
deriving DecidableEq, Repr

namespace Binary64

def zero : Binary64 := ⟨0, -1074⟩

def leastFull : Nat := 0x10000000000000

/-- The integer nearest to a quotient, a tie going to the even one. -/
def roundQuotient (num den : Nat) : Nat :=
  let q := num / den
  let r := num % den
  if 2 * r < den then q
  else if den < 2 * r then q + 1
  else q + q % 2

def powerOf (base : Nat) (e : Int) : Nat × Nat :=
  if 0 ≤ e then (Nat.pow base e.toNat, 1) else (1, Nat.pow base (-e).toNat)

/-- The exponent at which the quotient has a mantissa of 53 bits, or the least exponent. -/
def exponentFor (num den : Nat) : Int :=
  let guess : Int := (Nat.log2 num : Int) - Nat.log2 den - 52
  let unit := powerOf 2 guess
  max (-1074) (if num * unit.2 < leastFull * (den * unit.1) then guess - 1 else guess)

def ofRatio? (num den : Nat) : Option Binary64 :=
  if num = 0 then some zero
  else
    let e := exponentFor num den
    let unit := powerOf 2 e
    let m := roundQuotient (num * unit.2) (den * unit.1)
    if m = 2 * leastFull then
      if e < 971 then some ⟨leastFull, e + 1⟩ else none
    else if e ≤ 971 then some ⟨m, e⟩ else none

def toRatio (x : Binary64) : Nat × Nat :=
  let unit := powerOf 2 x.exponent
  (x.mantissa * unit.1, unit.2)

def atMost (x y : Binary64) : Bool := x.toRatio.1 * y.toRatio.2 ≤ y.toRatio.1 * x.toRatio.2

def add? (x y : Binary64) : Option Binary64 :=
  ofRatio? (x.toRatio.1 * y.toRatio.2 + y.toRatio.1 * x.toRatio.2) (x.toRatio.2 * y.toRatio.2)

def mul? (x y : Binary64) : Option Binary64 :=
  ofRatio? (x.toRatio.1 * y.toRatio.1) (x.toRatio.2 * y.toRatio.2)

def div? (x y : Binary64) : Option Binary64 :=
  ofRatio? (x.toRatio.1 * y.toRatio.2) (x.toRatio.2 * y.toRatio.1)

def maxStep : Nat := 308

/-- Multiplies by a power of ten: one rounded step, after as many divisions by the largest step as
the exponent needs. A number below `2 ^ 64` is zero after two of them. -/
def scaleByTen? : Nat → Binary64 → Int → Option Binary64
  | 0, _, _ => some zero
  | steps + 1, x, e =>
    if e.natAbs ≤ maxStep then do
      let power ← ofRatio? (Nat.pow 10 e.natAbs) 1
      if 0 ≤ e then x.mul? power else x.div? power
    else if x.mantissa = 0 then some x
    else if 0 ≤ e then none
    else do
      let power ← ofRatio? (Nat.pow 10 maxStep) 1
      scaleByTen? steps (← x.div? power) (e + maxStep)

def ofDecimal? (significand : Nat) (e : Int) : Option Binary64 := do
  scaleByTen? 3 (← ofRatio? significand 1) e

end Binary64

end UsbTopology
