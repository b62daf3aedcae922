set_option autoImplicit false

/-!
# Hexadecimal text

Digits are lower case. A fixed-width text keeps its leading zeros, so that equal widths compare
as texts the way their numbers compare.
-/
namespace UsbTopology.Text

def hexDigit (n : Nat) : Char :=
  if n < 10 then Char.ofNat (48 + n) else Char.ofNat (87 + n)

/-- The last `width` digits of a number, the most significant first. -/
def hexFixed : Nat → Nat → List Char
  | 0, _ => []
  | width + 1, n => hexFixed width (n / 16) ++ [hexDigit (n % 16)]

theorem length_hexFixed (width n : Nat) : (hexFixed width n).length = width := by
  induction width generalizing n with
  | zero => rfl
  | succ width ih => simp [hexFixed, ih]

def hexWidth (n : Nat) : Nat :=
  ((List.range 8).find? fun k => n < Nat.pow 16 (k + 1)).elim 8 (· + 1)

def hex (n : Nat) : String := String.ofList (hexFixed (hexWidth n) n)

def hexWord (n : Nat) : String := String.ofList ('0' :: 'x' :: hexFixed 8 n)

theorem toList_hexWord (n : Nat) : (hexWord n).toList = '0' :: 'x' :: hexFixed 8 n :=
  String.toList_ofList

def hexValue? (c : Char) : Option Nat :=
  if '0' ≤ c ∧ c ≤ '9' then some (c.toNat - 48)
  else if 'a' ≤ c ∧ c ≤ 'f' then some (c.toNat - 87)
  else if 'A' ≤ c ∧ c ≤ 'F' then some (c.toNat - 55)
  else none

end UsbTopology.Text
