import UsbTopology.Location.Name

set_option autoImplicit false

/-!
# Decimal bytes

The decimal text of a byte has digits only and at least one of them, and determines the byte, also
where something that is no digit follows it.
-/
namespace UsbTopology

@[simp] theorem toList_byteText (b : UInt8) : (byteText b).toList = Nat.toDigits 10 b.toNat := by
  rw [byteText, Nat.toString_eq_ofList_toDigits, String.toList_ofList]

theorem isDigit_of_mem_toDigits {n : Nat} {c : Char} (h : c ∈ Nat.toDigits 10 n) :
    c.isDigit = true :=
  Nat.isDigit_of_mem_toDigits (by decide) (by decide) h

theorem isDigit_of_mem_byteText {b : UInt8} {c : Char} (h : c ∈ (byteText b).toList) :
    c.isDigit = true := by
  rw [toList_byteText] at h
  exact isDigit_of_mem_toDigits h

theorem takeWhile_digits {digits rest : List Char} (h : ∀ c ∈ digits, c.isDigit = true)
    (hrest : ∀ c ∈ rest.head?, c.isDigit = false) :
    (digits ++ rest).takeWhile Char.isDigit = digits ∧
      (digits ++ rest).dropWhile Char.isDigit = rest := by
  rw [List.takeWhile_append_of_pos h, List.dropWhile_append_of_pos h]
  cases rest with
  | nil => simp
  | cons c rest => simp [hrest c (by simp)]

theorem le_ofDigitChars (digits : List Char) (n : Nat) : n ≤ Nat.ofDigitChars 10 digits n := by
  induction digits generalizing n with
  | nil => exact Nat.le_refl n
  | cons ch digits ih =>
    have h := ih (10 * n + (ch.toNat - '0'.toNat))
    rw [Nat.ofDigitChars_cons]
    omega

end UsbTopology
