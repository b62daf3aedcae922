import UsbTopology.Json.Numeral
import UsbTopology.Proofs.Json.Reader
import UsbTopology.Proofs.Text.Decimal

set_option autoImplicit false

/-!
# Natural numerals

The decimal digits of a number that fits a word stand for that number, and digits are read up to the
first character that is none.
-/
namespace UsbTopology

theorem head?_toDigits_ne_zero {n : Nat} (hn : 0 < n) : (Nat.toDigits 10 n).head? ≠ some '0' := by
  induction n using Nat.strongRecOn with
  | ind n ih =>
    rw [Nat.toDigits_eq_if (by decide)]
    by_cases h : n < 10
    · rw [if_pos h]
      have hdigit : ∀ m < 10, 0 < m → [m.digitChar].head? ≠ some '0' := by decide
      exact hdigit n h hn
    · have hhead := ih (n / 10) (by omega) (by omega)
      rw [if_neg h, List.head?_append]
      cases hcons : Nat.toDigits 10 (n / 10) with
      | nil => exact absurd hcons Nat.toDigits_ne_nil
      | cons ch digits =>
        rw [hcons] at hhead
        exact hhead

namespace Json

theorem isDigit_eq (ch : Char) : isDigit ch = ch.isDigit := rfl

theorem isBlank_of_isDigit {ch : Char} (h : isDigit ch = true) : Cursor.isBlank ch = false := by
  have hblank : Cursor.isBlank ch = true → isDigit ch = false := by
    intro hch
    simp only [Cursor.isBlank, Bool.or_eq_true, decide_eq_true_eq] at hch
    rcases hch with ((rfl | rfl) | rfl) | rfl <;> decide
  cases hch : Cursor.isBlank ch with
  | false => rfl
  | true => exact absurd h (by simp [hblank hch])

theorem digitValue_eq (ch : Char) : digitValue ch = ch.toNat - '0'.toNat := rfl

theorem absorb_of_le {bound n : Nat} {digits : List Char}
    (h : Nat.ofDigitChars 10 digits n ≤ bound) :
    Numeral.absorb bound n digits = (Nat.ofDigitChars 10 digits n, digits.length) := by
  induction digits generalizing n with
  | nil => rfl
  | cons ch digits ih =>
    rw [Nat.ofDigitChars_cons] at h
    have hle := le_ofDigitChars digits (10 * n + (ch.toNat - '0'.toNat))
    have hbound : ¬ bound < 10 * n + digitValue ch := by
      rw [digitValue_eq]
      omega
    rw [Numeral.absorb, if_neg hbound, digitValue_eq, ih h, Nat.ofDigitChars_cons]
    rfl

theorem value?_toDigits {n : Nat} (h : n ≤ Numeral.maxSignificand) :
    Numeral.value? ⟨false, Nat.toDigits 10 n, none, none⟩ = some (.natural n) := by
  have hn : Nat.ofDigitChars 10 (Nat.toDigits 10 n) 0 = n := Nat.ofDigitChars_ten_toDigits
  have habsorb := absorb_of_le (Nat.le_trans (Nat.le_of_eq hn) h)
  simp [Numeral.value?, habsorb, hn]

theorem readDigitsFrom_append {digits rest : List Char} (hdigits : ∀ ch ∈ digits, isDigit ch)
    (hrest : ∀ ch ∈ rest.head?, isDigit ch = false) (p : Position) :
    ∃ q, readDigitsFrom p (digits ++ rest) = (digits, ⟨q, rest⟩) := by
  induction digits generalizing p with
  | nil =>
    cases rest with
    | nil => exact ⟨p, rfl⟩
    | cons ch rest => exact ⟨p, by simp [readDigitsFrom, hrest ch (by simp)]⟩
  | cons ch digits ih =>
    obtain ⟨q, hq⟩ := ih (fun d hd => hdigits d (by simp [hd])) (p.after ch)
    exact ⟨q, by simp [readDigitsFrom, hdigits ch (by simp), hq]⟩

theorem readNumber_of_ne {ch : Char} (h : ch ≠ '-') (p : Position) (rest : List Char) :
    readNumber ⟨p, ch :: rest⟩ = readUnsigned false ⟨p, ch :: rest⟩ := by
  unfold readNumber
  split
  · next heq => exact absurd (List.cons.inj heq).1 h
  · rfl

end Json

end UsbTopology
