import Mathlib.Data.List.Induction
import UsbTopology.Json.Value
import UsbTopology.Proofs.Json.Grammar
import UsbTopology.Proofs.Json.Numeral

set_option autoImplicit false

/-!
# Natural numbers as they are written

Digits without a leading zero are the decimal digits of their number, and a number is natural
exactly if it is written with these digits alone: without sign, fraction and exponent.
-/
namespace UsbTopology

theorem toDigits_lt {n : Nat} (h : n < 10) : Nat.toDigits 10 n = [n.digitChar] := by
  rw [Nat.toDigits_eq_if (by decide), if_pos h]

theorem toDigits_of_digit {m v : Nat} (hm : 0 < m) (hv : v < 10) :
    Nat.toDigits 10 (10 * m + v) = Nat.toDigits 10 m ++ [v.digitChar] := by
  have hdiv : (10 * m + v) / 10 = m := by omega
  have hmod : (10 * m + v) % 10 = v := by omega
  rw [Nat.toDigits_eq_if (by decide), if_neg (by omega), hdiv, hmod]

namespace Json

theorem digitChar_of_isDigit {ch : Char} (h : isDigit ch = true) :
    ch.toNat - '0'.toNat < 10 ∧ (ch.toNat - '0'.toNat).digitChar = ch := by
  have hchars : ∀ v < 10, v.digitChar = Char.ofNat (v + '0'.toNat) := by decide
  simp only [isDigit, Bool.and_eq_true, decide_eq_true_eq, Char.le_def,
    UInt32.le_iff_toNat_le] at h
  have hlow : '0'.toNat ≤ ch.toNat := h.1
  have hhigh : ch.toNat ≤ '0'.toNat + 9 := h.2
  have hlt : ch.toNat - '0'.toNat < 10 := by omega
  refine ⟨hlt, ?_⟩
  rw [hchars _ hlt, Nat.sub_add_cancel hlow, Char.ofNat_toNat]

theorem ofDigitChars_append_singleton (digits : List Char) (ch : Char) :
    Nat.ofDigitChars 10 (digits ++ [ch]) 0 =
      10 * Nat.ofDigitChars 10 digits 0 + (ch.toNat - '0'.toNat) := by
  simp [Nat.ofDigitChars_eq_foldl]

theorem toDigits_ofDigitChars {digits : List Char} (hdigits : ∀ ch ∈ digits, isDigit ch = true)
    (hne : digits ≠ []) (hlead : digits = ['0'] ∨ digits.head? ≠ some '0') :
    Nat.toDigits 10 (Nat.ofDigitChars 10 digits 0) = digits := by
  rcases hlead with rfl | hhead
  · decide
  induction digits using List.reverseRecOn with
  | nil => exact absurd rfl hne
  | append_singleton digits ch ih =>
    obtain ⟨hlt, hchar⟩ := digitChar_of_isDigit (hdigits ch (by simp))
    rw [ofDigitChars_append_singleton]
    by_cases hnil : digits = []
    · subst hnil
      rw [Nat.ofDigitChars_nil, Nat.mul_zero, Nat.zero_add, toDigits_lt hlt, hchar]
      rfl
    · have hhead : digits.head? ≠ some '0' := by
        cases digits with
        | nil => exact absurd rfl hnil
        | cons d digits => exact hhead
      have hsame := ih (fun d hd => hdigits d (by simp [hd])) hnil hhead
      have hpos : 0 < Nat.ofDigitChars 10 digits 0 := by
        refine Nat.pos_of_ne_zero fun hzero => ?_
        rw [hzero, Nat.toDigits_zero] at hsame
        exact hhead (by rw [← hsame]; rfl)
      rw [toDigits_of_digit hpos hlt, hsame, hchar]

theorem absorb_whole {bound n : Nat} {digits : List Char}
    (h : (Numeral.absorb bound n digits).2 = digits.length) (hn : n ≤ bound) :
    (Numeral.absorb bound n digits).1 = Nat.ofDigitChars 10 digits n ∧
      Nat.ofDigitChars 10 digits n ≤ bound := by
  induction digits generalizing n with
  | nil => exact ⟨rfl, hn⟩
  | cons ch digits ih =>
    rw [Numeral.absorb] at h ⊢
    split at h
    · cases h
    · next hle =>
      rw [if_neg hle, Nat.ofDigitChars_cons]
      exact ih (Nat.succ.inj h) (Nat.le_of_not_lt hle)

theorem value?_eq_natural {n : Numeral} {m : Nat} (h : n.value? = some (.natural m)) :
    n.minus = false ∧ n.fraction? = none ∧ n.exponent? = none ∧
      m = Nat.ofDigitChars 10 n.whole 0 := by
  rw [Numeral.value?] at h
  split at h
  · next hplain =>
    obtain ⟨hfraction, hexponent, hall, -⟩ := hplain
    obtain ⟨hnumber, -⟩ := absorb_whole hall (Nat.zero_le _)
    cases hminus : n.minus with
    | true => simp [hminus] at h
    | false =>
      simp only [hminus] at h
      cases h
      exact ⟨rfl, Option.isNone_iff_eq_none.1 hfraction, Option.isNone_iff_eq_none.1 hexponent,
        hnumber⟩
  · obtain ⟨x, -, hx⟩ := Option.map_eq_some_iff.1 h
    cases hx

namespace Figure

theorem chars_of_plain {f : Figure} (hminus : f.minus = false) (hfraction : f.fraction? = none)
    (hexponent : f.exponent? = none) : f.chars = f.whole.chars := by
  simp [chars, signChars, fractionChars, exponentChars, hminus, hfraction, hexponent]

theorem value?_of_chars {f : Figure} {n : Nat} (hn : n ≤ Numeral.maxSignificand)
    (h : f.chars = Nat.toDigits 10 n) : f.value? = some (.natural n) := by
  have hdigit : ∀ ch ∈ f.chars, ch.isDigit = true := fun ch hch =>
    isDigit_of_mem_toDigits (h ▸ hch)
  have hminus : f.minus = false := by
    cases hm : f.minus with
    | false => rfl
    | true => exact absurd (hdigit '-' (by simp [chars, signChars, hm])) (by decide)
  have hfraction : f.fraction? = none := by
    cases hf : f.fraction? with
    | none => rfl
    | some ds => exact absurd (hdigit '.' (by simp [chars, fractionChars, hf])) (by decide)
  have hexponent : f.exponent? = none := by
    cases he : f.exponent? with
    | none => rfl
    | some e =>
      have hletter := hdigit e.letter (by simp [chars, exponentChars, Exponent.chars, he])
      rcases e.letter_form with hl | hl <;> rw [hl] at hletter <;>
        exact absurd hletter (by decide)
  rw [chars_of_plain hminus hfraction hexponent] at h
  simp only [value?, numeral, hminus, hfraction, hexponent, h]
  exact value?_toDigits hn

theorem chars_of_value? {f : Figure} {n : Nat} (h : f.value? = some (.natural n)) :
    f.chars = Nat.toDigits 10 n := by
  obtain ⟨hminus, hfraction, hexponent, rfl⟩ := value?_eq_natural h
  rw [chars_of_plain hminus (Option.map_eq_none_iff.1 hfraction)
    (Option.map_eq_none_iff.1 hexponent)]
  exact (toDigits_ofDigitChars f.whole.digits f.whole.nonempty f.leading).symm

def ofNat (n : Nat) : Figure where
  minus := false
  whole :=
    { chars := Nat.toDigits 10 n
      digits := fun ch hch => by rw [isDigit_eq, isDigit_of_mem_toDigits hch]
      nonempty := Nat.toDigits_ne_nil }
  fraction? := none
  exponent? := none
  leading := by
    cases n with
    | zero => exact .inl rfl
    | succ n => exact .inr (head?_toDigits_ne_zero n.succ_pos)

theorem chars_ofNat (n : Nat) : (ofNat n).chars = Nat.toDigits 10 n := chars_of_plain rfl rfl rfl

theorem value?_ofNat {n : Nat} (hn : n ≤ Numeral.maxSignificand) :
    (ofNat n).value? = some (.natural n) :=
  value?_of_chars hn (chars_ofNat n)

end Figure

/-- A byte is written as its decimal digits and in no other way. -/
theorem Written.value?_eq_ofByte_iff {w : Written} {b : UInt8} :
    w.value? = some (.ofByte b) ↔ w.chars = (byteText b).toList := by
  have hb : b.toNat ≤ Numeral.maxSignificand :=
    Nat.le_of_lt (Nat.lt_trans b.toNat_lt (by decide))
  rw [toList_byteText]
  constructor
  · intro h
    cases w with
    | number f =>
      obtain ⟨n, hn, hnumber⟩ := Option.map_eq_some_iff.1 h
      obtain rfl : n = .natural b.toNat := Json.number.inj hnumber
      exact f.chars_of_value? hn
    | null | bool | text => cases h
    | array gap es =>
      obtain ⟨js, -, hjs⟩ := Option.map_eq_some_iff.1 h
      cases hjs
    | object gap ms =>
      obtain ⟨js, -, hjs⟩ := Option.map_eq_some_iff.1 h
      cases hjs
  · intro h
    have hdigit : ∀ ch ∈ w.chars, ch.isDigit = true := fun ch hch =>
      isDigit_of_mem_toDigits (h ▸ hch)
    -- Nothing but a number begins with a digit.
    cases w with
    | number f => rw [value?, f.value?_of_chars hb h]; rfl
    | null => exact absurd (hdigit 'n' (by simp [chars])) (by decide)
    | bool yes =>
      cases yes with
      | true => exact absurd (hdigit 't' (by simp [chars])) (by decide)
      | false => exact absurd (hdigit 'f' (by simp [chars])) (by decide)
    | text glyphs => exact absurd (hdigit '"' (by simp [chars, quotedChars])) (by decide)
    | array gap es => exact absurd (hdigit '[' (by simp [chars])) (by decide)
    | object gap ms => exact absurd (hdigit '\x7b' (by simp [chars])) (by decide)

end Json

end UsbTopology
