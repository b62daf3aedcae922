import UsbTopology.Proofs.Location.Decoding
import UsbTopology.Proofs.Text.Hex

set_option autoImplicit false

/-!
# Texts of locations

The text of a location compares byte by byte as its word compares. The text with the inverted bus
puts the larger bus first and agrees with the words within one bus (`texts_ordered`).
-/
namespace UsbTopology

theorem compare_toNat (a b : UInt8) : compare a b = compare a.toNat b.toNat := by
  rcases Nat.lt_trichotomy a.toNat b.toNat with h | h | h
  · rw [Nat.compare_eq_lt.2 h, Std.compare_eq_lt]
    exact UInt8.lt_iff_toNat_lt.2 h
  · rw [Nat.compare_eq_eq.2 h, Std.compare_eq_iff_eq]
    exact UInt8.toNat_inj.1 h
  · rw [Nat.compare_eq_gt.2 h, Std.compare_eq_gt]
    exact UInt8.lt_iff_toNat_lt.2 h

theorem compare_sub_left {k m n : Nat} (hm : m ≤ k) (hn : n ≤ k) :
    compare (k - m) (k - n) = compare n m := by
  rcases Nat.lt_trichotomy n m with h | rfl | h
  · rw [Nat.compare_eq_lt.2 h, Nat.compare_eq_lt.2 (by omega)]
  · rw [Nat.compare_eq_eq.2 rfl, Nat.compare_eq_eq.2 rfl]
  · rw [Nat.compare_eq_gt.2 h, Nat.compare_eq_gt.2 (by omega)]

theorem xor_ones {n b : Nat} (h : b < 2 ^ n) : b ^^^ (2 ^ n - 1) = 2 ^ n - 1 - b := by
  apply Nat.eq_of_testBit_eq
  intro i
  have hsub : 2 ^ n - 1 - b = 2 ^ n - (b + 1) := by omega
  rw [hsub, Nat.testBit_two_pow_sub_succ h, Nat.testBit_xor, Nat.testBit_two_pow_sub_one]
  by_cases hi : i < n
  · simp [hi]
  · have hbit : b.testBit i = false :=
      Nat.testBit_lt_two_pow (Nat.lt_of_lt_of_le h (Nat.pow_le_pow_right (by decide) (by omega)))
    simp [hi, hbit]

namespace Location

def tagWord (l : Location) : Nat := (255 - l.value / busUnit) * busUnit + l.value % busUnit

theorem sortTag_eq (l : Location) : l.sortTag = Text.hexWord l.tagWord := rfl

theorem tagWord_div (l : Location) : l.tagWord / busUnit = 255 - l.bus.toNat := by
  rw [tagWord, toNat_bus, busUnit]
  omega

theorem tagWord_mod (l : Location) : l.tagWord % busUnit = l.value % busUnit := by
  rw [tagWord, busUnit]
  omega

theorem tagWord_lt (l : Location) : l.tagWord < 16 ^ 8 := by
  have hdiv := l.tagWord_div
  rw [busUnit] at hdiv
  omega

/-- Inverting the bus turns every bit of the top byte. -/
theorem tagWord_eq_xor (l : Location) : l.tagWord = l.value ^^^ 0xff000000 := by
  have hbus : l.value / 2 ^ 24 < 2 ^ 8 := by
    have := l.lt_word
    omega
  have htop : (l.value ^^^ 0xff000000) / 2 ^ 24 = 255 - l.value / 2 ^ 24 := by
    rw [Nat.xor_div_two_pow]
    exact xor_ones hbus
  have hlow : (l.value ^^^ 0xff000000) % 2 ^ 24 = l.value % 2 ^ 24 := by
    rw [Nat.xor_mod_two_pow]
    exact Nat.xor_zero _
  rw [tagWord, busUnit]
  omega

theorem compare_tagWord (l m : Location) : compare l.tagWord m.tagWord =
    (compare m.bus l.bus).then (compare l.value m.value) := by
  have hl := l.bus.toNat_lt
  have hm := m.bus.toNat_lt
  have hbus : compare (255 - l.bus.toNat) (255 - m.bus.toNat) = compare m.bus l.bus := by
    rw [compare_toNat]
    exact compare_sub_left (by omega) (by omega)
  have hswap : compare m.bus l.bus = (compare l.bus m.bus).swap := Std.OrientedOrd.eq_swap
  rw [← Text.compare_div_mod l.tagWord m.tagWord busUnit, tagWord_div, tagWord_div, tagWord_mod,
    tagWord_mod, hbus, ← Text.compare_div_mod l.value m.value busUnit, ← toNat_bus, ← toNat_bus,
    ← compare_toNat, hswap]
  -- The lower digits are only compared on one bus, where both orders of the bus are equal.
  cases compare l.bus m.bus <;> rfl

/-- Both texts of a location sort as they should, and each of them determines the location. -/
theorem texts_ordered (l m : Location) :
    compare (Text.encode l.text) (Text.encode m.text) = compare l.value m.value ∧
      l.text.length = 10 ∧ m.text.length = 10 ∧
      compare (Text.encode l.sortTag) (Text.encode m.sortTag) =
        (compare m.bus l.bus).then (compare l.value m.value) ∧
      (l.bus = m.bus → compare (Text.encode l.sortTag) (Text.encode m.sortTag) =
        compare l.value m.value) ∧
      (l.text = m.text ↔ l = m) ∧ (l.sortTag = m.sortTag ↔ l = m) := by
  have htext : compare (Text.encode l.text) (Text.encode m.text) = compare l.value m.value :=
    Text.compare_hexWord l.lt_word m.lt_word
  have htag : compare (Text.encode l.sortTag) (Text.encode m.sortTag) =
      (compare m.bus l.bus).then (compare l.value m.value) := by
    rw [sortTag_eq, sortTag_eq, Text.compare_hexWord l.tagWord_lt m.tagWord_lt, compare_tagWord]
  have hvalue : compare l.value m.value = .eq ↔ l = m := by
    rw [Nat.compare_eq_eq]
    exact ⟨eq_of_value_eq, congrArg value⟩
  refine ⟨htext, Text.length_hexWord _, Text.length_hexWord _, htag, fun hbus => ?_,
    ⟨fun h => ?_, congrArg text⟩, ⟨fun h => ?_, congrArg sortTag⟩⟩
  · rw [htag, hbus, Std.compare_self, Ordering.eq_then]
  · rw [h, Std.compare_self] at htext
    exact hvalue.1 htext.symm
  · rw [h, Std.compare_self] at htag
    exact hvalue.1 (Ordering.then_eq_eq.1 htag.symm).2

end Location

end UsbTopology
