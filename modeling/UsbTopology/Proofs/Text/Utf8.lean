import UsbTopology.Text.Utf8

set_option autoImplicit false

/-!
# UTF-8 keeps texts apart

Different texts have different bytes, and a byte below 128 stands for a character of its own, never
for a part of another one.
-/
namespace UsbTopology.Text

theorem encode_injective {s t : String} (h : encode s = encode t) : s = t := by
  have hbytes : s.toList.utf8Encode = t.toList.utf8Encode := congrArg List.toByteArray h
  rw [← String.ofList_toList (s := s), ← String.ofList_toList (s := t)]
  apply String.toByteArray_inj.1
  simpa using hbytes

theorem le_toNat_ofNat {n : Nat} (hlow : 128 ≤ n) (hhigh : n < 256) :
    128 ≤ (UInt8.ofNat n).toNat := by
  rwa [UInt8.toNat_ofNat_of_lt' hhigh]

theorem eq_of_mem_utf8EncodeChar {c : Char} {b : UInt8} (hmem : b ∈ String.utf8EncodeChar c)
    (hb : b.toNat < 128) : c = Char.ofNat b.toNat := by
  unfold String.utf8EncodeChar at hmem
  dsimp only at hmem
  split at hmem
  · next hsmall =>
    obtain rfl := List.mem_singleton.1 hmem
    have hsize : c.val.toNat < UInt8.size := Nat.lt_of_le_of_lt hsmall (by decide)
    rw [UInt8.toNat_ofNat_of_lt' hsize]
    exact (Char.ofNat_toNat c).symm
  · -- Every byte of a longer spelling has its highest bit set.
    have hlarge : 128 ≤ b.toNat := by
      split at hmem
      · simp only [List.mem_cons, List.not_mem_nil, or_false] at hmem
        rcases hmem with rfl | rfl <;> exact le_toNat_ofNat (by omega) (by omega)
      · split at hmem
        · simp only [List.mem_cons, List.not_mem_nil, or_false] at hmem
          rcases hmem with rfl | rfl | rfl <;> exact le_toNat_ofNat (by omega) (by omega)
        · simp only [List.mem_cons, List.not_mem_nil, or_false] at hmem
          rcases hmem with rfl | rfl | rfl | rfl <;> exact le_toNat_ofNat (by omega) (by omega)
    omega

theorem mem_toList_of_mem_encode {s : String} {b : UInt8} (hmem : b ∈ encode s)
    (hb : b.toNat < 128) : Char.ofNat b.toNat ∈ s.toList := by
  obtain ⟨c, hc, hbc⟩ := List.mem_flatMap.1 hmem
  rwa [← eq_of_mem_utf8EncodeChar hbc hb]

end UsbTopology.Text
