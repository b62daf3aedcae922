import UsbTopology.Text.Utf8

set_option autoImplicit false

/-!
# Decoded bytes

A byte text is decoded exactly if it is the encoding of a text, and then to this text
(`decode?_eq_some_iff`). Each of the four lengths of a spelling is decoded by one function, which
accepts the spellings of that length and nothing else.
-/
namespace UsbTopology.Text

theorem toNat_charOfNat {n : Nat} (h : n.isValidChar) : (Char.ofNat n).toNat = n := by
  rw [Char.ofNat, dif_pos h]
  rfl

/-- The bytes that spell a code point, as numbers. -/
def spelling (n : Nat) : List Nat :=
  if n < 0x80 then [n]
  else if n < 0x800 then [n / 64 + 0xc0, n % 64 + 0x80]
  else if n < 0x10000 then [n / 4096 + 0xe0, n / 64 % 64 + 0x80, n % 64 + 0x80]
  else [n / 262144 + 0xf0, n / 4096 % 64 + 0x80, n / 64 % 64 + 0x80, n % 64 + 0x80]

theorem map_toNat_utf8EncodeChar (c : Char) :
    (String.utf8EncodeChar c).map UInt8.toNat = spelling c.toNat := by
  have hvalid : c.toNat.isValidChar := c.valid
  have hnumber : c.val.toNat = c.toNat := rfl
  unfold String.utf8EncodeChar spelling
  simp only [hnumber]
  by_cases hone : c.toNat < 0x80
  · rw [if_pos hone, if_pos (by omega)]
    simp
    omega
  by_cases htwo : c.toNat < 0x800
  · rw [if_neg hone, if_pos htwo, if_neg (by omega), if_pos (by omega)]
    simp
    omega
  by_cases hthree : c.toNat < 0x10000
  · rw [if_neg hone, if_neg htwo, if_pos hthree, if_neg (by omega), if_neg (by omega),
      if_pos (by omega)]
    simp
    omega
  · rw [if_neg hone, if_neg htwo, if_neg hthree, if_neg (by omega), if_neg (by omega),
      if_neg (by omega)]
    simp
    omega

theorem utf8EncodeChar_eq_iff {c : Char} {bytes : List UInt8} :
    String.utf8EncodeChar c = bytes ↔ spelling c.toNat = bytes.map UInt8.toNat := by
  rw [← map_toNat_utf8EncodeChar]
  exact (List.map_inj_right fun a b => UInt8.toNat_inj.1).symm

theorem spelling_eq_one {n a : Nat} : spelling n = [a] ↔ n < 0x80 ∧ a = n := by
  unfold spelling
  split
  · simp
    omega
  · split
    · simp
      omega
    · split <;> simp <;> omega

theorem spelling_eq_two {n a b : Nat} : spelling n = [a, b] ↔
    0x80 ≤ n ∧ n < 0x800 ∧ a = n / 64 + 0xc0 ∧ b = n % 64 + 0x80 := by
  unfold spelling
  split
  · simp
    omega
  · split
    · simp
      omega
    · split <;> simp <;> omega

theorem spelling_eq_three {n a b c : Nat} : spelling n = [a, b, c] ↔
    0x800 ≤ n ∧ n < 0x10000 ∧ a = n / 4096 + 0xe0 ∧ b = n / 64 % 64 + 0x80 ∧
      c = n % 64 + 0x80 := by
  unfold spelling
  split
  · simp
    omega
  · split
    · simp
      omega
    · split <;> simp <;> omega

theorem spelling_eq_four {n a b c d : Nat} : spelling n = [a, b, c, d] ↔
    0x10000 ≤ n ∧ a = n / 262144 + 0xf0 ∧ b = n / 4096 % 64 + 0x80 ∧ c = n / 64 % 64 + 0x80 ∧
      d = n % 64 + 0x80 := by
  unfold spelling
  split
  · simp
    omega
  · split
    · simp
      omega
    · split <;> simp <;> omega

theorem continuation?_eq_some_iff {b : UInt8} {n : Nat} :
    continuation? b = some n ↔ b.toNat = n + 0x80 ∧ n < 64 := by
  rw [continuation?, Option.ite_none_right_eq_some, Option.some.injEq]
  omega

theorem twoByteChar?_eq_some_iff {a b : UInt8} {ch : Char} :
    twoByteChar? a b = some ch ↔ String.utf8EncodeChar ch = [a, b] := by
  rw [utf8EncodeChar_eq_iff, List.map_cons, List.map_cons, List.map_nil, spelling_eq_two]
  constructor
  · intro h
    obtain ⟨ha, h⟩ := Option.ite_none_right_eq_some.1 h
    obtain ⟨x, hx, h⟩ := Option.bind_eq_some_iff.1 h
    obtain ⟨hb, hx⟩ := continuation?_eq_some_iff.1 hx
    obtain rfl := Option.some.inj h
    rw [toNat_charOfNat (.inl (by omega))]
    omega
  · rintro ⟨hlow, hhigh, ha, hb⟩
    have hx : continuation? b = some (ch.toNat % 64) := continuation?_eq_some_iff.2 (by omega)
    have hch : (a.toNat - 0xc0) * 64 + ch.toNat % 64 = ch.toNat := by omega
    rw [twoByteChar?, if_pos (by omega), hx, Option.bind_eq_bind, Option.bind_some, hch,
      Char.ofNat_toNat]
    rfl

theorem threeByteChar?_eq_some_iff {a b c : UInt8} {ch : Char} :
    threeByteChar? a b c = some ch ↔ String.utf8EncodeChar ch = [a, b, c] := by
  have hvalid : ch.toNat.isValidChar := ch.valid
  simp only [utf8EncodeChar_eq_iff, List.map_cons, List.map_nil, spelling_eq_three]
  constructor
  · intro h
    obtain ⟨ha, h⟩ := Option.ite_none_right_eq_some.1 h
    obtain ⟨x, hx, h⟩ := Option.bind_eq_some_iff.1 h
    obtain ⟨y, hy, h⟩ := Option.bind_eq_some_iff.1 h
    obtain ⟨hb, hx⟩ := continuation?_eq_some_iff.1 hx
    obtain ⟨hc, hy⟩ := continuation?_eq_some_iff.1 hy
    obtain ⟨hn, h⟩ := Option.ite_none_right_eq_some.1 h
    obtain rfl := Option.some.inj h
    rw [toNat_charOfNat (by omega)]
    omega
  · rintro ⟨hlow, hhigh, ha, hb, hc⟩
    have hx : continuation? b = some (ch.toNat / 64 % 64) :=
      continuation?_eq_some_iff.2 (by omega)
    have hy : continuation? c = some (ch.toNat % 64) := continuation?_eq_some_iff.2 (by omega)
    have hch : (a.toNat - 0xe0) * 4096 + ch.toNat / 64 % 64 * 64 + ch.toNat % 64 = ch.toNat := by
      omega
    rw [threeByteChar?, if_pos (by omega), hx, Option.bind_eq_bind, Option.bind_some, hy,
      Option.bind_some]
    simp only [hch]
    rw [if_pos (by omega), Char.ofNat_toNat]

theorem fourByteChar?_eq_some_iff {a b c d : UInt8} {ch : Char} :
    fourByteChar? a b c d = some ch ↔ String.utf8EncodeChar ch = [a, b, c, d] := by
  have hvalid : ch.toNat.isValidChar := ch.valid
  simp only [utf8EncodeChar_eq_iff, List.map_cons, List.map_nil, spelling_eq_four]
  constructor
  · intro h
    obtain ⟨ha, h⟩ := Option.ite_none_right_eq_some.1 h
    obtain ⟨x, hx, h⟩ := Option.bind_eq_some_iff.1 h
    obtain ⟨y, hy, h⟩ := Option.bind_eq_some_iff.1 h
    obtain ⟨z, hz, h⟩ := Option.bind_eq_some_iff.1 h
    obtain ⟨hb, hx⟩ := continuation?_eq_some_iff.1 hx
    obtain ⟨hc, hy⟩ := continuation?_eq_some_iff.1 hy
    obtain ⟨hd, hz⟩ := continuation?_eq_some_iff.1 hz
    obtain ⟨hn, h⟩ := Option.ite_none_right_eq_some.1 h
    obtain rfl := Option.some.inj h
    rw [toNat_charOfNat (.inr (by omega))]
    omega
  · rintro ⟨hlow, ha, hb, hc, hd⟩
    have hx : continuation? b = some (ch.toNat / 4096 % 64) :=
      continuation?_eq_some_iff.2 (by omega)
    have hy : continuation? c = some (ch.toNat / 64 % 64) :=
      continuation?_eq_some_iff.2 (by omega)
    have hz : continuation? d = some (ch.toNat % 64) := continuation?_eq_some_iff.2 (by omega)
    have hch : (a.toNat - 0xf0) * 262144 + ch.toNat / 4096 % 64 * 4096 +
        ch.toNat / 64 % 64 * 64 + ch.toNat % 64 = ch.toNat := by
      omega
    rw [fourByteChar?, if_pos (by omega), hx, Option.bind_eq_bind, Option.bind_some, hy,
      Option.bind_some, hz, Option.bind_some]
    simp only [hch]
    rw [if_pos (by omega), Char.ofNat_toNat]

theorem ofNat_eq_iff_of_lt {a : UInt8} {ch : Char} (ha : a.toNat < 0x80) :
    Char.ofNat a.toNat = ch ↔ String.utf8EncodeChar ch = [a] := by
  rw [utf8EncodeChar_eq_iff, List.map_cons, List.map_nil, spelling_eq_one]
  constructor
  · rintro rfl
    rw [toNat_charOfNat (.inl (by omega))]
    exact ⟨ha, rfl⟩
  · rintro ⟨-, hch⟩
    rw [hch, Char.ofNat_toNat]

theorem twoByteChar?_eq_none {a b : UInt8} (ha : 0xe0 ≤ a.toNat) : twoByteChar? a b = none :=
  if_neg (by omega)

theorem threeByteChar?_eq_none {a b c : UInt8} (ha : 0xf0 ≤ a.toNat) :
    threeByteChar? a b c = none :=
  if_neg (by omega)

theorem pieces_utf8EncodeChar (ch : Char) (rest : List UInt8) :
    pieces (String.utf8EncodeChar ch ++ rest) = .char ch :: pieces rest := by
  have hlength := String.length_utf8EncodeChar ch
  have hpos := ch.utf8Size_pos
  have hle := ch.utf8Size_le_four
  have hspelling := @utf8EncodeChar_eq_iff ch
  -- One case for each length that a spelling may have; the first byte rules out the shorter ones.
  match hbytes : String.utf8EncodeChar ch with
  | [] =>
    rw [hbytes, List.length_nil] at hlength
    omega
  | [a] =>
    have ha : ch.toNat < 0x80 ∧ a.toNat = ch.toNat := spelling_eq_one.1 (hspelling.1 hbytes)
    rw [List.singleton_append, pieces.eq_def]
    simp only [ha, if_true, Char.ofNat_toNat]
  | [a, b] =>
    have hnumbers := spelling_eq_two.1 (hspelling.1 hbytes)
    have ha : ¬ a.toNat < 0x80 := by omega
    have htwo := twoByteChar?_eq_some_iff.2 hbytes
    rw [List.cons_append, List.singleton_append, pieces.eq_def]
    simp only [if_neg ha, htwo]
  | [a, b, c] =>
    have hnumbers := spelling_eq_three.1 (hspelling.1 hbytes)
    have ha : ¬ a.toNat < 0x80 := by omega
    have htwo : twoByteChar? a b = none := twoByteChar?_eq_none (by omega)
    have hthree := threeByteChar?_eq_some_iff.2 hbytes
    rw [List.cons_append, List.cons_append, List.singleton_append, pieces.eq_def]
    simp only [if_neg ha, htwo, hthree]
  | [a, b, c, d] =>
    have hnumbers := spelling_eq_four.1 (hspelling.1 hbytes)
    have ha : ¬ a.toNat < 0x80 := by omega
    have htwo : twoByteChar? a b = none := twoByteChar?_eq_none (by omega)
    have hthree : threeByteChar? a b c = none := threeByteChar?_eq_none (by omega)
    have hfour := fourByteChar?_eq_some_iff.2 hbytes
    rw [List.cons_append, List.cons_append, List.cons_append, List.singleton_append, pieces.eq_def]
    simp only [if_neg ha, htwo, hthree, hfour]
  | a :: b :: c :: d :: e :: more =>
    rw [hbytes, List.length_cons, List.length_cons, List.length_cons, List.length_cons,
      List.length_cons] at hlength
    omega

theorem exists_of_pieces_eq_cons {bytes : List UInt8} {ch : Char} {ps : List Piece}
    (h : pieces bytes = .char ch :: ps) :
    ∃ rest, bytes = String.utf8EncodeChar ch ++ rest ∧ pieces rest = ps := by
  unfold pieces at h
  split at h
  · cases h
  · next a s =>
    split at h
    · next ha =>
      obtain ⟨hch, hrest⟩ := List.cons.inj h
      rw [(ofNat_eq_iff_of_lt ha).1 (Piece.char.inj hch)]
      exact ⟨s, rfl, hrest⟩
    split at h
    · cases h
    · next b t =>
      split at h
      · next htwo =>
        obtain ⟨hch, hrest⟩ := List.cons.inj h
        rw [twoByteChar?_eq_some_iff.1 (htwo.trans (congrArg some (Piece.char.inj hch)))]
        exact ⟨t, rfl, hrest⟩
      split at h
      · cases h
      · next c u =>
        split at h
        · next hthree =>
          obtain ⟨hch, hrest⟩ := List.cons.inj h
          rw [threeByteChar?_eq_some_iff.1 (hthree.trans (congrArg some (Piece.char.inj hch)))]
          exact ⟨u, rfl, hrest⟩
        split at h
        · cases h
        · next d v =>
          split at h
          · next hfour =>
            obtain ⟨hch, hrest⟩ := List.cons.inj h
            rw [fourByteChar?_eq_some_iff.1 (hfour.trans (congrArg some (Piece.char.inj hch)))]
            exact ⟨v, rfl, hrest⟩
          · cases h

theorem pieces_eq_nil_iff {bytes : List UInt8} : pieces bytes = [] ↔ bytes = [] := by
  fun_cases pieces bytes <;> simp

theorem pieces_eq_map_char_iff {bytes : List UInt8} {cs : List Char} :
    pieces bytes = cs.map Piece.char ↔ bytes = cs.flatMap String.utf8EncodeChar := by
  induction cs generalizing bytes with
  | nil => exact pieces_eq_nil_iff
  | cons ch cs ih =>
    rw [List.map_cons, List.flatMap_cons]
    constructor
    · intro h
      obtain ⟨rest, rfl, hrest⟩ := exists_of_pieces_eq_cons h
      rw [ih.1 hrest]
    · rintro rfl
      rw [pieces_utf8EncodeChar, ih.2 rfl]

theorem mapM_char?_eq_some_iff {ps : List Piece} {cs : List Char} :
    ps.mapM Piece.char? = some cs ↔ ps = cs.map Piece.char := by
  induction ps generalizing cs with
  | nil => simp [eq_comm]
  | cons p ps ih =>
    cases p with
    | stray b => cases cs <;> simp [Piece.char?]
    | char c =>
      cases cs with
      | nil => simp [Piece.char?, Option.bind_eq_some_iff]
      | cons d cs =>
        simp only [List.mapM_cons, Piece.char?, Option.bind_eq_bind, Option.bind_some,
          Option.bind_eq_some_iff, ih, Option.pure_def, Option.some.injEq, List.cons.injEq,
          List.map_cons, Piece.char.injEq]
        constructor
        · rintro ⟨_, hps, rfl, rfl⟩
          exact ⟨rfl, hps⟩
        · rintro ⟨rfl, hps⟩
          exact ⟨cs, hps, rfl, rfl⟩

/-- The bytes that are decoded are exactly the bytes of texts, and each gives its text. -/
theorem decode?_eq_some_iff {bytes : List UInt8} {s : String} :
    decode? bytes = some s ↔ bytes = encode s := by
  rw [decode?, Option.map_eq_some_iff, encode]
  simp only [mapM_char?_eq_some_iff, pieces_eq_map_char_iff]
  constructor
  · rintro ⟨cs, hbytes, rfl⟩
    rw [hbytes, String.toList_ofList]
  · intro hbytes
    exact ⟨s.toList, hbytes, String.ofList_toList⟩

end UsbTopology.Text
