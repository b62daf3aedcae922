import UsbTopology.Json.Shape
import UsbTopology.Proofs.Json.Decimal
import UsbTopology.Proofs.Json.Reading
import UsbTopology.Proofs.Location.Name

set_option autoImplicit false

/-!
# Names that are bytes

A name that has to be a byte is taken as it stands between its quotes, which has to be the decimal
text of the byte.
-/
namespace UsbTopology.Json

theorem byteText_ofNat {n : Nat} (h : n < 256) : byteText (UInt8.ofNat n) = toString n := by
  rw [byteText, UInt8.toNat_ofNat_of_lt' h]

theorem byteOfName?_eq_some_iff {s : String} {b : UInt8} :
    byteOfName? s = some b ↔ s = byteText b := by
  have hfound : ∀ {n}, (List.range 256).find? (fun n => toString n = s) = some n →
      byteText (UInt8.ofNat n) = s := by
    intro n hn
    have hmem := List.mem_range.1 (List.mem_of_find?_eq_some hn)
    rw [byteText_ofNat hmem]
    simpa using List.find?_some hn
  constructor
  · intro h
    obtain ⟨n, hn, rfl⟩ := Option.map_eq_some_iff.1 h
    exact (hfound hn).symm
  · rintro rfl
    cases hn : (List.range 256).find? fun n => toString n = byteText b with
    | none =>
      have hmissing := List.find?_eq_none.1 hn b.toNat (List.mem_range.2 b.toNat_lt)
      simp [byteText] at hmissing
    | some n =>
      have hsame := congrArg String.toList (hfound hn)
      rw [byteOfName?, hn, Option.map_some, byteText_toList_injective hsame]

theorem byteOfName?_byteText (b : UInt8) : byteOfName? (byteText b) = some b :=
  byteOfName?_eq_some_iff.2 rfl

theorem readDigits_rest (c : Cursor) :
    c.rest = (readDigits c).1 ++ (readDigits c).2.rest ∧ ∀ ch ∈ (readDigits c).1, isDigit ch := by
  obtain ⟨p, text⟩ := c
  rw [readDigits]
  induction text generalizing p with
  | nil => exact ⟨rfl, List.forall_mem_nil _⟩
  | cons ch text ih =>
    obtain ⟨hrest, hdigits⟩ := ih (p.after ch)
    simp only [readDigitsFrom]
    split
    · next hch => exact ⟨congrArg (List.cons ch) hrest, List.forall_mem_cons.2 ⟨hch, hdigits⟩⟩
    · exact ⟨rfl, List.forall_mem_nil _⟩

theorem readWhole_zero {p : Position} {text whole : List Char} {c' : Cursor}
    (h : readWhole ⟨p, '0' :: text⟩ = .ok (whole, c')) :
    whole = ['0'] ∧ c' = ⟨p.after '0', text⟩ := by
  simp only [readWhole, if_true] at h
  cases text with
  | nil =>
    cases h
    exact ⟨rfl, rfl⟩
  | cons d text =>
    simp only at h
    split at h
    · cases h
    · cases h
      exact ⟨rfl, rfl⟩

theorem readWhole_eq_ok {c c' : Cursor} {whole : List Char} (h : readWhole c = .ok (whole, c')) :
    c.rest = whole ++ c'.rest ∧ (∀ ch ∈ whole, isDigit ch = true) ∧ whole ≠ [] ∧
      (whole = ['0'] ∨ whole.head? ≠ some '0') := by
  obtain ⟨p, text⟩ := c
  cases text with
  | nil => cases h
  | cons ch text =>
    by_cases hzero : ch = '0'
    · subst hzero
      obtain ⟨rfl, rfl⟩ := readWhole_zero h
      exact ⟨rfl, List.forall_mem_singleton.2 rfl, List.cons_ne_nil _ _, .inl rfl⟩
    · simp only [readWhole, if_neg hzero] at h
      split at h
      · next hch =>
        have hread : readDigits ⟨p, ch :: text⟩ = (whole, c') := Except.ok.inj h
        obtain ⟨hrest, hdigits⟩ := readDigits_rest ⟨p, ch :: text⟩
        have hcons : (readDigits ⟨p, ch :: text⟩).1 =
            ch :: (readDigitsFrom (p.after ch) text).1 := by
          simp [readDigits, readDigitsFrom, hch]
        rw [hread] at hrest hdigits hcons
        simp only at hcons
        refine ⟨hrest, hdigits, ?_, .inr ?_⟩
        · rw [hcons]
          exact List.cons_ne_nil _ _
        · rw [hcons]
          exact fun h => hzero (Option.some.inj h)
      · cases h

theorem readFraction_eq_none {c c' : Cursor} (h : readFraction c = .ok (none, c')) : c' = c := by
  unfold readFraction at h
  split at h
  · split at h
    · simp only at h
      split at h
      · split at h <;> cases h
      · cases h
    · cases h
      rfl
  · cases h
    rfl

theorem readExponent_eq_none {c c' d : Cursor} (h : readExponent c = .ok ((none, d), c')) :
    c' = c := by
  unfold readExponent at h
  split at h
  · split at h
    · simp only at h
      split at h
      · cases h
      · split at h <;> cases h
    · cases h
      rfl
  · cases h
    rfl

theorem readNumber_natural {c c' : Cursor} {n : Nat} (h : readNumber c = .ok (.natural n, c')) :
    c.rest = Nat.toDigits 10 n ++ c'.rest := by
  have hunsigned : ∀ {minus d}, readUnsigned minus d = .ok (.natural n, c') →
      minus = false ∧ d.rest = Nat.toDigits 10 n ++ c'.rest := by
    intro minus d hd
    obtain ⟨⟨whole, c₁⟩, hwhole, hd⟩ := bind_eq_ok_iff.1 hd
    obtain ⟨⟨fraction?, c₂⟩, hfraction, hd⟩ := bind_eq_ok_iff.1 hd
    obtain ⟨⟨⟨exponent?, at_⟩, c₃⟩, hexponent, hd⟩ := bind_eq_ok_iff.1 hd
    simp only at hd
    cases hvalue : Numeral.value? ⟨minus, whole, fraction?, exponent?⟩ with
    | none => simp [hvalue] at hd
    | some m =>
      simp only [hvalue] at hd
      cases hd
      obtain ⟨hminus, hfraction', hexponent', rfl⟩ := value?_eq_natural hvalue
      simp only at hminus hfraction' hexponent'
      subst hfraction' hexponent'
      obtain ⟨hrest, hdigits, hne, hlead⟩ := readWhole_eq_ok hwhole
      obtain rfl := readFraction_eq_none hfraction
      obtain rfl := readExponent_eq_none hexponent
      exact ⟨hminus, by rw [toDigits_ofDigitChars hdigits hne hlead, hrest]⟩
  unfold readNumber at h
  split at h
  · exact absurd (hunsigned h).1 (by decide)
  · exact (hunsigned h).2

def byteName? (glyphs : List Glyph) : Option String :=
  (byteOfName? (String.ofList (rawChars glyphs))).map byteText

theorem byteName?_eq_some_iff {glyphs : List Glyph} {s : String} :
    byteName? glyphs = some s ↔ ∃ b, rawChars glyphs = (byteText b).toList ∧ s = byteText b := by
  rw [byteName?, Option.map_eq_some_iff]
  refine exists_congr fun b => ?_
  rw [byteOfName?_eq_some_iff, ← String.toList_inj, String.toList_ofList, eq_comm (a := byteText b)]

theorem Glyph.chars_cases (g : Glyph) :
    (∃ c, g.chars = [c] ∧ c ≠ '"') ∨ ∃ more, g.chars = '\\' :: more := by
  cases g with
  | plain c quote => exact .inl ⟨c, rfl, quote⟩
  | letter | unit | pair => exact .inr ⟨_, rfl⟩

/-- No quote stands between the quotes of a text but behind a backslash. -/
theorem rawChars_eq_of_quote {glyphs : List Glyph} {digits rest rest' : List Char}
    (hdigits : ∀ ch ∈ digits, isDigit ch = true)
    (h : rawChars glyphs ++ '"' :: rest = digits ++ '"' :: rest') : rawChars glyphs = digits := by
  induction glyphs generalizing digits with
  | nil =>
    cases digits with
    | nil => rfl
    | cons d digits =>
      obtain ⟨rfl, -⟩ := List.cons.inj h
      exact absurd (hdigits '"' List.mem_cons_self) (by decide)
  | cons g glyphs ih =>
    rw [rawChars, List.flatMap_cons, ← rawChars, List.append_assoc] at h
    rw [rawChars, List.flatMap_cons, ← rawChars]
    cases digits with
    | nil =>
      rcases g.chars_cases with ⟨c, hc, hquote⟩ | ⟨more, hmore⟩
      · rw [hc] at h
        exact absurd (List.cons.inj h).1 hquote
      · rw [hmore] at h
        exact absurd (List.cons.inj h).1 (by decide)
    | cons d digits =>
      obtain ⟨hd, hrest⟩ := List.forall_mem_cons.1 hdigits
      rcases g.chars_cases with ⟨c, hc, -⟩ | ⟨more, hmore⟩
      · rw [hc] at h ⊢
        obtain ⟨rfl, htail⟩ := List.cons.inj h
        rw [List.singleton_append, ih hrest htail]
      · rw [hmore] at h
        obtain ⟨rfl, -⟩ := List.cons.inj h
        exact absurd hd (by decide)

theorem readByteNumber_eq_ok {c c' : Cursor} {b : UInt8} (h : readByteNumber c = .ok (b, c')) :
    readNumber c = .ok (.natural b.toNat, c') := by
  obtain ⟨⟨n, d⟩, hnumber, h⟩ := bind_eq_ok_iff.1 h
  cases n with
  | natural n =>
    simp only [byte?] at h
    split at h
    · next b' hb =>
      cases h
      split at hb
      · next hn =>
        cases hb
        rw [hnumber, UInt8.toNat_ofNat_of_lt' hn]
      · cases hb
    · cases h
  | negative n => cases h
  | real minus x => cases h

theorem next_quotedChars (glyphs : List Glyph) (p : Position) (rest : List Char) :
    (⟨p, quotedChars glyphs ++ rest⟩ : Cursor).next =
      ⟨p.after '"', rawChars glyphs ++ '"' :: rest⟩ := by
  simp [quotedChars, Cursor.next]

theorem readByteName_of_byte {glyphs : List Glyph} {b : UInt8}
    (hraw : rawChars glyphs = (byteText b).toList) (p : Position) (rest : List Char) :
    ∃ q, readByteName ⟨p, quotedChars glyphs ++ rest⟩ = .ok (byteText b, ⟨q, rest⟩) := by
  rw [toList_byteText] at hraw
  have hb : b.toNat ≤ Numeral.maxSignificand :=
    Nat.le_of_lt (Nat.lt_trans b.toNat_lt (by decide))
  have hread := readNumber_figure (.ofNat b.toNat) (p.after '"') ('"' :: rest)
    (ends_cons (by decide))
  rw [Figure.value?_ofNat hb, Figure.chars_ofNat] at hread
  obtain ⟨q, hq⟩ := hread
  refine ⟨q.after '"', ?_⟩
  cases hcons : Nat.toDigits 10 b.toNat with
  | nil => exact absurd hcons Nat.toDigits_ne_nil
  | cons ch digits =>
    have hch : isDigit ch = true := isDigit_of_mem_toDigits (hcons ▸ List.mem_cons_self)
    have hbyte : (Json.number (.natural b.toNat)).byte? = some b := byte?_ofByte b
    rw [hcons, List.cons_append] at hq
    unfold readByteName
    rw [next_quotedChars, hraw, hcons, List.cons_append]
    simp [hch, readByteNumber, hq, hbyte, ok_bind, Cursor.next]

theorem byte_of_readByteName {glyphs : List Glyph} {p : Position} {rest : List Char} {s : String}
    {c' : Cursor} (h : readByteName ⟨p, quotedChars glyphs ++ rest⟩ = .ok (s, c')) :
    ∃ b : UInt8, rawChars glyphs = (byteText b).toList := by
  unfold readByteName at h
  rw [next_quotedChars] at h
  cases htaken : rawChars glyphs ++ '"' :: rest with
  | nil => simp at htaken
  | cons ch more =>
    simp only [htaken] at h
    split at h
    · obtain ⟨⟨b, d⟩, hnumber, h⟩ := bind_eq_ok_iff.1 h
      have hdigits := readNumber_natural (readByteNumber_eq_ok hnumber)
      simp only at h hdigits
      split at h
      · next rest' hrest' =>
        rw [← htaken, hrest'] at hdigits
        have hraw := rawChars_eq_of_quote (fun ch hch => isDigit_of_mem_toDigits hch) hdigits
        exact ⟨b, hraw.trans (toList_byteText b).symm⟩
      · cases h
    · cases h

theorem readByteName_chars (glyphs : List Glyph) :
    Decides readByteName (quotedChars glyphs) (byteName? glyphs) := by
  intro p rest _
  cases hname : byteName? glyphs with
  | some s =>
    obtain ⟨b, hraw, rfl⟩ := byteName?_eq_some_iff.1 hname
    exact readByteName_of_byte hraw p rest
  | none =>
    rintro ⟨s, c'⟩ h
    obtain ⟨b, hraw⟩ := byte_of_readByteName h
    have hsome := byteName?_eq_some_iff.2 ⟨b, hraw, rfl⟩
    rw [hname] at hsome
    cases hsome

end UsbTopology.Json
