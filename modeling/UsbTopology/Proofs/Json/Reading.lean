import UsbTopology.Proofs.Json.Grammar
import UsbTopology.Proofs.Json.Numeral
import UsbTopology.Proofs.Json.Value

set_option autoImplicit false

/-!
# Reading well-formed JSON

Whatever is well formed is read as the value that it stands for, if its brackets are nested no
deeper than the reader goes, and fails if it stands for none (`readValue_chars`).
-/
namespace UsbTopology.Json

section

variable {α β : Type}

/-- The result is the value and leaves the rest of the text, or a failure if there is no value. -/
def Yields (result : Except Stop (α × Cursor)) (a? : Option α) (rest : List Char) : Prop :=
  match a? with
  | some a => ∃ q, result = .ok (a, ⟨q, rest⟩)
  | none => ∀ r, result ≠ .ok r

/-- The reader takes the value from the text, or fails if there is none, whatever follows that does
not go on with it. -/
def Decides (read : Cursor → Except Stop (α × Cursor)) (text : List Char) (a? : Option α) : Prop :=
  ∀ p rest, Ends rest → Yields (read ⟨p, text ++ rest⟩) a? rest

theorem Yields.bind {x : Except Stop (α × Cursor)} {f : α × Cursor → Except Stop (β × Cursor)}
    {a? : Option α} {g : α → Option β} {mid rest : List Char} (hx : Yields x a? mid)
    (hf : ∀ a q, Yields (f (a, ⟨q, mid⟩)) (g a) rest) : Yields (x >>= f) (a?.bind g) rest := by
  cases a? with
  | some a =>
    obtain ⟨q, rfl⟩ := hx
    exact hf a q
  | none =>
    intro r hr
    obtain ⟨y, hy, -⟩ := bind_eq_ok_iff.1 hr
    exact hx y hy

theorem Yields.map {x : Except Stop (α × Cursor)} {a? : Option α} {rest : List Char}
    (hx : Yields x a? rest) (g : α → β) :
    Yields (x >>= fun y => .ok (g y.1, y.2)) (a?.map g) rest := by
  rw [Option.map_eq_bind]
  exact hx.bind fun a q => ⟨q, rfl⟩

end

theorem simpleEscape?_of_mem : ∀ p ∈ letterEscapes, p.1 ≠ 'u' ∧ simpleEscape? p.1 = some p.2 := by
  decide

theorem readQuoted_glyph (g : Glyph) (p : Position) (done rest : List Char) :
    ∃ q, readQuoted p done (g.chars ++ rest) = readQuoted q (g.char :: done) rest := by
  cases g with
  | plain c quote backslash control =>
    refine ⟨p.after c, ?_⟩
    rw [Glyph.chars, readQuoted.eq_def]
    simp [quote, backslash, control, Glyph.char]
  | letter e c escape =>
    obtain ⟨hu, hc⟩ := simpleEscape?_of_mem _ escape
    refine ⟨(p.after '\\').after e, ?_⟩
    rw [Glyph.chars, readQuoted.eq_def]
    simp only at hu hc
    simp [hu, hc, Glyph.char]
  | unit u leading trailing =>
    refine ⟨((p.after '\\').after 'u').afterAll [u.first, u.second, u.third, u.fourth], ?_⟩
    rw [Glyph.chars, Unit16.chars, readQuoted.eq_def]
    simp [u.value, leading, trailing, Glyph.char]
  | pair u v leading trailing =>
    have hlead : isTrailingSurrogate u.number = false := by
      simp only [isLeadingSurrogate, isTrailingSurrogate, Bool.and_eq_true, decide_eq_true_eq,
        Bool.and_eq_false_iff, decide_eq_false_iff_not] at leading ⊢
      omega
    refine ⟨(((((p.after '\\').after 'u').afterAll
      [u.first, u.second, u.third, u.fourth]).afterAll ['\\', 'u']).afterAll
      [v.first, v.second, v.third, v.fourth]), ?_⟩
    rw [Glyph.chars, Unit16.chars, Unit16.chars, readQuoted.eq_def]
    simp [u.value, v.value, leading, trailing, hlead, Glyph.char]

theorem readQuoted_glyphs (glyphs : List Glyph) (p : Position) (done rest : List Char) :
    ∃ q, readQuoted p done (rawChars glyphs ++ '"' :: rest) =
      .ok (String.ofList (done.reverse ++ glyphs.map Glyph.char), ⟨q, rest⟩) := by
  induction glyphs generalizing p done with
  | nil =>
    refine ⟨p.after '"', ?_⟩
    rw [readQuoted.eq_def]
    simp [rawChars]
  | cons g glyphs ih =>
    obtain ⟨q, hg⟩ := readQuoted_glyph g p done (rawChars glyphs ++ '"' :: rest)
    obtain ⟨r, hrest⟩ := ih q (g.char :: done)
    refine ⟨r, ?_⟩
    rw [rawChars, List.flatMap_cons, List.append_assoc, ← rawChars, hg, hrest]
    simp

theorem readName_quoted (glyphs : List Glyph) (p : Position) (rest : List Char) :
    ∃ q, readName ⟨p, quotedChars glyphs ++ rest⟩ = .ok (decoded glyphs, ⟨q, rest⟩) := by
  obtain ⟨q, hq⟩ := readQuoted_glyphs glyphs (p.after '"') [] rest
  refine ⟨q, ?_⟩
  simpa [readName, readQuotation, quotedChars, Cursor.next, decoded] using hq

theorem isDigit_of_ends {rest : List Char} (h : Ends rest) :
    ∀ ch ∈ rest.head?, isDigit ch = false := by
  intro ch hch
  have hend := h ch hch
  simp only [Bool.or_eq_false_iff] at hend
  exact hend.1.1.1

theorem readDigits_digits (ds : Digits) {rest : List Char}
    (hrest : ∀ ch ∈ rest.head?, isDigit ch = false) (p : Position) :
    ∃ q, readDigits ⟨p, ds.chars ++ rest⟩ = (ds.chars, ⟨q, rest⟩) :=
  readDigitsFrom_append ds.digits hrest p

theorem Digits.exists_cons (ds : Digits) :
    ∃ ch digits, ds.chars = ch :: digits ∧ isDigit ch = true := by
  cases hcons : ds.chars with
  | nil => exact absurd hcons ds.nonempty
  | cons ch digits => exact ⟨ch, digits, rfl, ds.digits ch (hcons ▸ List.mem_cons_self)⟩

theorem readWhole_figure (f : Figure) {rest : List Char}
    (hrest : ∀ ch ∈ rest.head?, isDigit ch = false) (p : Position) :
    ∃ q, readWhole ⟨p, f.whole.chars ++ rest⟩ = .ok (f.whole.chars, ⟨q, rest⟩) := by
  rcases f.leading with hzero | hhead
  · rw [hzero]
    cases rest with
    | nil => exact ⟨_, rfl⟩
    | cons ch rest => exact ⟨_, by simp [readWhole, hrest ch (by simp)]; rfl⟩
  · obtain ⟨q, hq⟩ := readDigits_digits f.whole hrest p
    obtain ⟨ch, digits, hcons, hch⟩ := f.whole.exists_cons
    rw [hcons] at hhead hq ⊢
    have hzero : ch ≠ '0' := fun h => hhead (by rw [h]; rfl)
    refine ⟨q, ?_⟩
    simp only [readWhole, List.cons_append, if_neg hzero, if_pos hch]
    exact congrArg Except.ok hq

theorem Exponent.letter_head (e : Exponent) (rest : List Char) :
    ∀ ch ∈ (e.chars ++ rest).head?, isDigit ch = false ∧ ch ≠ '.' := by
  intro ch hch
  obtain rfl : e.letter = ch := Option.some.inj hch
  rcases e.letter_form with h | h <;> rw [h] <;> decide

theorem Figure.exponent_head (f : Figure) {rest : List Char} (hrest : Ends rest) :
    ∀ ch ∈ (f.exponentChars ++ rest).head?, isDigit ch = false ∧ ch ≠ '.' := by
  rw [exponentChars]
  cases f.exponent? with
  | none =>
    intro ch hch
    refine ⟨isDigit_of_ends hrest ch hch, ?_⟩
    rintro rfl
    exact absurd (hrest '.' hch) (by decide)
  | some e => exact e.letter_head rest

theorem Figure.fraction_head (f : Figure) {rest : List Char} (hrest : Ends rest) :
    ∀ ch ∈ (f.fractionChars ++ (f.exponentChars ++ rest)).head?, isDigit ch = false := by
  rw [fractionChars]
  cases f.fraction? with
  | none => exact fun ch hch => (f.exponent_head hrest ch hch).1
  | some ds =>
    intro ch hch
    obtain rfl : '.' = ch := Option.some.inj hch
    decide

theorem readFraction_figure (f : Figure) {rest : List Char} (hrest : Ends rest) (p : Position) :
    ∃ q, readFraction ⟨p, f.fractionChars ++ (f.exponentChars ++ rest)⟩ =
      .ok (f.fraction?.map Digits.chars, ⟨q, f.exponentChars ++ rest⟩) := by
  have hhead := f.exponent_head hrest
  rw [Figure.fractionChars]
  cases f.fraction? with
  | none =>
    refine ⟨p, ?_⟩
    cases hcons : f.exponentChars ++ rest with
    | nil => rfl
    | cons ch more =>
      rw [hcons] at hhead
      simp [readFraction, (hhead ch (by simp)).2]
  | some ds =>
    obtain ⟨q, hq⟩ := readDigits_digits ds (fun ch hch => (hhead ch hch).1) (p.after '.')
    refine ⟨q, ?_⟩
    simp [readFraction, Cursor.next, hq, ds.nonempty]

theorem readExponentSign_sign {sign : List Char} (hsign : sign = [] ∨ sign = ['+'] ∨ sign = ['-'])
    {digits : List Char} {ch : Char} {more : List Char} (hcons : digits = ch :: more)
    (hch : isDigit ch = true) (p : Position) :
    ∃ q, readExponentSign ⟨p, sign ++ digits⟩ = (sign == ['-'], ⟨q, digits⟩) := by
  have hplus : ch ≠ '+' := by rintro rfl; exact absurd hch (by decide)
  have hminus : ch ≠ '-' := by rintro rfl; exact absurd hch (by decide)
  rcases hsign with rfl | rfl | rfl
  · exact ⟨p, by simp [readExponentSign, hcons, hplus, hminus]⟩
  · exact ⟨_, by simp [readExponentSign, Cursor.next]; rfl⟩
  · exact ⟨_, by simp [readExponentSign, Cursor.next]; rfl⟩

theorem readExponent_figure (f : Figure) {rest : List Char} (hrest : Ends rest) (p : Position) :
    ∃ r q, readExponent ⟨p, f.exponentChars ++ rest⟩ =
      .ok ((f.exponent?.map fun e => (e.sign == ['-'], e.magnitude.chars), r), ⟨q, rest⟩) := by
  rw [Figure.exponentChars]
  cases f.exponent? with
  | none =>
    refine ⟨⟨p, rest⟩, p, ?_⟩
    cases rest with
    | nil => rfl
    | cons ch rest =>
      have h := hrest ch (by simp)
      simp at h
      simp [readExponent, h]
  | some e =>
    obtain ⟨ch, more, hcons, hch⟩ := e.magnitude.exists_cons
    obtain ⟨r, hsign⟩ := @readExponentSign_sign e.sign e.sign_form
      (e.magnitude.chars ++ rest) ch (more ++ rest) (by rw [hcons]; rfl) hch (p.after e.letter)
    obtain ⟨q, hdigits⟩ := readDigits_digits e.magnitude (isDigit_of_ends hrest) r
    have hletter : e.letter = 'e' ∨ e.letter = 'E' := e.letter_form
    rw [hcons, List.cons_append] at hsign hdigits
    refine ⟨⟨r, e.magnitude.chars ++ rest⟩, q, ?_⟩
    simp [readExponent, Exponent.chars, Cursor.next, hletter, hcons, hsign, hdigits, hch]

theorem readUnsigned_figure (f : Figure) {rest : List Char} (hrest : Ends rest) (p : Position) :
    Yields (readUnsigned f.minus
      ⟨p, f.whole.chars ++ (f.fractionChars ++ (f.exponentChars ++ rest))⟩) f.value? rest := by
  obtain ⟨q₁, hwhole⟩ := readWhole_figure f (f.fraction_head hrest) p
  obtain ⟨q₂, hfraction⟩ := readFraction_figure f hrest q₁
  obtain ⟨r, q₃, hexponent⟩ := readExponent_figure f hrest q₂
  simp only [readUnsigned, hwhole, hfraction, hexponent, ok_bind]
  rw [Figure.value?, Figure.numeral]
  cases Numeral.value? _ with
  | none => exact fun r hr => by cases hr
  | some n => exact ⟨q₃, rfl⟩

theorem readNumber_figure (f : Figure) : Decides readNumber f.chars f.value? := by
  intro p rest hrest
  simp only [Figure.chars, Figure.signChars, List.append_assoc]
  by_cases hminus : f.minus = true
  · have h := readUnsigned_figure f hrest (p.after '-')
    rw [hminus] at h
    rw [if_pos hminus, List.singleton_append]
    exact h
  · have h := readUnsigned_figure f hrest p
    obtain ⟨ch, digits, hcons, hch⟩ := f.whole.exists_cons
    have hne : ch ≠ '-' := by rintro rfl; exact absurd hch (by decide)
    rw [Bool.not_eq_true] at hminus
    rw [hminus, hcons, List.cons_append] at h
    rw [if_neg (by simp [hminus]), List.nil_append, hcons, List.cons_append, readNumber_of_ne hne]
    exact h

theorem Figure.exists_cons (f : Figure) :
    ∃ ch rest, f.chars = ch :: rest ∧ (ch = '-' || isDigit ch) = true := by
  obtain ⟨ch, digits, hcons, hch⟩ := f.whole.exists_cons
  rw [chars, signChars]
  split
  · exact ⟨'-', _, rfl, by decide⟩
  · rw [hcons]
    exact ⟨ch, _, rfl, by simp [hch]⟩

theorem Written.exists_cons (w : Written) :
    ∃ ch rest, w.chars = ch :: rest ∧ Cursor.isBlank ch = false ∧ ch ≠ ']' := by
  cases w with
  | null => exact ⟨'n', _, rfl, by decide, by decide⟩
  | bool b => cases b <;> exact ⟨_, _, rfl, by decide, by decide⟩
  | number f =>
    obtain ⟨ch, rest, hcons, hch⟩ := f.exists_cons
    refine ⟨ch, rest, hcons, ?_⟩
    rcases Bool.or_eq_true_iff.1 hch with hminus | hdigit
    · obtain rfl : ch = '-' := by simpa using hminus
      decide
    · refine ⟨isBlank_of_isDigit hdigit, ?_⟩
      rintro rfl
      exact absurd hdigit (by decide)
  | text glyphs => exact ⟨'"', _, rfl, by decide, by decide⟩
  | array gap es => exact ⟨'[', _, rfl, by decide, by decide⟩
  | object gap ms => exact ⟨'\x7b', _, rfl, by decide, by decide⟩

theorem Written.skipBlanks_chars (gap : Gap) (w : Written) (p : Position) (rest : List Char) :
    ∃ q, (⟨p, gap.chars ++ (w.chars ++ rest)⟩ : Cursor).skipBlanks = ⟨q, w.chars ++ rest⟩ := by
  obtain ⟨ch, more, hcons, hblank, -⟩ := w.exists_cons
  rw [hcons]
  exact skipBlanks_gap gap.blank hblank p (more ++ rest)

theorem ends_elementChars (after : Gap) (es : List Element) (rest : List Char) :
    Ends (after.chars ++ (Written.elementChars false es ++ rest)) := by
  apply ends_gap after.blank
  cases es with
  | nil => exact ends_cons (by decide)
  | cons e es =>
    cases e
    exact ends_cons (by decide)

theorem ends_memberChars (after : Gap) (ms : List Member) (rest : List Char) :
    Ends (after.chars ++ (Written.memberChars false ms ++ rest)) := by
  apply ends_gap after.blank
  cases ms with
  | nil => exact ends_cons (by decide)
  | cons m ms =>
    cases m
    exact ends_cons (by decide)

theorem Gap.append (g h : Gap) : ∀ ch ∈ g.chars ++ h.chars, Cursor.isBlank ch = true :=
  fun ch hch => (List.mem_append.1 hch).elim (g.blank ch) (h.blank ch)

theorem seekElement_skipBlanks (first : Bool) (c : Cursor) :
    seekElement first c.skipBlanks = seekElement first c := by
  unfold seekElement
  rw [skipBlanks_skipBlanks]

theorem seekMember_skipBlanks (first : Bool) (c : Cursor) :
    seekMember first c.skipBlanks = seekMember first c := by
  unfold seekMember
  rw [skipBlanks_skipBlanks]

theorem seekElement_element (lead : Gap) (first : Bool) (before : Gap) (w : Written) (p : Position)
    (rest : List Char) :
    ∃ q, seekElement first
      ⟨p, lead.chars ++ (comma first ++ (before.chars ++ (w.chars ++ rest)))⟩ =
        .ok (true, ⟨q, w.chars ++ rest⟩) := by
  obtain ⟨ch, more, hcons, hblank, hclose⟩ := w.exists_cons
  rw [hcons, List.cons_append]
  cases first with
  | true =>
    obtain ⟨q, hq⟩ := seekElement_comma (lead.append before) true hblank hclose p (more ++ rest)
    exact ⟨q, by simpa [comma] using hq⟩
  | false =>
    obtain ⟨r, hr⟩ := skipBlanks_gap lead.blank (show Cursor.isBlank ',' = false by decide) p
      (before.chars ++ ch :: (more ++ rest))
    obtain ⟨q, hq⟩ := seekElement_comma before.blank false hblank hclose r (more ++ rest)
    refine ⟨q, ?_⟩
    rw [← seekElement_skipBlanks, comma, if_neg (by decide), List.singleton_append, hr]
    exact hq

theorem seekMember_member (lead : Gap) (first : Bool) (before : Gap) (name : List Glyph)
    (p : Position) (rest : List Char) :
    ∃ q, seekMember first
      ⟨p, lead.chars ++ (comma first ++ (before.chars ++ (quotedChars name ++ rest)))⟩ =
        .ok (true, ⟨q, quotedChars name ++ rest⟩) := by
  rw [quotedChars, List.cons_append]
  cases first with
  | true =>
    obtain ⟨q, hq⟩ := seekMember_comma (lead.append before) true p (rawChars name ++ ['"'] ++ rest)
    exact ⟨q, by simpa [comma] using hq⟩
  | false =>
    obtain ⟨r, hr⟩ := skipBlanks_gap lead.blank (show Cursor.isBlank ',' = false by decide) p
      (before.chars ++ '"' :: (rawChars name ++ ['"'] ++ rest))
    obtain ⟨q, hq⟩ := seekMember_comma before.blank false r (rawChars name ++ ['"'] ++ rest)
    refine ⟨q, ?_⟩
    rw [← seekMember_skipBlanks, comma, if_neg (by decide), List.singleton_append, hr]
    exact hq

theorem readColon_gap (colon : Gap) (p : Position) (rest : List Char) :
    ∃ q, readColon ⟨p, colon.chars ++ ':' :: rest⟩ = .ok ⟨q, rest⟩ := by
  obtain ⟨q, hq⟩ := skipBlanks_gap colon.blank (show Cursor.isBlank ':' = false by decide) p rest
  exact ⟨q.after ':', by simp [readColon, hq, Cursor.next]⟩

theorem elementValues?_eq_mapM (es : List Element) :
    Written.elementValues? es = es.mapM fun e => e.value.value? := by
  induction es with
  | nil => rfl
  | cons e es ih =>
    obtain ⟨before, w, after⟩ := e
    rw [Written.elementValues?, List.mapM_cons, ih]
    rfl

theorem memberValues?_eq_mapM (ms : List Member) :
    Written.memberValues? ms = ms.mapM fun m => do return (m.name, ← m.value.value?) := by
  induction ms with
  | nil => rfl
  | cons m ms ih =>
    obtain ⟨before, name, colon, space, w, after⟩ := m
    rw [Written.memberValues?, List.mapM_cons, ih]
    cases h : w.value? <;> simp [Member.value, Member.name, Member.glyphs, h]

theorem readElements_chars {α : Type} {element : Cursor → Except Stop (α × Cursor)}
    {value? : Written → Option α} {es : List Element}
    (helement : ∀ e ∈ es, Decides element e.value.chars (value? e.value)) {rounds : List Char}
    (hrounds : es.length < rounds.length) (lead : Gap) (first : Bool) (p : Position)
    (rest : List Char) :
    Yields (readElements element rounds first
      ⟨p, lead.chars ++ (Written.elementChars first es ++ rest)⟩)
      (es.mapM fun e => value? e.value) (']' :: rest) := by
  -- One round for each element and one for the bracket.
  obtain ⟨ch, rounds, rfl⟩ := List.exists_cons_of_length_pos (Nat.zero_lt_of_lt hrounds)
  induction es generalizing lead first p ch rounds with
  | nil =>
    obtain ⟨q, hclose⟩ := seekElement_close lead.blank first p rest
    exact ⟨q, by simp [readElements, Written.elementChars, hclose, ok_bind]⟩
  | cons e es ih =>
    have hlt : es.length < rounds.length := by simpa using hrounds
    obtain ⟨next, rounds, rfl⟩ := List.exists_cons_of_length_pos (Nat.zero_lt_of_lt hlt)
    obtain ⟨hhead, htail⟩ := List.forall_mem_cons.1 helement
    obtain ⟨before, w, after⟩ := e
    obtain ⟨q, hseek⟩ := seekElement_element lead first before w p
      (after.chars ++ (Written.elementChars false es ++ rest))
    rw [readElements, Written.elementChars, List.mapM_cons]
    simp only [List.append_assoc, hseek, ok_bind]
    refine (hhead q _ (ends_elementChars after es rest)).bind fun a q => ?_
    exact (ih htail after false q next rounds hlt).bind fun as q => ⟨q, rfl⟩

theorem readMembers_chars {κ α : Type} {name : Cursor → Except Stop (κ × Cursor)}
    {value : Cursor → Except Stop (α × Cursor)} {name? : List Glyph → Option κ}
    {value? : Written → Option α} (hblanks : ∀ c, value c.skipBlanks = value c) {ms : List Member}
    (hname : ∀ m ∈ ms, Decides name (quotedChars m.glyphs) (name? m.glyphs))
    (hvalue : ∀ m ∈ ms, Decides value m.value.chars (value? m.value)) {rounds : List Char}
    (hrounds : ms.length < rounds.length) (lead : Gap) (first : Bool) (p : Position)
    (rest : List Char) :
    Yields (readMembers name value rounds first
      ⟨p, lead.chars ++ (Written.memberChars first ms ++ rest)⟩)
      (ms.mapM fun m => do return (← name? m.glyphs, ← value? m.value)) ('\x7d' :: rest) := by
  obtain ⟨ch, rounds, rfl⟩ := List.exists_cons_of_length_pos (Nat.zero_lt_of_lt hrounds)
  induction ms generalizing lead first p ch rounds with
  | nil =>
    obtain ⟨q, hclose⟩ := seekMember_close lead.blank first p rest
    exact ⟨q, by simp [readMembers, Written.memberChars, hclose, ok_bind]⟩
  | cons m ms ih =>
    have hlt : ms.length < rounds.length := by simpa using hrounds
    obtain ⟨next, rounds, rfl⟩ := List.exists_cons_of_length_pos (Nat.zero_lt_of_lt hlt)
    obtain ⟨hnameHead, hnameTail⟩ := List.forall_mem_cons.1 hname
    obtain ⟨hvalueHead, hvalueTail⟩ := List.forall_mem_cons.1 hvalue
    obtain ⟨before, glyphs, colon, space, w, after⟩ := m
    obtain ⟨q, hseek⟩ := seekMember_member lead first before glyphs p (colon.chars ++ ':' ::
      (space.chars ++ (w.chars ++ (after.chars ++ (Written.memberChars false ms ++ rest)))))
    rw [readMembers, Written.memberChars, List.mapM_cons]
    simp only [List.append_assoc, List.cons_append, hseek, ok_bind, bind_assoc, pure_bind]
    refine (hnameHead q _ (ends_gap colon.blank (ends_cons (by decide)))).bind fun k q => ?_
    obtain ⟨q₁, hcolon⟩ := readColon_gap colon q
      (space.chars ++ (w.chars ++ (after.chars ++ (Written.memberChars false ms ++ rest))))
    obtain ⟨q₂, hspace⟩ := w.skipBlanks_chars space q₁
      (after.chars ++ (Written.memberChars false ms ++ rest))
    simp only [hcolon, ok_bind]
    rw [← hblanks, hspace]
    refine (hvalueHead q₂ _ (ends_memberChars after ms rest)).bind fun v q => ?_
    exact (ih hnameTail hvalueTail after false q next rounds hlt).bind fun rest q => ⟨q, rfl⟩

theorem length_lt_elementChars (first : Bool) (es : List Element) :
    es.length < (Written.elementChars first es).length := by
  induction es generalizing first with
  | nil => exact Nat.one_pos
  | cons e es ih =>
    obtain ⟨before, w, after⟩ := e
    obtain ⟨ch, more, hcons, -⟩ := w.exists_cons
    have hes := ih false
    rw [Written.elementChars, hcons]
    simp only [List.length_append, List.length_cons]
    omega

theorem length_lt_memberChars (first : Bool) (ms : List Member) :
    ms.length < (Written.memberChars first ms).length := by
  induction ms generalizing first with
  | nil => exact Nat.one_pos
  | cons m ms ih =>
    obtain ⟨before, name, colon, space, w, after⟩ := m
    have hms := ih false
    rw [Written.memberChars]
    simp only [List.length_append, List.length_cons]
    omega

theorem Yields.settle_array {α : Type} {x : Except Stop (α × Cursor)} {a? : Option α}
    {rest : List Char} (h : Yields x a? (']' :: rest)) : Yields (settle x closeArray) a? rest := by
  cases a? with
  | some a =>
    obtain ⟨q, rfl⟩ := h
    have hclose := closeArray_done (@skipBlanks_cons ']' rfl q rest) rfl
    exact ⟨q.after ']', settle_eq_ok_iff.2 ⟨_, rfl, hclose⟩⟩
  | none =>
    rintro ⟨a, c⟩ hok
    obtain ⟨d, hd, -⟩ := settle_eq_ok_iff.1 hok
    exact h _ hd

theorem Yields.settle_object {α : Type} {x : Except Stop (α × Cursor)} {a? : Option α}
    {rest : List Char} (h : Yields x a? ('\x7d' :: rest)) :
    Yields (settle x closeObject) a? rest := by
  cases a? with
  | some a =>
    obtain ⟨q, rfl⟩ := h
    have hclose := closeObject_done (@skipBlanks_cons '\x7d' rfl q rest) rfl
    exact ⟨q.after '\x7d', settle_eq_ok_iff.2 ⟨_, rfl, hclose⟩⟩
  | none =>
    rintro ⟨a, c⟩ hok
    obtain ⟨d, hd, -⟩ := settle_eq_ok_iff.1 hok
    exact h _ hd

theorem readArray_chars {α : Type} {element : Cursor → Except Stop (α × Cursor)}
    {value? : Written → Option α} {es : List Element}
    (helement : ∀ e ∈ es, Decides element e.value.chars (value? e.value)) (gap : Gap)
    (p : Position) (rest : List Char) :
    Yields (readArray element ⟨p, '[' :: (gap.chars ++ (Written.elementChars true es ++ rest))⟩)
      (es.mapM fun e => value? e.value) rest := by
  have hlength := length_lt_elementChars true es
  have hrounds : es.length <
      ('[' :: (gap.chars ++ (Written.elementChars true es ++ rest))).length := by
    simp only [List.length_cons, List.length_append]
    omega
  have helements := readElements_chars helement hrounds gap true (p.after '[') rest
  exact helements.settle_array

theorem readObject_chars {κ α : Type} {name : Cursor → Except Stop (κ × Cursor)}
    {value : Cursor → Except Stop (α × Cursor)} {name? : List Glyph → Option κ}
    {value? : Written → Option α} (hblanks : ∀ c, value c.skipBlanks = value c) {ms : List Member}
    (hname : ∀ m ∈ ms, Decides name (quotedChars m.glyphs) (name? m.glyphs))
    (hvalue : ∀ m ∈ ms, Decides value m.value.chars (value? m.value)) (gap : Gap) (p : Position)
    (rest : List Char) :
    Yields (readObject name value
      ⟨p, '\x7b' :: (gap.chars ++ (Written.memberChars true ms ++ rest))⟩)
      (ms.mapM fun m => do return (← name? m.glyphs, ← value? m.value)) rest := by
  have hlength := length_lt_memberChars true ms
  have hrounds : ms.length <
      ('\x7b' :: (gap.chars ++ (Written.memberChars true ms ++ rest))).length := by
    simp only [List.length_cons, List.length_append]
    omega
  have hmembers := readMembers_chars hblanks hname hvalue hrounds gap true (p.after '\x7b') rest
  exact hmembers.settle_object

theorem readValue_number (depth : Nat) (f : Figure) :
    Decides (readValue depth) f.chars (f.value?.map .number) := by
  intro p rest hrest
  have hnumber := readNumber_figure f p rest hrest
  obtain ⟨ch, digits, hcons, hch⟩ := f.exists_cons
  have hblank : Cursor.isBlank ch = false := by
    obtain ⟨d, more, hcons', hblank, -⟩ := (Written.number f).exists_cons
    obtain ⟨rfl, -⟩ := List.cons.inj (hcons.symm.trans hcons')
    exact hblank
  have hletter : ∀ letter, (letter = '-' || isDigit letter) = false → ch ≠ letter := by
    rintro letter hletter rfl
    rw [hletter] at hch
    exact absurd hch (by decide)
  have hskip := skipBlanks_cons hblank p (digits ++ rest)
  rw [hcons, List.cons_append] at hnumber ⊢
  unfold readValue
  simp only [hskip, if_neg (hletter 'n' (by decide)), if_neg (hletter 't' (by decide)),
    if_neg (hletter 'f' (by decide)), if_pos hch]
  exact hnumber.map Json.number

theorem readName_chars (glyphs : List Glyph) :
    Decides readName (quotedChars glyphs) (some (decoded glyphs)) :=
  fun p rest _ => readName_quoted glyphs p rest

theorem readValue_text (depth : Nat) (glyphs : List Glyph) :
    Decides (readValue depth) (quotedChars glyphs) (some (.string (decoded glyphs))) := by
  intro p rest hrest
  have hname := readName_chars glyphs p rest hrest
  rw [quotedChars, List.cons_append] at hname ⊢
  have hskip := @skipBlanks_cons '"' rfl p (rawChars glyphs ++ ['"'] ++ rest)
  unfold readValue
  simp only [hskip]
  exact hname.map Json.string

/-- What is well formed is read as the value that it stands for. -/
theorem readValue_chars : ∀ {depth : Nat} {w : Written}, w.Within depth →
    Decides (readValue depth) w.chars w.value?
  | depth, .null, _ => by
    intro p rest _
    exact ⟨_, by unfold readValue; simp [Written.chars]; rfl⟩
  | depth, .bool b, _ => by
    intro p rest _
    cases b <;> exact ⟨_, by unfold readValue; simp [Written.chars]; rfl⟩
  | depth, .number f, _ => readValue_number depth f
  | depth, .text glyphs, _ => readValue_text depth glyphs
  | depth + 1, .array gap es, h => by
    intro p rest _
    have hread := fun e he => readValue_chars (h e he)
    have harray := readArray_chars hread gap p rest
    have hskip := @skipBlanks_cons '[' rfl p (gap.chars ++ (Written.elementChars true es ++ rest))
    rw [Written.value?, elementValues?_eq_mapM]
    simp only [Written.chars, List.cons_append, List.append_assoc]
    unfold readValue
    simp only [hskip]
    exact harray.map Json.array
  | depth + 1, .object gap ms, h => by
    intro p rest _
    have hread := fun m hm => readValue_chars (h m hm)
    have hobject := @readObject_chars _ _ readName (readValue depth) (some ∘ decoded)
      Written.value? (readValue_skipBlanks depth) ms (fun m _ => readName_chars m.glyphs) hread gap
      p rest
    have hskip :=
      @skipBlanks_cons '\x7b' rfl p (gap.chars ++ (Written.memberChars true ms ++ rest))
    rw [Written.value?, memberValues?_eq_mapM]
    simp only [Written.chars, List.cons_append, List.append_assoc]
    unfold readValue
    simp only [hskip]
    exact hobject.map Json.object
  | 0, .array _ _, h => h.elim
  | 0, .object _ _, h => h.elim

end UsbTopology.Json
