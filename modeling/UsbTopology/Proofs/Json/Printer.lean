import Mathlib.Data.List.Forall2
import UsbTopology.Json.Printer
import UsbTopology.Proofs.Json.Decimal
import UsbTopology.Proofs.Json.Reading

set_option autoImplicit false

/-!
# Printed values

The two layouts differ in their blanks only. Whatever is printed in a layout that differs from them
in this way is well formed (`exists_written`), and so it is read back as the value that was printed,
if its numbers are natural and its brackets are nested no deeper than the reader goes.
-/
namespace UsbTopology.Json

mutual

/-- A value written with a gap before each element, member and closing bracket, and a space behind
each colon. -/
def spell (gap : Nat → List Char) (space : List Char) (level : Nat) : Json → List Char
  | .array es => '[' :: spellElements gap space level true es
  | .object ms => '\x7b' :: spellMembers gap space level true ms
  | j => j.write

def spellElements (gap : Nat → List Char) (space : List Char) (level : Nat) :
    Bool → List Json → List Char
  | first, [] => (if first then [] else gap level) ++ [']']
  | first, e :: rest =>
    comma first ++ (gap (level + 1) ++ (spell gap space (level + 1) e ++
      spellElements gap space level false rest))

def spellMembers (gap : Nat → List Char) (space : List Char) (level : Nat) :
    Bool → List (String × Json) → List Char
  | first, [] => (if first then [] else gap level) ++ ['\x7d']
  | first, (name, v) :: rest =>
    comma first ++ (gap (level + 1) ++ (writeText name ++ ':' :: (space ++
      (spell gap space (level + 1) v ++ spellMembers gap space level false rest))))

end

mutual

theorem spell_compact (level : Nat) : ∀ j, spell (fun _ => []) [] level j = write j
  | .null | .bool _ | .number _ | .string _ => rfl
  | .array [] | .object [] => rfl
  | .array (e :: rest) => by
    simp [spell, spellElements, comma, write, spell_compact (level + 1) e,
      spellElements_compact level rest]
  | .object ((name, v) :: rest) => by
    simp [spell, spellMembers, comma, write, spell_compact (level + 1) v,
      spellMembers_compact level rest]

theorem spellElements_compact (level : Nat) :
    ∀ es, spellElements (fun _ => []) [] level false es = writeElements es
  | [] => rfl
  | e :: rest => by
    simp [spellElements, comma, writeElements, spell_compact (level + 1) e,
      spellElements_compact level rest]

theorem spellMembers_compact (level : Nat) :
    ∀ ms, spellMembers (fun _ => []) [] level false ms = writeMembers ms
  | [] => rfl
  | (name, v) :: rest => by
    simp [spellMembers, comma, writeMembers, spell_compact (level + 1) v,
      spellMembers_compact level rest]

end

mutual

theorem spell_pretty (level : Nat) : ∀ j, spell breakLine [' '] level j = writePretty level j
  | .null | .bool true | .bool false | .number _ | .string _ => rfl
  | .array [] | .object [] => rfl
  | .array (e :: rest) => by
    simp [spell, spellElements, comma, writePretty, spell_pretty (level + 1) e,
      spellElements_pretty level rest]
  | .object ((name, v) :: rest) => by
    simp [spell, spellMembers, comma, writePretty, spell_pretty (level + 1) v,
      spellMembers_pretty level rest]

theorem spellElements_pretty (level : Nat) :
    ∀ es, spellElements breakLine [' '] level false es = writePrettyElements level es
  | [] => rfl
  | e :: rest => by
    simp [spellElements, comma, writePrettyElements, spell_pretty (level + 1) e,
      spellElements_pretty level rest]

theorem spellMembers_pretty (level : Nat) :
    ∀ ms, spellMembers breakLine [' '] level false ms = writePrettyMembers level ms
  | [] => rfl
  | (name, v) :: rest => by
    simp [spellMembers, comma, writePrettyMembers, spell_pretty (level + 1) v,
      spellMembers_pretty level rest]

end

theorem isBlank_of_mem_breakLine (level : Nat) : ∀ ch ∈ breakLine level, Cursor.isBlank ch := by
  intro ch hch
  rw [breakLine, List.mem_cons, List.mem_replicate] at hch
  rcases hch with rfl | ⟨-, rfl⟩ <;> rfl

theorem exists_glyph (c : Char) : ∃ g : Glyph, g.chars = escapeChar c ∧ g.char = c := by
  have hletter : ∀ e x, (e, x) ∈ letterEscapes → escapeChar x = ['\\', e] → c = x →
      ∃ g : Glyph, g.chars = escapeChar c ∧ g.char = c := by
    rintro e x hmem hescape rfl
    exact ⟨.letter e c hmem, hescape.symm, rfl⟩
  by_cases h₁ : c = '"'
  · exact hletter '"' _ (by decide) (by decide) h₁
  by_cases h₂ : c = '\\'
  · exact hletter '\\' _ (by decide) (by decide) h₂
  by_cases h₃ : c = '\x08'
  · exact hletter 'b' _ (by decide) (by decide) h₃
  by_cases h₄ : c = '\x0c'
  · exact hletter 'f' _ (by decide) (by decide) h₄
  by_cases h₅ : c = '\n'
  · exact hletter 'n' _ (by decide) (by decide) h₅
  by_cases h₆ : c = '\r'
  · exact hletter 'r' _ (by decide) (by decide) h₆
  by_cases h₇ : c = '\t'
  · exact hletter 't' _ (by decide) (by decide) h₇
  by_cases h : c.toNat < 0x20
  · have hescape : escapeChar c = '\\' :: 'u' :: Text.hexFixed 4 c.toNat := by
      simp [escapeChar, h₁, h₂, h₃, h₄, h₅, h₆, h₇, h]
    obtain ⟨hleading, htrailing⟩ := no_surrogate_of_control h
    exact ⟨.unit (.ofControl c.toNat h) hleading htrailing, hescape.symm, Char.ofNat_toNat c⟩
  · have hescape : escapeChar c = [c] := by
      simp [escapeChar, h₁, h₂, h₃, h₄, h₅, h₆, h₇, h]
    exact ⟨.plain c h₁ h₂ h, hescape.symm, rfl⟩

theorem exists_glyphs (s : String) :
    ∃ glyphs, rawChars glyphs = s.toList.flatMap escapeChar ∧ decoded glyphs = s := by
  have hchars : ∀ cs : List Char, ∃ glyphs, rawChars glyphs = cs.flatMap escapeChar ∧
      glyphs.map Glyph.char = cs := by
    intro cs
    induction cs with
    | nil => exact ⟨[], rfl, rfl⟩
    | cons c cs ih =>
      obtain ⟨g, hg, hc⟩ := exists_glyph c
      obtain ⟨glyphs, hglyphs, hcs⟩ := ih
      refine ⟨g :: glyphs, ?_, ?_⟩
      · rw [rawChars, List.flatMap_cons, List.flatMap_cons, hg, ← hglyphs, rawChars]
      · rw [List.map_cons, hc, hcs]
  obtain ⟨glyphs, hglyphs, hs⟩ := hchars s.toList
  exact ⟨glyphs, hglyphs, by rw [decoded, hs, String.ofList_toList]⟩

theorem quotedChars_of_rawChars {glyphs : List Glyph} {s : String}
    (h : rawChars glyphs = s.toList.flatMap escapeChar) : quotedChars glyphs = writeText s := by
  rw [quotedChars, h, writeText]

theorem exists_text (s : String) :
    ∃ glyphs, (Written.text glyphs).chars = writeText s ∧ decoded glyphs = s := by
  obtain ⟨glyphs, hraw, hs⟩ := exists_glyphs s
  exact ⟨glyphs, quotedChars_of_rawChars hraw, hs⟩

theorem escapeChar_of_isDigit {ch : Char} (h : ch.isDigit = true) : escapeChar ch = [ch] := by
  have hne : ∀ c, c.isDigit = false → ch ≠ c := by
    rintro c hc rfl
    rw [hc] at h
    cases h
  have hcontrol : ¬ ch.toNat < 0x20 := by
    simp only [Char.isDigit, Bool.and_eq_true, decide_eq_true_eq] at h
    have hle : '0'.toNat ≤ ch.toNat := h.1
    have hzero : '0'.toNat = 48 := rfl
    omega
  simp [escapeChar, hne '"' rfl, hne '\\' rfl, hne '\x08' rfl, hne '\x0c' rfl, hne '\n' rfl,
    hne '\r' rfl, hne '\t' rfl, hcontrol]

theorem flatMap_escapeChar_of_isDigit {cs : List Char} (h : ∀ ch ∈ cs, ch.isDigit = true) :
    cs.flatMap escapeChar = cs := by
  induction cs with
  | nil => rfl
  | cons ch cs ih =>
    obtain ⟨hch, hcs⟩ := List.forall_mem_cons.1 h
    rw [List.flatMap_cons, escapeChar_of_isDigit hch, ih hcs, List.singleton_append]

/-- A member of the given name, escaped as the printer does, whose value is in a relation to the
member that it stands for. -/
structure Member.Stands (R : String × Json → Written → Prop) (m : Member) (e : String × Json) :
    Prop where
  rawName : m.rawName = e.1.toList.flatMap escapeChar
  name : m.name = e.1
  value : R e m.value

section

variable {gap : Nat → List Char} {space : List Char}
  (hgap : ∀ level, ∀ ch ∈ gap level, Cursor.isBlank ch) {level : Nat}

include hgap

theorem exists_elementChars {R : Json → Written → Prop} (first : Bool) (e : Json) (es : List Json)
    (h : ∀ j ∈ e :: es, ∃ w : Written, w.chars = spell gap space (level + 1) j ∧ R j w) :
    ∃ elements, Written.elementChars first elements =
        spellElements gap space level first (e :: es) ∧
      List.Forall₂ (fun x j => R j x.value) elements (e :: es) := by
  -- The gap before the closing bracket stands behind the last element.
  induction es generalizing first e with
  | nil =>
    obtain ⟨w, hw, hr⟩ := h e List.mem_cons_self
    refine ⟨[.mk ⟨gap (level + 1), hgap _⟩ w ⟨gap level, hgap _⟩], ?_, .cons hr .nil⟩
    simp [Written.elementChars, spellElements, hw]
  | cons e' es ih =>
    obtain ⟨w, hw, hr⟩ := h e List.mem_cons_self
    obtain ⟨elements, hchars, hrest⟩ := ih false e' fun j hj => h j (List.mem_cons_of_mem e hj)
    refine ⟨.mk ⟨gap (level + 1), hgap _⟩ w .none :: elements, ?_, .cons hr hrest⟩
    simp [Written.elementChars, spellElements, hchars, hw, Gap.none]

theorem exists_array {R : Json → Written → Prop} {es : List Json}
    (h : ∀ j ∈ es, ∃ w : Written, w.chars = spell gap space (level + 1) j ∧ R j w) :
    ∃ elements, (Written.array .none elements).chars = spell gap space level (.array es) ∧
      List.Forall₂ (fun x j => R j x.value) elements es := by
  cases es with
  | nil => exact ⟨[], rfl, .nil⟩
  | cons e es =>
    obtain ⟨elements, hchars, hr⟩ := exists_elementChars hgap true e es h
    exact ⟨elements, by rw [Written.chars, hchars, spell, Gap.none, List.nil_append], hr⟩

variable (hspace : ∀ ch ∈ space, Cursor.isBlank ch)

include hspace

theorem exists_memberChars {R : String × Json → Written → Prop} (first : Bool) (e : String × Json)
    (es : List (String × Json))
    (h : ∀ j ∈ e :: es, ∃ w : Written, w.chars = spell gap space (level + 1) j.2 ∧ R j w) :
    ∃ ms, Written.memberChars first ms = spellMembers gap space level first (e :: es) ∧
      List.Forall₂ (Member.Stands R) ms (e :: es) := by
  induction es generalizing first e with
  | nil =>
    obtain ⟨w, hw, hr⟩ := h e List.mem_cons_self
    obtain ⟨glyphs, hraw, hname⟩ := exists_glyphs e.1
    refine ⟨[.mk ⟨gap (level + 1), hgap _⟩ glyphs .none ⟨space, hspace⟩ w ⟨gap level, hgap _⟩],
      ?_, .cons ⟨hraw, hname, hr⟩ .nil⟩
    simp [Written.memberChars, spellMembers, quotedChars_of_rawChars hraw, hw, Gap.none]
  | cons e' es ih =>
    obtain ⟨w, hw, hr⟩ := h e List.mem_cons_self
    obtain ⟨glyphs, hraw, hname⟩ := exists_glyphs e.1
    obtain ⟨ms, hchars, hrest⟩ := ih false e' fun j hj => h j (List.mem_cons_of_mem e hj)
    refine ⟨.mk ⟨gap (level + 1), hgap _⟩ glyphs .none ⟨space, hspace⟩ w .none :: ms, ?_,
      .cons ⟨hraw, hname, hr⟩ hrest⟩
    simp [Written.memberChars, spellMembers, quotedChars_of_rawChars hraw, hw, hchars, Gap.none]

theorem exists_object {R : String × Json → Written → Prop} {es : List (String × Json)}
    (h : ∀ j ∈ es, ∃ w : Written, w.chars = spell gap space (level + 1) j.2 ∧ R j w) :
    ∃ ms, (Written.object .none ms).chars = spell gap space level (.object es) ∧
      List.Forall₂ (Member.Stands R) ms es := by
  cases es with
  | nil => exact ⟨[], rfl, .nil⟩
  | cons e es =>
    obtain ⟨ms, hchars, hr⟩ := exists_memberChars hgap hspace true e es h
    exact ⟨ms, by rw [Written.chars, hchars, spell, Gap.none, List.nil_append], hr⟩

end

/-- Natural numbers that fit a word, and brackets nested no deeper than a bound. -/
def Fits : Nat → Json → Prop
  | _, .null => True
  | _, .bool _ => True
  | _, .string _ => True
  | _, .number n => ∃ m ≤ Numeral.maxSignificand, n = .natural m
  | depth + 1, .array elements => ∀ e ∈ elements, Fits depth e
  | depth + 1, .object members => ∀ m ∈ members, Fits depth m.2
  | 0, _ => False

section

variable {α β : Type} {R : α → β → Prop} {as : List α} {bs : List β} (h : List.Forall₂ R as bs)

include h

theorem mapM_of_forall₂ {f : α → Option β} (hf : ∀ a b, R a b → f a = some b) :
    as.mapM f = some bs := by
  induction h with
  | nil => rfl
  | cons hab _ ih => rw [List.mapM_cons, hf _ _ hab, ih]; rfl

theorem forall_mem_of_forall₂ {P : α → Prop} (hp : ∀ a b, R a b → P a) : ∀ a ∈ as, P a := by
  induction h with
  | nil => exact List.forall_mem_nil _
  | cons hab _ ih => exact List.forall_mem_cons.2 ⟨hp _ _ hab, ih⟩

end

section

variable {gap : Nat → List Char} {space : List Char}
  (hgap : ∀ level, ∀ ch ∈ gap level, Cursor.isBlank ch) (hspace : ∀ ch ∈ space, Cursor.isBlank ch)

include hgap hspace

/-- Whatever is printed is well formed, and stands for the value that was printed. -/
theorem exists_written : ∀ {depth : Nat} {j : Json}, Fits depth j → ∀ level,
    ∃ w : Written, w.chars = spell gap space level j ∧ w.value? = some j ∧ w.Within depth
  | _, .null, _, _ => ⟨.null, rfl, rfl, by simp [Written.Within]⟩
  | _, .bool b, _, _ => ⟨.bool b, by cases b <;> rfl, rfl, by simp [Written.Within]⟩
  | _, .string s, _, _ => by
    obtain ⟨glyphs, hchars, hs⟩ := exists_text s
    exact ⟨.text glyphs, hchars, by rw [Written.value?, hs], by simp [Written.Within]⟩
  | _, .number n, h, _ => by
    rw [Fits] at h
    obtain ⟨m, hm, rfl⟩ := h
    refine ⟨.number (.ofNat m), ?_, ?_, by simp [Written.Within]⟩
    · simp [Written.chars, Figure.chars_ofNat, spell, write, Number.text]
    · rw [Written.value?, Figure.value?_ofNat hm, Option.map_some]
  | depth + 1, .array es, h, level => by
    rw [Fits] at h
    obtain ⟨elements, hchars, hr⟩ :=
      exists_array hgap fun e he => exists_written (h e he) (level + 1)
    have hvalues := mapM_of_forall₂ hr fun _ _ h => h.1
    refine ⟨_, hchars, ?_, forall_mem_of_forall₂ hr fun _ _ h => h.2⟩
    rw [Written.value?, elementValues?_eq_mapM, hvalues, Option.map_some]
  | depth + 1, .object es, h, level => by
    rw [Fits] at h
    obtain ⟨ms, hchars, hr⟩ :=
      exists_object hgap hspace fun e he => exists_written (h e he) (level + 1)
    have hvalues : (ms.mapM fun m => do return (m.name, ← m.value.value?)) = some es := by
      refine mapM_of_forall₂ hr fun m e hm => ?_
      rw [hm.name, hm.value.1]
      rfl
    refine ⟨_, hchars, ?_, forall_mem_of_forall₂ hr fun _ _ h => h.value.2⟩
    rw [Written.value?, memberValues?_eq_mapM, hvalues, Option.map_some]
  | 0, .array _, h, _ => absurd h (by simp [Fits])
  | 0, .object _, h, _ => absurd h (by simp [Fits])

theorem readValue_spell {depth : Nat} {j : Json} (hfits : Fits depth j) (level : Nat) :
    Decides (readValue depth) (spell gap space level j) (some j) := by
  obtain ⟨w, hchars, hvalue, hwithin⟩ := exists_written hgap hspace hfits level
  rw [← hchars, ← hvalue]
  exact readValue_chars hwithin

end

end UsbTopology.Json
