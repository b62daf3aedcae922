import UsbTopology.Proofs.Json.ByteName
import UsbTopology.Proofs.Json.Exactness

set_option autoImplicit false

/-!
# Records without other members

What a record that refuses unknown members takes from an object as it is written, if its fields are
texts and tables of texts: the members of known names, of which none may be repeated.
-/
namespace UsbTopology.Json

def Written.text? : Written → Option String
  | .text glyphs => some (decoded glyphs)
  | _ => none

def Written.members : Written → List Member
  | .object _ ms => ms
  | _ => []

def textValue? (w : Written) : Option Json := w.text?.map .string

def nullOrTextValue? : Written → Option Json
  | .null => some .null
  | w => textValue? w

def byteMembers? (ms : List Member) : Option (List (String × Json)) :=
  ms.mapM fun m => do return (← byteName? m.glyphs, ← textValue? m.value)

def byteTableValue? : Written → Option Json
  | .object _ ms => (byteMembers? ms).map .object
  | _ => none

theorem Written.exists_head (w : Written) :
    ∃ ch more, w.chars = ch :: more ∧ Cursor.isBlank ch = false ∧
      (ch = '"' ↔ ∃ glyphs, w = .text glyphs) ∧ (ch = 'n' ↔ w = .null) ∧
        (ch = '\x7b' ↔ ∃ gap ms, w = .object gap ms) := by
  cases w with
  | null => exact ⟨'n', _, rfl, by decide, by simp, by simp, by simp⟩
  | bool b => cases b <;> exact ⟨_, _, rfl, by decide, by simp, by simp, by simp⟩
  | text glyphs => exact ⟨'"', _, rfl, by decide, by simp, by simp, by simp⟩
  | array gap es => exact ⟨'[', _, rfl, by decide, by simp, by simp, by simp⟩
  | object gap ms => exact ⟨'\x7b', _, rfl, by decide, by simp, by simp, by simp⟩
  | number f =>
    obtain ⟨ch, more, hcons, hblank, -⟩ := (Written.number f).exists_cons
    obtain ⟨d, digits, hcons', hch⟩ := f.exists_cons
    obtain ⟨rfl, -⟩ := List.cons.inj (hcons'.symm.trans hcons)
    have hne : ∀ letter, (letter = '-' || isDigit letter) = false → d ≠ letter := by
      rintro letter hletter rfl
      rw [hletter] at hch
      exact absurd hch (by decide)
    exact ⟨d, more, hcons, hblank, by simp [hne '"' (by decide)], by simp [hne 'n' (by decide)],
      by simp [hne '\x7b' (by decide)]⟩

theorem textValue?_of_not {w : Written} (h : ¬ ∃ glyphs, w = .text glyphs) :
    textValue? w = none := by
  cases w with
  | text glyphs => exact absurd ⟨glyphs, rfl⟩ h
  | null | bool | number | array | object => rfl

theorem readText_chars (expected : String) (depth : Nat) (w : Written) :
    Decides ((Shape.text expected).read depth) w.chars (textValue? w) := by
  intro p rest hrest
  obtain ⟨ch, more, hcons, hblank, htext, -⟩ := w.exists_head
  have hskip := skipBlanks_cons hblank p (more ++ rest)
  by_cases hw : ∃ glyphs, w = .text glyphs
  · obtain rfl := htext.2 hw
    obtain ⟨glyphs, rfl⟩ := hw
    have hname := readName_chars glyphs p rest hrest
    rw [show quotedChars glyphs = '"' :: more from hcons] at hname
    rw [Shape.read, hcons]
    simp only [List.cons_append, readText, hskip] at hname ⊢
    exact hname.map Json.string
  · rw [textValue?_of_not hw, hcons]
    intro r hr
    rw [Shape.read] at hr
    obtain ⟨y, hy, -⟩ := bind_eq_ok_iff.1 hr
    simp only [List.cons_append, readText, hskip] at hy
    split at hy
    · next heq => exact hw (htext.1 (List.cons.inj heq).1)
    · exact mistype_ne_ok _ _ _ hy

theorem readNullOrText_chars (expected : String) (depth : Nat) (w : Written) :
    Decides ((Shape.optional (.text expected)).read depth) w.chars (nullOrTextValue? w) := by
  intro p rest hrest
  obtain ⟨ch, more, hcons, hblank, -, hnull, -⟩ := w.exists_head
  have hskip := skipBlanks_cons hblank p (more ++ rest)
  by_cases hw : w = .null
  · subst hw
    exact ⟨_, by simp [Shape.read, Written.chars]; rfl⟩
  · have hvalue : nullOrTextValue? w = textValue? w := by
      cases w with
      | null => exact absurd rfl hw
      | bool | number | text | array | object => rfl
    have htext := readText_chars expected depth w p rest hrest
    rw [hvalue, Shape.read]
    rw [hcons, List.cons_append] at htext ⊢
    simp only [hskip]
    split
    · next heq => exact absurd (hnull.1 (List.cons.inj heq).1) hw
    · exact htext

theorem readByteTable_chars (expected : String) (depth : Nat) (w : Written) :
    Decides ((Shape.byteTable (.text expected)).read (depth + 1)) w.chars (byteTableValue? w) := by
  intro p rest hrest
  obtain ⟨ch, more, hcons, hblank, -, -, hobject⟩ := w.exists_head
  have hskip := skipBlanks_cons hblank p (more ++ rest)
  by_cases hw : ∃ gap ms, w = .object gap ms
  · obtain rfl := hobject.2 hw
    obtain ⟨gap, ms, rfl⟩ := hw
    have htable := readObject_chars ((Shape.text expected).read_skipBlanks depth)
      (fun (m : Member) (_ : m ∈ ms) => readByteName_chars m.glyphs)
      (fun m _ => readText_chars expected depth m.value) gap p rest
    have hopens : opens '\x7b' ⟨p, '\x7b' :: (more ++ rest)⟩ = true := rfl
    have hmore : gap.chars ++ (Written.memberChars true ms ++ rest) = more ++ rest := by
      rw [← List.append_assoc, ← (List.cons.inj hcons).2]
    rw [hmore] at htable
    rw [hcons, Shape.read.eq_def]
    simp only [List.cons_append, hskip, hopens, if_true]
    exact htable.map Json.object
  · have hvalue : byteTableValue? w = none := by
      cases w with
      | object gap ms => exact absurd ⟨gap, ms, rfl⟩ hw
      | null | bool | number | text | array => rfl
    have hopens : opens '\x7b' ⟨p, ch :: (more ++ rest)⟩ = false :=
      @opens_of_rest _ _ '\x7b' _ rfl fun h => hw (hobject.1 h)
    rw [hvalue, hcons, Shape.read.eq_def]
    simp only [List.cons_append, hskip, hopens]
    exact fun r => mistype_ne_ok _ _ r

/-- What the members of known names hold, if there are no others and none is repeated. -/
def knownMembers? (value? : String → Written → Option Json) (names : List String) :
    List String → List Member → Option (List (String × Json))
  | _, [] => some []
  | seen, m :: ms =>
    if m.name ∈ names ∧ m.name ∉ seen then do
      let j ← value? m.name m.value
      let known ← knownMembers? value? names (m.name :: seen) ms
      return (m.name, j) :: known
    else none

section

variable {value? : String → Written → Option Json} {names seen : List String} {m : Member}
  {ms : List Member}

theorem knownMembers?_cons_of_not (h : ¬ (m.name ∈ names ∧ m.name ∉ seen)) :
    knownMembers? value? names seen (m :: ms) = none := by
  rw [knownMembers?, if_neg h]

theorem knownMembers?_cons (h : m.name ∈ names ∧ m.name ∉ seen) :
    knownMembers? value? names seen (m :: ms) = (do
      let j ← value? m.name m.value
      let known ← knownMembers? value? names (m.name :: seen) ms
      return (m.name, j) :: known) := by
  rw [knownMembers?, if_pos h]

variable {fields : List FieldReader} {layout : Layout}

theorem readFieldMembers_chars (hclosed : layout.extensible = false)
    (hblanks : ∀ f ∈ fields, ∀ c, f.read c.skipBlanks = f.read c)
    (hread : ∀ f ∈ fields, ∀ w : Written, Decides f.read w.chars (value? f.name w))
    {rounds : List Char} (hrounds : ms.length < rounds.length) (lead : Gap) (first : Bool)
    (seen : List String) (p : Position) (rest : List Char) :
    Yields (readFieldMembers layout fields rounds first seen
      ⟨p, lead.chars ++ (Written.memberChars first ms ++ rest)⟩)
      (knownMembers? value? (fields.map FieldReader.name) seen ms) ('\x7d' :: rest) := by
  obtain ⟨ch, rounds, rfl⟩ := List.exists_cons_of_length_pos (Nat.zero_lt_of_lt hrounds)
  induction ms generalizing lead first seen p ch rounds with
  | nil =>
    obtain ⟨q, hclose⟩ := seekMember_close lead.blank first p rest
    exact ⟨q, by simp [readFieldMembers, Written.memberChars, hclose, ok_bind]⟩
  | cons m ms ih =>
    have hlt : ms.length < rounds.length := by simpa using hrounds
    obtain ⟨next, rounds, rfl⟩ := List.exists_cons_of_length_pos (Nat.zero_lt_of_lt hlt)
    obtain ⟨before, glyphs, colon, space, w, after⟩ := m
    obtain ⟨q, hseek⟩ := seekMember_member lead first before glyphs p (colon.chars ++ ':' ::
      (space.chars ++ (w.chars ++ (after.chars ++ (Written.memberChars false ms ++ rest)))))
    obtain ⟨q₁, hname⟩ := readName_quoted glyphs q (colon.chars ++ ':' ::
      (space.chars ++ (w.chars ++ (after.chars ++ (Written.memberChars false ms ++ rest)))))
    rw [readFieldMembers, Written.memberChars]
    simp only [List.append_assoc, List.cons_append, hseek, ok_bind, hname]
    cases hfind : fields.find? fun f => f.name = decoded glyphs with
    | none =>
      have hunknown : decoded glyphs ∉ fields.map FieldReader.name := by
        simpa using List.find?_eq_none.1 hfind
      rw [knownMembers?_cons_of_not fun h => hunknown h.1]
      simp only [hclosed]
      exact fun r hr => by cases hr
    | some f =>
      have hf : f ∈ fields := List.mem_of_find?_eq_some hfind
      have hfn : f.name = decoded glyphs := by simpa using List.find?_some hfind
      have hknown : decoded glyphs ∈ fields.map FieldReader.name := hfn ▸ List.mem_map_of_mem hf
      by_cases hseen : decoded glyphs ∈ seen
      · rw [knownMembers?_cons_of_not fun h => h.2 hseen]
        simp only [if_pos hseen]
        exact fun r hr => by cases hr
      · obtain ⟨q₂, hcolon⟩ := readColon_gap colon q₁
          (space.chars ++ (w.chars ++ (after.chars ++ (Written.memberChars false ms ++ rest))))
        obtain ⟨q₃, hspace⟩ := w.skipBlanks_chars space q₂
          (after.chars ++ (Written.memberChars false ms ++ rest))
        rw [knownMembers?_cons ⟨hknown, hseen⟩]
        simp only [if_neg hseen, hcolon, ok_bind]
        rw [← hblanks f hf, hspace]
        have hvalue := hread f hf w q₃ _ (ends_memberChars after ms rest)
        rw [hfn] at hvalue
        refine hvalue.bind fun j q => ?_
        exact (ih after false _ q next rounds hlt).bind fun known q => ⟨q, rfl⟩

end

theorem isSome_mapM_iff {α β : Type} {f : α → Option β} {as : List α} :
    (as.mapM f).isSome ↔ ∀ a ∈ as, (f a).isSome := by
  induction as with
  | nil => simp
  | cons a as ih =>
    rw [List.forall_mem_cons, ← ih, List.mapM_cons]
    cases f a <;> cases as.mapM f <;> simp

theorem knownMembers?_eq_some_iff {value? : String → Written → Option Json}
    {names seen : List String} {ms : List Member} {known : List (String × Json)} :
    knownMembers? value? names seen ms = some known ↔
      (∀ m ∈ ms, m.name ∈ names ∧ m.name ∉ seen) ∧ (ms.map Member.name).Nodup ∧
        ms.mapM (fun m => (value? m.name m.value).map (Prod.mk m.name)) = some known := by
  induction ms generalizing seen known with
  | nil => simp [knownMembers?]
  | cons m ms ih =>
    by_cases hm : m.name ∈ names ∧ m.name ∉ seen
    · rw [knownMembers?_cons hm, mapM_cons_eq_some_iff, List.map_cons, List.nodup_cons,
        List.forall_mem_cons]
      constructor
      · intro h
        obtain ⟨j, hj, h⟩ := Option.bind_eq_some_iff.1 h
        obtain ⟨rest, hrest, h⟩ := Option.bind_eq_some_iff.1 h
        obtain ⟨hall, hnodup, hmap⟩ := ih.1 hrest
        have hother : m.name ∉ ms.map Member.name := by
          intro hmem
          obtain ⟨m', hm', heq⟩ := List.mem_map.1 hmem
          exact (hall m' hm').2 (heq ▸ List.mem_cons_self)
        have hunseen := fun m' hm' => mt (List.mem_cons_of_mem m.name) (hall m' hm').2
        refine ⟨⟨hm, fun m' hm' => ⟨(hall m' hm').1, hunseen m' hm'⟩⟩, ⟨hother, hnodup⟩,
          (m.name, j), rest, by rw [hj]; rfl, hmap, (Option.some.inj h).symm⟩
      · rintro ⟨⟨-, hall⟩, ⟨hother, hnodup⟩, e, rest, he, hmap, rfl⟩
        obtain ⟨j, hj, rfl⟩ := Option.map_eq_some_iff.1 he
        have hunseen : ∀ m' ∈ ms, m'.name ∈ names ∧ m'.name ∉ m.name :: seen := by
          refine fun m' hm' => ⟨(hall m' hm').1, fun hmem => ?_⟩
          rcases List.mem_cons.1 hmem with heq | hmem
          · exact hother (heq ▸ List.mem_map_of_mem hm')
          · exact (hall m' hm').2 hmem
        simp [hj, ih.2 ⟨hunseen, hnodup, hmap⟩]
    · rw [knownMembers?_cons_of_not hm]
      exact ⟨fun h => absurd h.symm (Option.some_ne_none known),
        fun h => absurd (h.1 m List.mem_cons_self) hm⟩

theorem lookup_of_mapM {value? : String → Written → Option Json} {ms : List Member}
    {known : List (String × Json)}
    (h : ms.mapM (fun m => (value? m.name m.value).map (Prod.mk m.name)) = some known)
    (name : String) :
    known.lookup name =
      (ms.find? fun m => m.name = name).bind fun m => value? name m.value := by
  induction ms generalizing known with
  | nil =>
    obtain rfl : [] = known := by simpa using h
    rfl
  | cons m ms ih =>
    obtain ⟨e, known, he, hrest, rfl⟩ := mapM_cons_eq_some_iff.1 h
    obtain ⟨j, hj, rfl⟩ := Option.map_eq_some_iff.1 he
    by_cases hname : m.name = name
    · subst hname
      simp [hj]
    · rw [List.lookup_cons, beq_false_of_ne (Ne.symm hname), List.find?_cons_of_neg (by simpa)]
      exact ih hrest

end UsbTopology.Json
