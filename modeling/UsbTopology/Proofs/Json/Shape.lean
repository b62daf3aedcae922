import Mathlib.Data.List.Nodup
import UsbTopology.Json.Shape
import UsbTopology.Proofs.Json.Printer
import UsbTopology.Proofs.Json.Skip

set_option autoImplicit false

/-!
# Reading for a shape

A reader that reads a text straight for a shape gives what the shape admits of the value that the
text holds, and stops at the same place. Only shapes whose names are bytes differ, because such a
name is read without its escapes.
-/
namespace UsbTopology.Json

def Field.shape : Field → Shape
  | .mk _ _ shape => shape

mutual

/-- No names that have to be bytes, and no two fields of one name. -/
def Shape.Plain : Shape → Prop
  | .byteTable _ => False
  | .optional value => value.Plain
  | .list element => element.Plain
  | .table value => value.Plain
  | .record _ _ fields => (fields.map Field.name).Nodup ∧ Field.AllPlain fields
  | _ => True

def Field.AllPlain : List Field → Prop
  | [] => True
  | .mk _ _ shape :: fields => shape.Plain ∧ Field.AllPlain fields

end

/-- Reading for the shape gives what the shape admits of the whole value. -/
def Shape.Straight (shape : Shape) : Prop :=
  ∀ depth, Refines (readValue depth) (shape.read depth) shape.admit?

theorem straight_byte : Shape.byte.Straight := by
  intro depth c c' j k hvalue hadmits
  rw [Shape.admit?] at hadmits
  obtain ⟨b, hb, rfl⟩ := Option.map_eq_some_iff.1 hadmits
  cases taken_of_readValue hvalue with
  | @number _ ch rest n _ hrest hch hnumber =>
    cases n with
    | natural n => simp [Shape.read, readByte, hrest, hch, readByteNumber, hnumber, ok_bind, hb]
    | negative n => cases hb
    | real minus x => cases hb
  | null | yes | no | text | array | object => cases hb

theorem straight_text (expected : String) : (Shape.text expected).Straight := by
  intro depth c c' j k hvalue hadmits
  rw [Shape.admit?] at hadmits
  obtain ⟨s, hs, rfl⟩ := Option.map_eq_some_iff.1 hadmits
  cases taken_of_readValue hvalue with
  | text hrest hname =>
    cases hs
    simp [Shape.read, readText, hrest, hname, ok_bind]
  | null | yes | no | number | array | object => cases hs

theorem readChoiceName_of_mem {names : List String} {c c' : Cursor} {s : String}
    (hname : readName c = .ok (s, c')) (hs : s ∈ names) :
    readChoiceName names c = .ok (s, c') := by
  simp [readChoiceName, hname, ok_bind, hs]

theorem seekChoiceName_of_seekMember {c c' : Cursor} (h : seekMember true c = .ok (true, c')) :
    seekChoiceName c = .ok c' := by
  unfold seekMember at h
  unfold seekChoiceName
  cases hrest : c.skipBlanks.rest with
  | nil => simp [hrest, Cursor.fail] at h
  | cons ch rest =>
    simp only [hrest, if_true] at h ⊢
    split at h
    · cases h
    · split at h
      · next hch =>
        cases h
        rw [if_pos hch]
      · cases h

theorem readChoice_of_object {names : List String} {depth : Nat} {c c' : Cursor} {s : String}
    {rest : List Char} (hrest : c.skipBlanks.rest = '\x7b' :: rest)
    (hobject : readObject readName (readValue depth) c.skipBlanks = .ok ([(s, .null)], c'))
    (hs : s ∈ names) : readChoice (depth + 1) names c = .ok (s, c') := by
  obtain ⟨c₁, hmembers, hclose⟩ := settle_eq_ok_iff.1 hobject
  obtain ⟨_, _, c₂, c₃, c₄, c₅, -, hseek, hname, hcolon, hnull, hdone⟩ := readMembers_cons hmembers
  obtain ⟨hskip, rest', hrest'⟩ := seekMember_done (readMembers_nil hdone)
  have hdouble : c₁.skipBlanks = c₁ := hskip ▸ skipBlanks_skipBlanks c₅
  obtain rfl : c₁.next = c' := by
    rw [closeObject_done hdouble hrest'] at hclose
    exact congrArg Prod.snd hclose
  have hunit : readUnit c₄ = .ok c₅ := by
    cases taken_of_readValue hnull with
    | null hn hletters => simp [readUnit, hn, hletters]
  simp [readChoice, hrest, seekChoiceName_of_seekMember hseek, readChoiceName_of_mem hname hs,
    hcolon, hunit, ok_bind, hskip, hrest']

theorem straight_choice (names : List String) : (Shape.choice names).Straight := by
  intro depth c c' j k hvalue hadmits
  cases taken_of_readValue hvalue with
  | @text _ _ s _ hrest hname =>
    rw [Shape.admit?] at hadmits
    split at hadmits
    · next hs =>
      cases hadmits
      simp [Shape.read, readChoice, hrest, readChoiceName_of_mem hname hs, ok_bind]
    · cases hadmits
  | @object depth rest ms _ hrest hobject =>
    match ms, hadmits with
    | [(s, .null)], hadmits =>
      rw [Shape.admit?] at hadmits
      split at hadmits
      · next hs =>
        cases hadmits
        simp [Shape.read, readChoice_of_object hrest hobject hs, ok_bind]
      · cases hadmits
  | null | yes | no | number | array => cases hadmits

theorem straight_optional {shape : Shape} (h : shape.Straight) :
    (Shape.optional shape).Straight := by
  intro depth c c' j k hvalue hadmits
  have hskipped := (readValue_skipBlanks depth c).trans hvalue
  rw [Shape.read]
  cases taken_of_readValue hvalue with
  | null hrest hnull =>
    rw [Shape.admit?] at hadmits
    cases hadmits
    simp [hrest, hnull, ok_bind]
  | yes hrest | no hrest | text hrest | array hrest | object hrest =>
    simp only [hrest]
    exact h _ _ _ _ _ hskipped hadmits
  | number hrest hch =>
    simp only [hrest]
    split
    · next heq =>
      cases heq
      exact absurd hch (by decide)
    · exact h _ _ _ _ _ hskipped hadmits

theorem straight_list {shape : Shape} (h : shape.Straight) : (Shape.list shape).Straight := by
  intro depth c c' j k hvalue hadmits
  cases taken_of_readValue hvalue with
  | @array depth rest es _ hrest harray =>
    rw [Shape.admit?] at hadmits
    obtain ⟨ks, hks, rfl⟩ := Option.map_eq_some_iff.1 hadmits
    obtain ⟨c₁, helements, hclose⟩ := settle_eq_ok_iff.1 harray
    have hread := settle_eq_ok_iff.2 ⟨c₁, readElements_refines (h depth) helements hks, hclose⟩
    rw [hrest] at hread
    simp [Shape.read, opens, hrest, readArray, hread, ok_bind]
  | null | yes | no | number | text | object => cases hadmits

theorem straight_table {shape : Shape} (h : shape.Straight) : (Shape.table shape).Straight := by
  intro depth c c' j k hvalue hadmits
  cases taken_of_readValue hvalue with
  | @object depth rest ms _ hrest hobject =>
    rw [Shape.admit?] at hadmits
    obtain ⟨ks, hks, rfl⟩ := Option.map_eq_some_iff.1 hadmits
    obtain ⟨c₁, hmembers, hclose⟩ := settle_eq_ok_iff.1 hobject
    have hread := settle_eq_ok_iff.2 ⟨c₁, readMembers_refines (h depth) hmembers hks, hclose⟩
    rw [hrest] at hread
    simp [Shape.read, opens, hrest, readObject, hread, ok_bind]
  | null | yes | no | number | text | array => cases hadmits

theorem straight_either (name : String) (alternatives : List Shape) :
    (Shape.either name alternatives).Straight := by
  intro depth c c' j k hvalue hadmits
  rw [Shape.admit?] at hadmits
  simp [Shape.read, hvalue, ok_bind, hadmits]

theorem readers_eq_map (fields : List Field) (depth : Nat) :
    Field.readers fields depth =
      fields.map fun f => ⟨f.name, f.required, fun c => f.shape.read depth c⟩ := by
  induction fields with
  | nil => rfl
  | cons f fields ih =>
    obtain ⟨name, required, shape⟩ := f
    rw [Field.readers, ih]
    rfl

theorem occurrences_cons_self (name : String) (j : Json) (members : List (String × Json)) :
    occurrences name ((name, j) :: members) = j :: occurrences name members := by
  simp [occurrences]

theorem occurrences_cons_of_ne {name : String} {m : String × Json} (h : m.1 ≠ name)
    (members : List (String × Json)) :
    occurrences name (m :: members) = occurrences name members := by
  simp [occurrences, h]

namespace Field

def value? (f : Field) (members : List (String × Json)) : Option Json :=
  (occurrences f.name members).head?.bind f.shape.admit?

def Suits (f : Field) (members : List (String × Json)) : Prop :=
  occurrences f.name members = [] ∨
    ∃ j k, occurrences f.name members = [j] ∧ f.shape.admit? j = some k

/-- Every field suits the members still to come, and no field of a name already seen has one. -/
def Awaits (fields : List Field) (seen : List String) (members : List (String × Json)) : Prop :=
  ∀ f ∈ fields, f.Suits members ∧ (f.name ∈ seen → occurrences f.name members = [])

section

variable {f : Field} {fields : List Field} {seen : List String} {name : String} {j : Json}
  {members : List (String × Json)}

theorem value?_cons_self :
    f.value? ((f.name, j) :: members) = f.shape.admit? j := by
  rw [value?, occurrences_cons_self]
  rfl

theorem value?_cons_of_ne (h : f.name ≠ name) :
    f.value? ((name, j) :: members) = f.value? members := by
  rw [value?, value?, occurrences_cons_of_ne (Ne.symm h)]

theorem Awaits.unknown (h : Awaits fields seen ((name, j) :: members))
    (hne : ∀ f ∈ fields, f.name ≠ name) : Awaits fields seen members := by
  intro f hf
  have hother := @occurrences_cons_of_ne f.name (name, j) (Ne.symm (hne f hf)) members
  rw [Suits, ← hother]
  exact h f hf

theorem Awaits.known (h : Awaits fields seen ((f.name, j) :: members)) (hf : f ∈ fields) :
    f.name ∉ seen ∧ (∃ k, f.shape.admit? j = some k) ∧ Awaits fields (f.name :: seen) members := by
  obtain ⟨hsuits, hseen⟩ := h f hf
  rw [Suits, occurrences_cons_self] at hsuits
  rw [occurrences_cons_self] at hseen
  obtain ⟨k, hlast, hk⟩ : ∃ k, occurrences f.name members = [] ∧ f.shape.admit? j = some k := by
    rcases hsuits with hnone | ⟨j', k, hone, hk⟩
    · cases hnone
    · obtain ⟨rfl, hlast⟩ := List.cons.inj hone
      exact ⟨k, hlast, hk⟩
  refine ⟨fun hmem => List.cons_ne_nil _ _ (hseen hmem), ⟨k, hk⟩, fun g hg => ?_⟩
  by_cases hgf : g.name = f.name
  · have hnone : occurrences g.name members = [] := hgf ▸ hlast
    exact ⟨.inl hnone, fun _ => hnone⟩
  · have hother := @occurrences_cons_of_ne g.name (f.name, j) (Ne.symm hgf) members
    obtain ⟨hg₁, hg₂⟩ := h g hg
    rw [Suits, hother] at hg₁
    rw [hother] at hg₂
    exact ⟨hg₁, fun hmem => hg₂ (List.mem_of_ne_of_mem hgf hmem)⟩

end

theorem admitMembers?_eq_some {fields : List Field} {members ks : List (String × Json)}
    (h : admitMembers? fields members = some ks) :
    (∀ f ∈ fields, f.Suits members ∧ (f.required → (f.value? members).isSome)) ∧
      ks = fields.filterMap fun f => (f.value? members).map (Prod.mk f.name) := by
  induction fields generalizing ks with
  | nil =>
    cases h
    exact ⟨nofun, rfl⟩
  | cons f fields ih =>
    obtain ⟨name, required, shape⟩ := f
    rw [admitMembers?] at h
    cases hocc : occurrences name members with
    | nil =>
      have hvalue : (Field.mk name required shape).value? members = none := by
        rw [value?, Field.name, hocc]
        rfl
      simp only [hocc] at h
      split at h
      · cases h
      · next hrequired =>
        obtain ⟨hall, rfl⟩ := ih h
        refine ⟨List.forall_mem_cons.2 ⟨⟨.inl hocc, fun hr => absurd hr hrequired⟩, hall⟩, ?_⟩
        rw [List.filterMap_cons_none (by rw [hvalue]; rfl)]
    | cons j js =>
      simp only [hocc] at h
      cases js with
      | cons => cases h
      | nil =>
        cases hadmits : shape.admit? j with
        | none => simp [hadmits] at h
        | some k =>
          cases hrest : admitMembers? fields members with
          | none => simp [hadmits, hrest] at h
          | some rest =>
            obtain rfl : (name, k) :: rest = ks := by simpa [hadmits, hrest] using h
            obtain ⟨hall, rfl⟩ := ih hrest
            have hvalue : (Field.mk name required shape).value? members = some k := by
              rw [value?, Field.name, hocc]
              exact hadmits
            refine ⟨List.forall_mem_cons.2 ⟨⟨.inr ⟨j, k, hocc, hadmits⟩, ?_⟩, hall⟩, ?_⟩
            · simp [hvalue]
            · rw [List.filterMap_cons_some (by rw [hvalue]; rfl)]
              rfl

end Field

section

variable {fields : List Field} (hnodup : (fields.map Field.name).Nodup)
  (hstraight : ∀ f ∈ fields, f.shape.Straight)

include hnodup in
theorem eq_of_name_eq {f g : Field} (hf : f ∈ fields) (hg : g ∈ fields) (h : f.name = g.name) :
    f = g :=
  List.inj_on_of_nodup_map hnodup hf hg h

theorem find?_readers {depth : Nat} {name : String} :
    ((Field.readers fields depth).find? fun f => f.name = name) =
      (fields.find? fun f => f.name = name).map fun f =>
        ⟨f.name, f.required, fun c => f.shape.read depth c⟩ := by
  rw [readers_eq_map, List.find?_map]
  rfl

include hnodup hstraight

theorem readFieldMembers_of_readMembers {layout : Layout} {depth : Nat} {rounds : List Char}
    {first : Bool} {seen : List String} {c c' : Cursor} {ms : List (String × Json)}
    (hread : readMembers readName (readValue depth) rounds first c = .ok (ms, c'))
    (hknown : layout.extensible = true ∨ ∀ m ∈ ms, ∃ f ∈ fields, f.name = m.1)
    (hawaits : Field.Awaits fields seen ms) :
    ∃ known, readFieldMembers layout (Field.readers fields depth) rounds first seen c =
      .ok (known, c') ∧ ∀ f ∈ fields, known.lookup f.name = f.value? ms := by
  induction ms generalizing rounds first seen c with
  | nil =>
    refine ⟨[], ?_, fun f _ => rfl⟩
    cases rounds with
    | nil => cases hread
    | cons ch rounds => rw [readFieldMembers, readMembers_nil hread, ok_bind]
  | cons m ms ih =>
    obtain ⟨name, j⟩ := m
    obtain ⟨ch, rounds, c₁, c₂, c₃, c₄, rfl, hseek, hname, hcolon, hvalue, htail⟩ :=
      readMembers_cons hread
    have hknown' := hknown.imp_right fun h m hm => h m (List.mem_cons_of_mem _ hm)
    -- A member of no field is passed over, one of a field is read and awaited no longer.
    cases hfind : fields.find? fun f => f.name = name with
    | none =>
      have hne : ∀ f ∈ fields, f.name ≠ name := fun f hf => by
        simpa using List.find?_eq_none.1 hfind f hf
      have hopen : layout.extensible = true := by
        rcases hknown with h | h
        · exact h
        · obtain ⟨f, hf, hfn⟩ := h (name, j) (by simp)
          exact absurd hfn (hne f hf)
      obtain ⟨known, hrun, hlookup⟩ := ih htail hknown' (hawaits.unknown hne)
      refine ⟨known, ?_, fun f hf => ?_⟩
      · simp only [readFieldMembers, hseek, ok_bind, hname, find?_readers, hfind, Option.map_none,
          hopen, if_true, hcolon, skipValue_of_readValue hvalue, hrun]
      · rw [Field.value?_cons_of_ne (hne f hf)]
        exact hlookup f hf
    | some f =>
      have hf : f ∈ fields := List.mem_of_find?_eq_some hfind
      have hfn : f.name = name := by simpa using List.find?_some hfind
      subst hfn
      obtain ⟨hunseen, ⟨k, hk⟩, hrest⟩ := hawaits.known hf
      obtain ⟨known, hrun, hlookup⟩ := ih htail hknown' hrest
      refine ⟨(f.name, k) :: known, ?_, fun g hg => ?_⟩
      · simp only [readFieldMembers, hseek, ok_bind, hname, find?_readers, hfind, Option.map_some,
          if_neg hunseen, hcolon, hstraight f hf depth _ _ _ _ hvalue hk, hrun]
      · by_cases hgf : g.name = f.name
        · obtain rfl := eq_of_name_eq hnodup hg hf hgf
          rw [List.lookup_cons_self, Field.value?_cons_self, hk]
        · rw [List.lookup_cons, beq_false_of_ne hgf, Field.value?_cons_of_ne hgf]
          exact hlookup g hg

omit hnodup hstraight in
theorem arrange_readers {depth : Nat} {known ms ks : List (String × Json)} {c : Cursor}
    (hknown : ∀ f ∈ fields, known.lookup f.name = f.value? ms)
    (hadmits : Field.admitMembers? fields ms = some ks) :
    arrange (Field.readers fields depth) known c = .ok (ks, c) := by
  obtain ⟨hall, rfl⟩ := Field.admitMembers?_eq_some hadmits
  have hnone : ((Field.readers fields depth).find? fun f =>
      f.required && (known.lookup f.name).isNone) = none := by
    rw [readers_eq_map, List.find?_eq_none]
    intro r hr
    obtain ⟨f, hf, rfl⟩ := List.mem_map.1 hr
    have hvalue := (hall f hf).2
    simp only [hknown f hf, Bool.and_eq_true, Option.isNone_iff_eq_none, not_and]
    intro hrequired hn
    rw [hn] at hvalue
    exact absurd (hvalue hrequired) (by decide)
  rw [arrange, hnone, readers_eq_map, List.filterMap_map]
  refine congrArg (fun members => Except.ok (members, c)) (List.filterMap_congr fun f hf => ?_)
  simp [hknown f hf]

omit hnodup in
theorem readFieldElements_of_readElements {record : String} {count index depth : Nat}
    {rounds : List Char} {c c' : Cursor} {es : List Json} {ks : List (String × Json)}
    (hread : readElements (readValue depth) rounds (index == 0) c = .ok (es, c'))
    (hadmits : Field.admitElements? fields es = some ks) :
    ∃ c₁, readFieldElements record count (Field.readers fields depth) index c = .ok (ks, c₁) ∧
      c₁.skipBlanks = c' := by
  induction fields generalizing rounds index c es ks with
  | nil =>
    cases es with
    | nil =>
      cases hadmits
      exact ⟨c, rfl, (seekElement_done (readElements_nil hread)).1⟩
    | cons e es => cases hadmits
  | cons f fields ih =>
    obtain ⟨name, required, shape⟩ := f
    have hfields := fun f hf => hstraight f (List.mem_cons_of_mem _ hf)
    have hlater : (index + 1 == 0) = false := rfl
    cases es with
    | nil =>
      rw [Field.admitElements?] at hadmits
      split at hadmits
      · cases hadmits
      · next hrequired =>
        -- At the closing bracket the remaining fields all find the bracket again.
        have hseek := readElements_nil hread
        obtain ⟨hskip, rest, hrest⟩ := seekElement_done hseek
        have hagain : readElements (readValue depth) [' '] (index + 1 == 0) c' = .ok ([], c') := by
          have hdouble : c'.skipBlanks = c' := hskip ▸ skipBlanks_skipBlanks c
          simp [readElements, seekElement, hdouble, hrest, ok_bind]
        obtain ⟨c₁, hrun, hskip₁⟩ := ih hfields hagain hadmits
        refine ⟨c₁, ?_, hskip₁⟩
        simp only [Field.readers, readFieldElements, hseek, ok_bind, if_neg hrequired, hrun]
    | cons e es =>
      rw [Field.admitElements?] at hadmits
      obtain ⟨k, hk, hrest⟩ := Option.bind_eq_some_iff.1 hadmits
      obtain ⟨ks', hks, hcons⟩ := Option.bind_eq_some_iff.1 hrest
      obtain rfl : (name, k) :: ks' = ks := Option.some.inj hcons
      obtain ⟨ch, rounds, c₂, c₃, rfl, hseek, he, htail⟩ := readElements_cons hread
      rw [← hlater] at htail
      obtain ⟨c₁, hrun, hskip₁⟩ := ih hfields htail hks
      have hshape : shape.read depth c₂ = .ok (k, c₃) :=
        hstraight _ List.mem_cons_self depth _ _ _ _ he hk
      refine ⟨c₁, ?_, hskip₁⟩
      simp only [Field.readers, readFieldElements, hseek, ok_bind, hshape, hrun]

theorem straight_record (name : String) (layout : Layout) :
    (Shape.record name layout fields).Straight := by
  intro depth c c' j k hvalue hadmits
  cases taken_of_readValue hvalue with
  | @object depth rest ms _ hrest hobject =>
    rw [Shape.admit?] at hadmits
    split at hadmits
    · next hlayout =>
      obtain ⟨ks, hks, rfl⟩ := Option.map_eq_some_iff.1 hadmits
      obtain ⟨c₁, hmembers, hclose⟩ := settle_eq_ok_iff.1 hobject
      have hknown : layout.extensible = true ∨ ∀ m ∈ ms, ∃ f ∈ fields, f.name = m.1 := by
        simpa using hlayout
      have hsuits := (Field.admitMembers?_eq_some hks).1
      obtain ⟨known, hrun, hlookup⟩ := @readFieldMembers_of_readMembers fields hnodup hstraight
        layout depth _ true [] _ _ ms hmembers hknown fun f hf => ⟨(hsuits f hf).1, nofun⟩
      have harrange := @arrange_readers fields depth known ms ks c₁ hlookup hks
      rw [hrest] at hrun
      simp [Shape.read, opens, hrest, readRecord, hrun, harrange, settle, hclose, ok_bind]
    · cases hadmits
  | @array depth rest es _ hrest harray =>
    rw [Shape.admit?] at hadmits
    split at hadmits
    · next hpositional =>
      obtain ⟨ks, hks, rfl⟩ := Option.map_eq_some_iff.1 hadmits
      obtain ⟨c₁, helements, hclose⟩ := settle_eq_ok_iff.1 harray
      obtain ⟨c₂, hrun, hskip⟩ := @readFieldElements_of_readElements fields hstraight name
        (Field.readers fields depth).length 0 depth _ _ _ es ks helements hks
      have hclosing : closeArray c₂ = (.ok (), c') := by
        rw [← closeArray_skipBlanks, hskip]
        exact hclose
      simp [Shape.read, opens, hpositional, hrest, readRecord, hrun, settle, hclosing, ok_bind]
    · cases hadmits
  | null | yes | no | number | text => cases hadmits

end

mutual

theorem straight_of_plain : ∀ shape : Shape, shape.Plain → shape.Straight
  | .byte, _ => straight_byte
  | .text expected, _ => straight_text expected
  | .choice names, _ => straight_choice names
  | .optional value, h => straight_optional (straight_of_plain value h)
  | .list element, h => straight_list (straight_of_plain element h)
  | .table value, h => straight_table (straight_of_plain value h)
  | .byteTable _, h => False.elim h
  | .record name layout fields, h =>
    straight_record h.1 (straight_of_allPlain fields h.2) name layout
  | .either name alternatives, _ => straight_either name alternatives

theorem straight_of_allPlain : ∀ fields : List Field, Field.AllPlain fields →
    ∀ f ∈ fields, f.shape.Straight
  | [], _ => nofun
  | .mk name required shape :: fields, h => by
    intro f hf
    rcases List.mem_cons.1 hf with rfl | hf
    · exact straight_of_plain shape h.1
    · exact straight_of_allPlain fields h.2 f hf

end

theorem parse_spell {shape : Shape} (hplain : shape.Plain) {j k : Json} (hfits : Fits maxDepth j)
    (hadmits : shape.admit? j = some k) {gap : Nat → List Char} {space blanks : List Char}
    (hgap : ∀ level, ∀ ch ∈ gap level, Cursor.isBlank ch) (hspace : ∀ ch ∈ space, Cursor.isBlank ch)
    (hblanks : ∀ ch ∈ blanks, Cursor.isBlank ch) :
    shape.parse (String.ofList (spell gap space 0 j ++ blanks)) = .ok k := by
  have hends : Ends blanks := by
    have h := ends_gap hblanks ends_nil
    rwa [List.append_nil] at h
  obtain ⟨q, hvalue⟩ := readValue_spell hgap hspace hfits 0 ⟨1, 0⟩ blanks hends
  obtain ⟨r, hskip⟩ := @skipBlanks_append blanks [] hblanks nofun q
  rw [List.append_nil] at hskip
  have hread := straight_of_plain shape hplain maxDepth _ _ _ _ hvalue hadmits
  simp [Shape.parse, Cursor.start, hread, hskip]

theorem parse_written {shape : Shape} (hplain : shape.Plain) {j k : Json} (hfits : Fits maxDepth j)
    (hadmits : shape.admit? j = some k) :
    shape.parse j.compact = .ok k ∧ shape.parse j.pretty = .ok k ∧
      shape.parse (j.pretty ++ "\n") = .ok k := by
  have hcompact := @parse_spell shape hplain j k hfits hadmits (fun _ => []) [] []
    (fun _ => nofun) nofun nofun
  have hpretty := fun blanks hblanks => @parse_spell shape hplain j k hfits hadmits breakLine [' ']
    blanks isBlank_of_mem_breakLine (by simp [Cursor.isBlank]) hblanks
  have hfeed := hpretty ['\n'] (by simp [Cursor.isBlank])
  have hnone := hpretty [] nofun
  rw [spell_compact, List.append_nil] at hcompact
  rw [spell_pretty, List.append_nil] at hnone
  rw [spell_pretty, String.ofList_append] at hfeed
  exact ⟨hcompact, hnone, hfeed⟩

end UsbTopology.Json
