import UsbTopology.Config
import UsbTopology.Proofs.Json.Closed
import UsbTopology.Proofs.Table

set_option autoImplicit false

/-!
# What a configuration file means

A configuration is an object of at most two members of fixed names. Every other object is refused,
whatever it holds, and what an object gives can be read off its members as they are written.
-/
namespace UsbTopology

open Json

namespace Config

/-- At most one text or null for the directory, at most one object with texts for decimal bytes, and
nothing else. -/
structure Admits (ms : List Member) : Prop where
  known : ∀ m ∈ ms, m.name = "sysfs-root" ∨ m.name = "class-names"
  once : (ms.map Member.name).Nodup
  root : ∀ m ∈ ms, m.name = "sysfs-root" → m.value = .null ∨ ∃ glyphs, m.value = .text glyphs
  classNames : ∀ m ∈ ms, m.name = "class-names" → ∃ gap entries, m.value = .object gap entries ∧
    ∀ e ∈ entries, (∃ b : UInt8, e.rawName = (byteText b).toList) ∧ ∃ glyphs, e.value = .text glyphs

def givenRoot? (ms : List Member) : Option String :=
  (ms.find? fun m => m.name = "sysfs-root").bind fun m => m.value.text?

def classMembers (ms : List Member) : List Member :=
  (ms.find? fun m => m.name = "class-names").elim [] fun m => m.value.members

/-- The name that the members give to a class: the last one. -/
def givenName? (ms : List Member) (id : UInt8) : Option String :=
  ((classMembers ms).filter fun e => e.rawName = (byteText id).toList).getLast?.bind fun e =>
    e.value.text?

def fieldValue? (name : String) (w : Written) : Option Json :=
  if name = "sysfs-root" then nullOrTextValue? w else byteTableValue? w

def fieldNames : List String := ["sysfs-root", "class-names"]

def members? (ms : List Member) : Option (List (String × Json)) :=
  (knownMembers? fieldValue? fieldNames [] ms).map fun known =>
    fieldNames.filterMap fun name => (known.lookup name).map (Prod.mk name)

def fields : List Field :=
  [.mk "sysfs-root" false (.optional (.text "path string")),
    .mk "class-names" false (.byteTable (.text "a string"))]

theorem readFields_chars {ms : List Member} {rounds : List Char}
    (hrounds : ms.length < rounds.length) (gap : Gap) (p : Position) (rest : List Char) :
    Yields (readFieldMembers ⟨true, false⟩ (Field.readers fields 126) rounds true []
      ⟨p, gap.chars ++ (Written.memberChars true ms ++ rest)⟩)
      (knownMembers? fieldValue? fieldNames [] ms) ('\x7d' :: rest) := by
  refine readFieldMembers_chars rfl ?_ ?_ hrounds gap true [] p rest
  · refine List.forall_mem_cons.2 ⟨?_, List.forall_mem_singleton.2 ?_⟩
    · exact (Shape.optional (.text "path string")).read_skipBlanks 126
    · exact (Shape.byteTable (.text "a string")).read_skipBlanks 126
  · refine List.forall_mem_cons.2 ⟨?_, List.forall_mem_singleton.2 ?_⟩
    · exact readNullOrText_chars "path string" 126
    · exact readByteTable_chars "a string" 125

theorem read_object (gap : Gap) (ms : List Member) :
    Decides (shape.read maxDepth) (Written.object gap ms).chars ((members? ms).map .object) := by
  intro p rest _
  have hlength := length_lt_memberChars true ms
  have hrounds : ms.length <
      ('\x7b' :: (gap.chars ++ (Written.memberChars true ms ++ rest))).length := by
    simp only [List.length_cons, List.length_append]
    omega
  have hskip :=
    @skipBlanks_cons '\x7b' rfl p (gap.chars ++ (Written.memberChars true ms ++ rest))
  have hopens : opens '\x7b' ⟨p, '\x7b' :: (gap.chars ++ (Written.memberChars true ms ++ rest))⟩ =
      true := rfl
  have hmembers := (readFields_chars hrounds gap (p.after '\x7b') rest).map fun known =>
    fieldNames.filterMap fun name => (known.lookup name).map (Prod.mk name)
  rw [Written.chars, List.cons_append, List.append_assoc, shape, Shape.read.eq_def]
  simp only [hskip, hopens, Bool.true_or, if_true, readRecord]
  exact hmembers.settle_object.map Json.object

theorem isSome_textValue?_iff {w : Written} :
    (textValue? w).isSome ↔ ∃ glyphs, w = .text glyphs := by
  cases w <;> simp [textValue?, Written.text?]

theorem isSome_nullOrTextValue?_iff {w : Written} :
    (nullOrTextValue? w).isSome ↔ w = .null ∨ ∃ glyphs, w = .text glyphs := by
  cases w <;> simp [nullOrTextValue?, textValue?, Written.text?]

theorem isSome_byteName?_iff {glyphs : List Glyph} :
    (byteName? glyphs).isSome ↔ ∃ b : UInt8, rawChars glyphs = (byteText b).toList := by
  rw [Option.isSome_iff_exists]
  simp only [byteName?_eq_some_iff]
  constructor
  · rintro ⟨_, b, hb, -⟩
    exact ⟨b, hb⟩
  · rintro ⟨b, hb⟩
    exact ⟨_, b, hb, rfl⟩

theorem isSome_byteTableValue?_iff {w : Written} :
    (byteTableValue? w).isSome ↔ ∃ gap entries, w = .object gap entries ∧ ∀ e ∈ entries,
      (∃ b : UInt8, e.rawName = (byteText b).toList) ∧ ∃ glyphs, e.value = .text glyphs := by
  cases w with
  | object gap entries =>
    have hentry : ∀ e : Member, (do
        let name ← byteName? e.glyphs
        return (name, ← textValue? e.value) : Option (String × Json)).isSome ↔
          (∃ b : UInt8, e.rawName = (byteText b).toList) ∧ ∃ glyphs, e.value = .text glyphs := by
      intro e
      rw [Member.rawName, ← isSome_byteName?_iff, ← isSome_textValue?_iff]
      cases byteName? e.glyphs <;> cases textValue? e.value <;> simp
    rw [byteTableValue?, Option.isSome_map, byteMembers?, isSome_mapM_iff]
    simp only [hentry, Written.object.injEq]
    constructor
    · exact fun h => ⟨gap, entries, ⟨rfl, rfl⟩, h⟩
    · rintro ⟨_, _, ⟨rfl, rfl⟩, h⟩
      exact h
  | null | bool | number | text | array => simp [byteTableValue?]

theorem isSome_members?_iff {ms : List Member} : (members? ms).isSome ↔ Admits ms := by
  rw [members?, Option.isSome_map, Option.isSome_iff_exists]
  simp only [knownMembers?_eq_some_iff, exists_and_left, ← Option.isSome_iff_exists,
    isSome_mapM_iff, Option.isSome_map]
  constructor
  · rintro ⟨hknown, honce, hvalues⟩
    refine ⟨fun m hm => ?_, honce, fun m hm hname => ?_, fun m hm hname => ?_⟩
    · simpa [fieldNames] using (hknown m hm).1
    · have hvalue := hvalues m hm
      rw [hname, fieldValue?, if_pos rfl] at hvalue
      exact isSome_nullOrTextValue?_iff.1 hvalue
    · have hvalue := hvalues m hm
      rw [hname, fieldValue?, if_neg (by decide)] at hvalue
      exact isSome_byteTableValue?_iff.1 hvalue
  · rintro ⟨hknown, honce, hroot, hnames⟩
    refine ⟨fun m hm => ⟨?_, List.not_mem_nil⟩, honce, fun m hm => ?_⟩
    · simpa [fieldNames] using hknown m hm
    · rcases hknown m hm with hname | hname
      · rw [hname, fieldValue?, if_pos rfl]
        exact isSome_nullOrTextValue?_iff.2 (hroot m hm hname)
      · rw [hname, fieldValue?, if_neg (by decide)]
        exact isSome_byteTableValue?_iff.2 (hnames m hm hname)

theorem nullOrTextValue?_bind_text? (w : Written) :
    (nullOrTextValue? w).bind Json.text? = w.text? := by
  cases w <;> rfl

theorem member?_of_members? {ms : List Member} {known : List (String × Json)}
    (h : members? ms = some known) {name : String} (hname : name ∈ fieldNames) :
    (Json.object known).member? name =
      (ms.find? fun m => m.name = name).bind fun m => fieldValue? name m.value := by
  obtain ⟨all, hall, rfl⟩ := Option.map_eq_some_iff.1 h
  rw [← lookup_of_mapM (knownMembers?_eq_some_iff.1 hall).2.2, member?, members]
  rcases List.mem_cons.1 hname with rfl | hname
  · cases hroot : all.lookup "sysfs-root" <;> cases hnames : all.lookup "class-names" <;>
      simp [fieldNames, hroot, hnames, List.lookup_cons]
  · obtain rfl := List.mem_singleton.1 hname
    cases hroot : all.lookup "sysfs-root" <;> cases hnames : all.lookup "class-names" <;>
      simp [fieldNames, hroot, hnames, List.lookup_cons]

theorem sysfsRoot_ofJson {ms : List Member} {known : List (String × Json)}
    (h : members? ms = some known) : (ofJson (.object known)).sysfsRoot = givenRoot? ms := by
  have hroot := @member?_of_members? ms known h "sysfs-root" (by decide)
  rw [ofJson, hroot, givenRoot?, Option.bind_assoc]
  refine Option.bind_congr fun m _ => ?_
  rw [fieldValue?, if_pos rfl, nullOrTextValue?_bind_text?]

def entry (e : Member) : UInt8 × String :=
  ((byteOfName? (String.ofList e.rawName)).getD 0, e.value.text?.getD "")

theorem entry_of_rawName {e : Member} {b : UInt8} (h : e.rawName = (byteText b).toList) :
    (entry e).1 = b := by
  rw [entry, h, String.ofList_toList, byteOfName?_byteText]
  rfl

theorem map_entry_of_byteMembers? {entries : List Member} {js : List (String × Json)}
    (h : byteMembers? entries = some js) :
    js.map (fun m => ((byteOfName? m.1).getD 0, m.2.text?.getD "")) = entries.map entry := by
  rw [byteMembers?] at h
  induction entries generalizing js with
  | nil =>
    obtain rfl : [] = js := by simpa using h
    rfl
  | cons e entries ih =>
    obtain ⟨m, js, hm, hrest, rfl⟩ := mapM_cons_eq_some_iff.1 h
    obtain ⟨s, hs, hm⟩ := Option.bind_eq_some_iff.1 hm
    obtain ⟨j, hj, hm⟩ := Option.bind_eq_some_iff.1 hm
    obtain rfl : (s, j) = m := Option.some.inj hm
    obtain ⟨b, hraw, rfl⟩ := byteName?_eq_some_iff.1 hs
    obtain ⟨t, ht, rfl⟩ := Option.map_eq_some_iff.1 hj
    have hentry : entry e = (b, t) := Prod.ext (entry_of_rawName hraw) (by rw [entry, ht]; rfl)
    rw [List.map_cons, List.map_cons, ih hrest, hentry, byteOfName?_byteText]
    rfl

/-- Of the entries of one byte the last one counts. -/
theorem get?_ofList_entries {entries : List Member} (h : ∀ e ∈ entries,
      (∃ b : UInt8, e.rawName = (byteText b).toList) ∧ ∃ glyphs, e.value = .text glyphs)
    (id : UInt8) :
    (Table.ofList (entries.map entry)).get? id =
      (entries.filter fun e => e.rawName = (byteText id).toList).getLast?.bind fun e =>
        e.value.text? := by
  have hid : ∀ e ∈ entries, ((entry e).1 = id ↔ e.rawName = (byteText id).toList) := by
    intro e he
    obtain ⟨⟨b, hb⟩, -⟩ := h e he
    rw [entry_of_rawName hb, hb]
    exact ⟨fun h => by rw [h], byteText_toList_injective⟩
  have hfilter : (entries.filter fun e => (entry e).1 = id) =
      entries.filter fun e => e.rawName = (byteText id).toList :=
    List.filter_congr fun e he => decide_eq_decide.2 (hid e he)
  rw [Table.get?_ofList, List.filter_map, List.getLast?_map, Option.map_map]
  simp only [Function.comp_def, hfilter]
  cases hlast : (entries.filter fun e => e.rawName = (byteText id).toList).getLast? with
  | none => rfl
  | some e =>
    obtain ⟨-, glyphs, hglyphs⟩ := h e (List.mem_filter.1 (List.mem_of_getLast? hlast)).1
    simp [entry, hglyphs, Written.text?]

theorem get?_classNames_ofJson {ms : List Member} {known : List (String × Json)}
    (h : members? ms = some known) (id : UInt8) :
    (ofJson (.object known)).classNames.get? id = givenName? ms id := by
  have hadmits : Admits ms := isSome_members?_iff.1 (by rw [h]; rfl)
  have hmember := @member?_of_members? ms known h "class-names" (by decide)
  rw [ofJson, givenName?, classMembers]
  cases hfind : ms.find? fun m => m.name = "class-names" with
  | none =>
    rw [hfind] at hmember
    simp only [hmember]
    rfl
  | some m =>
    obtain ⟨gap, entries, hvalue, hentries⟩ :=
      hadmits.classNames m (List.mem_of_find?_eq_some hfind) (by simpa using List.find?_some hfind)
    have hsome := isSome_byteTableValue?_iff.2 ⟨gap, entries, rfl, hentries⟩
    obtain ⟨j, hj⟩ := Option.isSome_iff_exists.1 hsome
    obtain ⟨js, hjs, rfl⟩ := Option.map_eq_some_iff.1 hj
    have hobject : (Json.object known).member? "class-names" = some (.object js) := by
      rw [hmember, hfind, Option.bind_some, hvalue]
      exact hj
    simp only [hobject, Option.elim_some, members, hvalue, Written.members]
    rw [map_entry_of_byteMembers? hjs, get?_ofList_entries hentries]

section

variable {doc : Document} {gap : Gap} {ms : List Member} (hroot : doc.root = .object gap ms)

include hroot

theorem shape_parse_eq_ok_iff {k : Json} :
    shape.parse doc.text = .ok k ↔ (members? ms).map .object = some k :=
  parse_of_decides (hroot ▸ read_object gap ms)

theorem parse_of_members? {known : List (String × Json)} (h : members? ms = some known) :
    parse doc.text = .ok (ofJson (.object known)) := by
  have hparse := (shape_parse_eq_ok_iff hroot).2 (congrArg (Option.map Json.object) h)
  rw [parse, hparse]
  rfl

theorem parse_of_refused (h : members? ms = none) : ∃ fault, parse doc.text = .error fault := by
  cases hparse : shape.parse doc.text with
  | error fault => exact ⟨fault, by rw [parse, hparse]; rfl⟩
  | ok k =>
    have hsome := (shape_parse_eq_ok_iff hroot).1 hparse
    rw [h] at hsome
    cases hsome

/-- An object is a configuration if it is admitted: it gives the directory, and each class the last
name that it has for it. Every other object is refused. -/
theorem parse_object_admitted :
    (Admits ms → ∃ c, parse doc.text = .ok c ∧
      (∀ registered id, c.names registered id = (givenName? ms id).or (registered id)) ∧
      c.root = (givenRoot? ms).getD Sysfs.defaultRoot ∧
      ∀ (fs : FileSystem) (path : Path), fs.readText path = .ok doc.text →
        ofFile fs path = .ok c) ∧
    (¬ Admits ms → (∃ fault, parse doc.text = .error fault) ∧
      ∀ (fs : FileSystem) (path : Path), fs.readText path = .ok doc.text →
        ∃ message, ofFile fs path = .error ⟨.config, message⟩) := by
  constructor
  · intro hadmits
    obtain ⟨known, hknown⟩ := Option.isSome_iff_exists.1 (isSome_members?_iff.2 hadmits)
    have hparse := parse_of_members? hroot hknown
    refine ⟨_, hparse, fun registered id => ?_, ?_, fun fs path hfile => ?_⟩
    · rw [names, ClassNames.withOverrides, get?_classNames_ofJson hknown]
    · rw [root, sysfsRoot_ofJson hknown]
    · rw [ofFile, FileSystem.readAs_of_ok hfile, hparse]
      rfl
  · intro hrefused
    have hnone : members? ms = none := by
      rw [← Option.not_isSome_iff_eq_none, isSome_members?_iff]
      exact hrefused
    obtain ⟨fault, hparse⟩ := parse_of_refused hroot hnone
    refine ⟨⟨fault, hparse⟩, fun fs path hfile => ?_⟩
    rw [ofFile, FileSystem.readAs_of_ok hfile, hparse]
    exact ⟨_, rfl⟩

end

/-- A class with two names, and no directory. -/
def renamedDocument : Document where
  before := .none
  root := .object .none
    [.mk .none (glyphsOf "class-names") .none .space
      (.object .none
        [.mk .none (glyphsOf "3") .none .space (.text (glyphsOf "Input")) .none,
         .mk .space (glyphsOf "3") .none .space (.text (glyphsOf "Keys")) .none]) .none,
     .mk .space (glyphsOf "sysfs-root") .none .space .null .none]
  after := .space

theorem parse_renamedDocument :
    ∃ c, parse renamedDocument.text = .ok c ∧ c.names .registered 3 = some "Keys" ∧
      c.root = Sysfs.defaultRoot := by
  have hthree : ['3'] = (byteText 3).toList := by decide
  have hparse := @parse_object_admitted renamedDocument _ _ rfl
  obtain ⟨c, hc, hnames, hroot, -⟩ := hparse.1 (by
    refine ⟨by decide, by decide, ?_, ?_⟩
    · exact List.forall_mem_cons.2 ⟨fun h => absurd h (by decide),
        List.forall_mem_singleton.2 fun _ => .inl rfl⟩
    · refine List.forall_mem_cons.2 ⟨fun _ => ⟨_, _, rfl, ?_⟩,
        List.forall_mem_singleton.2 fun h => absurd h (by decide)⟩
      exact List.forall_mem_cons.2 ⟨⟨⟨3, hthree⟩, _, rfl⟩,
        List.forall_mem_singleton.2 ⟨⟨3, hthree⟩, _, rfl⟩⟩)
  exact ⟨c, hc, hnames .registered 3, hroot⟩

end Config

end UsbTopology
