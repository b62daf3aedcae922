import UsbTopology.Proofs.Config
import UsbTopology.Proofs.Json.Printer

set_option autoImplicit false

/-!
# Printed configurations

What is printed for a configuration is well formed, so it is read back if its members give that
configuration. The names of the classes are read without their escapes, of which a decimal text has
none.
-/
namespace UsbTopology

open Json

namespace Config

theorem ofJson_toJson (c : Config) : ofJson c.toJson = c := by
  have hroot : (c.toJson.member? "sysfs-root").bind Json.text? = c.sysfsRoot := by
    rw [toJson, member?, Json.members, List.lookup_cons_self, Option.bind_some]
    cases c.sysfsRoot <;> rfl
  have hnames : ((c.toJson.member? "class-names").elim [] Json.members).map
      (fun m => ((byteOfName? m.1).getD 0, m.2.text?.getD "")) = c.classNames.entries := by
    simp [toJson, member?, Json.members, List.lookup_cons, byteOfName?_byteText, text?,
      Function.comp_def]
  rw [ofJson, hroot, hnames, Table.ofList_entries]

theorem textValue?_of_decoded {glyphs : List Glyph} {s : String} (h : decoded glyphs = s) :
    textValue? (.text glyphs) = some (.string s) := by
  rw [textValue?, Written.text?, h, Option.map_some]

theorem members?_of_stands {ms : List Member} {root names : Json}
    (h : List.Forall₂ (Member.Stands fun e w => fieldValue? e.1 w = some e.2) ms
      [("sysfs-root", root), ("class-names", names)]) :
    members? ms = some [("sysfs-root", root), ("class-names", names)] := by
  have hvalues : (ms.mapM fun m => (fieldValue? m.name m.value).map (Prod.mk m.name)) =
      some [("sysfs-root", root), ("class-names", names)] := by
    refine mapM_of_forall₂ h fun m e hm => ?_
    rw [hm.name, hm.value, Option.map_some]
  have hmembers : ms.map Member.name = fieldNames := by
    cases h with
    | cons hroot h =>
      cases h with
      | cons hnames h =>
        cases h
        rw [List.map_cons, List.map_singleton, hroot.name, hnames.name, fieldNames]
  have hknown := (@knownMembers?_eq_some_iff fieldValue? fieldNames [] ms _).2
    ⟨fun m hm => ⟨hmembers ▸ List.mem_map_of_mem hm, List.not_mem_nil⟩, hmembers ▸ by decide,
      hvalues⟩
  rw [members?, hknown]
  rfl

section

variable {gap : Nat → List Char} {space : List Char}
  (hgap : ∀ level, ∀ ch ∈ gap level, Cursor.isBlank ch) (hspace : ∀ ch ∈ space, Cursor.isBlank ch)

include hgap hspace

theorem exists_byteTable (level : Nat) (t : Table UInt8 String) : ∃ w : Written,
    w.chars = spell gap space level (.object (t.entries.map fun e => (byteText e.1, .string e.2))) ∧
      byteTableValue? w =
        some (.object (t.entries.map fun e => (byteText e.1, .string e.2))) := by
  have hentry : ∀ e ∈ t.entries.map (fun e => (byteText e.1, Json.string e.2)), ∃ w : Written,
      w.chars = spell gap space (level + 1) e.2 ∧
        (∃ b, e.1 = byteText b) ∧ textValue? w = some e.2 := by
    intro e he
    obtain ⟨x, -, rfl⟩ := List.mem_map.1 he
    obtain ⟨glyphs, hchars, hs⟩ := exists_text x.2
    exact ⟨.text glyphs, hchars, ⟨x.1, rfl⟩, textValue?_of_decoded hs⟩
  obtain ⟨ms, hchars, hms⟩ := exists_object hgap hspace hentry
  -- The name is taken as it stands between its quotes, so it matters that nothing is escaped in it.
  have hmembers : byteMembers? ms =
      some (t.entries.map fun e => (byteText e.1, Json.string e.2)) := by
    refine mapM_of_forall₂ hms fun m e hm => ?_
    obtain ⟨⟨b, hb⟩, hvalue⟩ := hm.value
    have hdigits : (byteText b).toList.flatMap escapeChar = (byteText b).toList :=
      flatMap_escapeChar_of_isDigit fun _ hch => isDigit_of_mem_byteText hch
    have hraw : rawChars m.glyphs = (byteText b).toList := by
      rw [← hdigits, ← hb]
      exact hm.rawName
    rw [byteName?_eq_some_iff.2 ⟨b, hraw, rfl⟩, hvalue, ← hb]
    rfl
  exact ⟨_, hchars, by rw [byteTableValue?, hmembers, Option.map_some]⟩

theorem parse_spell (c : Config) :
    parse (String.ofList (spell gap space 0 c.toJson)) = .ok c := by
  have hroot : ∃ w : Written, w.chars = spell gap space 1 (c.sysfsRoot.elim .null .string) ∧
      nullOrTextValue? w = some (c.sysfsRoot.elim .null .string) := by
    cases c.sysfsRoot with
    | none => exact ⟨.null, rfl, rfl⟩
    | some s =>
      obtain ⟨glyphs, hchars, hs⟩ := exists_text s
      exact ⟨.text glyphs, hchars, textValue?_of_decoded hs⟩
  have hfields : ∀ e ∈ c.toJson.members, ∃ w : Written,
      w.chars = spell gap space 1 e.2 ∧ fieldValue? e.1 w = some e.2 :=
    List.forall_mem_cons.2 ⟨hroot, List.forall_mem_singleton.2
      (exists_byteTable hgap hspace 1 c.classNames)⟩
  obtain ⟨ms, hchars, hms⟩ := exists_object hgap hspace hfields
  have hparse := @parse_of_members? ⟨.none, .object .none ms, .none⟩ .none ms rfl _
    (members?_of_stands hms)
  have htext : (Document.mk .none (.object .none ms) .none).text =
      String.ofList (spell gap space 0 c.toJson) := by
    rw [Document.text, hchars, Gap.none, List.append_nil]
    rfl
  rw [htext] at hparse
  rw [hparse]
  exact congrArg Except.ok c.ofJson_toJson

end

theorem parse_compact (c : Config) : parse c.toJson.compact = .ok c := by
  have hparse := @parse_spell (fun _ => []) [] (fun _ => nofun) nofun c
  rwa [spell_compact] at hparse

theorem parse_pretty (c : Config) : parse c.toJson.pretty = .ok c := by
  have hparse := @parse_spell breakLine [' '] isBlank_of_mem_breakLine
    (List.forall_mem_singleton.2 rfl) c
  rwa [spell_pretty] at hparse

theorem parse_of_unknown {doc : Document} {gap : Gap} {ms : List Member}
    (hroot : doc.root = .object gap ms) {m : Member} (hm : m ∈ ms) (hname : m.name ∉ fieldNames) :
    ∃ fault, parse doc.text = .error fault := by
  refine parse_of_refused hroot ?_
  rw [← Option.not_isSome_iff_eq_none, isSome_members?_iff]
  intro hadmits
  exact hname (by simpa [fieldNames] using hadmits.known m hm)

/-- A configuration is read back from its text in either layout, and from a file with that text. The
text has a member for each field, and no object with any other member is a configuration. -/
theorem parse_both_layouts (c : Config) :
    (∀ text ∈ [c.toJson.compact, c.toJson.pretty], parse text = .ok c ∧
      ∀ (fs : FileSystem) (path : Path), fs.readText path = .ok text → ofFile fs path = .ok c) ∧
    c.toJson.members.map Prod.fst = ["sysfs-root", "class-names"] ∧
    ∀ (doc : Document) (gap : Gap) (ms : List Member), doc.root = .object gap ms →
      (∃ m ∈ ms, m.name ∉ ["sysfs-root", "class-names"]) →
        ∃ fault, parse doc.text = .error fault := by
  refine ⟨fun text htext => ?_, rfl, ?_⟩
  · have hparse : parse text = .ok c := by
      simp only [List.mem_cons, List.not_mem_nil, or_false] at htext
      rcases htext with rfl | rfl
      · exact parse_compact c
      · exact parse_pretty c
    refine ⟨hparse, fun fs path hfile => ?_⟩
    rw [ofFile, FileSystem.readAs_of_ok hfile, hparse]
    rfl
  · rintro doc gap ms hroot ⟨m, hm, hname⟩
    exact parse_of_unknown hroot hm hname

end Config

end UsbTopology
