import UsbTopology.Dump.Format
import UsbTopology.Proofs.Json.Shape
import UsbTopology.Proofs.Table

set_option autoImplicit false

/-!
# Dumps written and read

What is written for a record has the form the record is read from, in every nesting, and stands for
the record. Parsing the text of a dump therefore gives the dump, in either layout.
-/
namespace UsbTopology

open Json (Shape Field Fits)

namespace Json

theorem mapM_map_of_fixed {α β : Type} {f : β → Option β} {g : α → β} {as : List α}
    (h : ∀ a ∈ as, f (g a) = some (g a)) : (as.map g).mapM f = some (as.map g) := by
  induction as with
  | nil => rfl
  | cons a as ih =>
    have has := ih fun b hb => h b (List.mem_cons_of_mem a hb)
    rw [List.map_cons, List.mapM_cons, h a List.mem_cons_self, has]
    rfl

theorem admit?_ofByte (b : UInt8) : Shape.byte.admit? (ofByte b) = some (ofByte b) := by
  rw [Shape.admit?, byte?_ofByte]
  rfl

theorem admit?_list {α : Type} {shape : Shape} {g : α → Json}
    (h : ∀ a, shape.admit? (g a) = some (g a)) (as : List α) :
    (Shape.list shape).admit? (.array (as.map g)) = some (.array (as.map g)) := by
  rw [Shape.admit?, mapM_map_of_fixed fun a _ => h a]
  rfl

theorem admit?_table {ν : Type} {shape : Shape} {g : ν → Json}
    (h : ∀ v, shape.admit? (g v) = some (g v)) (entries : List (String × ν)) :
    (Shape.table shape).admit? (.object (entries.map fun e => (e.1, g e.2))) =
      some (.object (entries.map fun e => (e.1, g e.2))) := by
  rw [Shape.admit?, mapM_map_of_fixed fun e _ => by rw [h]; rfl]
  rfl

theorem admit?_record {name : String} {layout : Layout} {fields : List Field}
    {ms ks : List (String × Json)} (hlayout : layout.extensible = true ∨
      (ms.all fun m => fields.any fun f => f.name = m.1) = true)
    (h : Field.admitMembers? fields ms = some ks) :
    (Shape.record name layout fields).admit? (.object ms) = some (.object ks) := by
  rw [Shape.admit?, if_pos (Bool.or_eq_true_iff.2 hlayout), h]
  rfl

namespace Field

variable {name : String} {required : Bool} {shape : Shape} {fields : List Field}
  {ms ks : List (String × Json)}

theorem admitMembers?_cons {j k : Json} (hone : occurrences name ms = [j])
    (hj : shape.admit? j = some k) (hrest : admitMembers? fields ms = some ks) :
    admitMembers? (.mk name required shape :: fields) ms = some ((name, k) :: ks) := by
  simp [admitMembers?, hone, hj, hrest]

theorem admitMembers?_absent (hnone : occurrences name ms = [])
    (hrest : admitMembers? fields ms = some ks) :
    admitMembers? (.mk name false shape :: fields) ms = some ks := by
  simp [admitMembers?, hnone, hrest]

end Field

theorem fits_ofByte (depth : Nat) (b : UInt8) : Fits depth (ofByte b) := by
  have hb : b.toNat ≤ Numeral.maxSignificand :=
    Nat.le_of_lt (Nat.lt_trans b.toNat_lt (by decide))
  rw [ofByte, Fits]
  exact ⟨b.toNat, hb, rfl⟩

theorem fits_table {ν : Type} {depth : Nat} {g : ν → Json} (h : ∀ v, Fits depth (g v))
    (entries : List (String × ν)) :
    Fits (depth + 1) (.object (entries.map fun e => (e.1, g e.2))) := by
  rw [Fits]
  intro m hm
  obtain ⟨e, -, rfl⟩ := List.mem_map.1 hm
  exact h e.2

end Json

namespace Speed

theorem admit?_toJson (v : Speed) : shape.admit? v.toJson = some v.toJson := by
  cases v <;> rfl

theorem ofJson_toJson (v : Speed) : ofJson v.toJson = v := by
  rw [ofJson, toJson, Json.text?, Option.bind_some, ofName?_name]
  rfl

end Speed

namespace Interface

theorem plain_shape : shape.Plain := by simp [shape, Shape.Plain, Field.AllPlain, Field.name]

theorem fits_toJson (depth : Nat) (i : Interface) : Fits (depth + 1) i.toJson := by
  simp [toJson, Fits, Json.fits_ofByte]

theorem admit?_toJson (i : Interface) : shape.admit? i.toJson = some i.toJson := by
  refine Json.admit?_record (.inl rfl) ?_
  refine Field.admitMembers?_cons rfl (Json.admit?_ofByte i.baseClass) ?_
  refine Field.admitMembers?_cons rfl (Json.admit?_ofByte i.subClass) ?_
  exact Field.admitMembers?_cons rfl (Json.admit?_ofByte i.protocol) rfl

theorem ofJson_toJson (i : Interface) : ofJson i.toJson = i := by
  simp [ofJson, toJson, Json.byteAt, Json.member?, Json.members, Json.byte?_ofByte,
    List.lookup_cons]

end Interface

namespace Configuration

theorem plain_shape : shape.Plain := by
  simp [shape, Shape.Plain, Field.AllPlain, Field.name, Interface.plain_shape]

theorem fits_toJson (depth : Nat) (c : Configuration) : Fits (depth + 3) c.toJson := by
  simp [toJson, Fits, Json.fits_ofByte, Interface.fits_toJson]

theorem admit?_toJson (c : Configuration) : shape.admit? c.toJson = some c.toJson := by
  refine Json.admit?_record (.inl rfl) ?_
  refine Field.admitMembers?_cons rfl (Json.admit?_ofByte c.number) ?_
  exact Field.admitMembers?_cons rfl (Json.admit?_list Interface.admit?_toJson c.interfaces) rfl

theorem ofJson_toJson (c : Configuration) : ofJson c.toJson = c := by
  have hinterfaces : Interface.ofJson ∘ Interface.toJson = id := funext Interface.ofJson_toJson
  simp [ofJson, toJson, Json.byteAt, Json.elementsAt, Json.member?, Json.members, Json.elements,
    Json.byte?_ofByte, List.lookup_cons, hinterfaces]

end Configuration

namespace Device

theorem plain_shape : shape.Plain := by
  simp [shape, Speed.shape, Shape.Plain, Field.AllPlain, Field.name, Configuration.plain_shape]

theorem fits_toJson (depth : Nat) (d : Device) : Fits (depth + 5) d.toJson := by
  simp [toJson, Speed.toJson, Fits, Json.fits_ofByte, Configuration.fits_toJson]

theorem admit?_toJson (d : Device) : shape.admit? d.toJson = some d.toJson := by
  refine Json.admit?_record (.inl rfl) ?_
  refine Field.admitMembers?_cons rfl (Json.admit?_ofByte d.bus) ?_
  refine Field.admitMembers?_cons rfl (Json.admit?_list Json.admit?_ofByte d.ports) ?_
  refine Field.admitMembers?_cons rfl (Json.admit?_ofByte d.address) ?_
  refine Field.admitMembers?_cons rfl d.speed.admit?_toJson ?_
  exact Field.admitMembers?_cons rfl
    (Json.admit?_list Configuration.admit?_toJson d.configurations) rfl

theorem ofJson_toJson (d : Device) : ofJson d.toJson = d := by
  have hports : (fun p => p.byte?.getD 0) ∘ Json.ofByte = id :=
    funext fun b => by simp [Json.byte?_ofByte]
  have hconfigurations : Configuration.ofJson ∘ Configuration.toJson = id :=
    funext Configuration.ofJson_toJson
  simp [ofJson, toJson, Json.byteAt, Json.elementsAt, Json.member?, Json.members, Json.elements,
    Json.byte?_ofByte, List.lookup_cons, hports, hconfigurations, Speed.ofJson_toJson]

end Device

namespace Record

theorem plain_shape : shape.Plain := trivial

theorem fits_toJson (depth : Nat) (r : Record) : Fits (depth + 5) r.toJson := by
  cases r with
  | failed bus address error =>
    cases bus <;> cases address <;> simp [toJson, optionalMember, Fits, Json.fits_ofByte]
  | device d => exact d.fits_toJson depth

theorem admit?_optional_ofByte (b : UInt8) :
    (Shape.optional .byte).admit? (.ofByte b) = some (.ofByte b) :=
  Json.admit?_ofByte b

theorem admit?_failed (bus address : Option UInt8) (error : String) :
    failedShape.admit? (toJson (.failed bus address error)) =
      some (toJson (.failed bus address error)) := by
  have herror : (Shape.text "a string").admit? (.string error) = some (.string error) := rfl
  refine Json.admit?_record (.inl rfl) ?_
  cases bus with
  | none =>
    refine Field.admitMembers?_absent (by cases address <;> rfl) ?_
    cases address with
    | none => exact Field.admitMembers?_absent rfl (Field.admitMembers?_cons rfl herror rfl)
    | some a =>
      exact Field.admitMembers?_cons rfl (admit?_optional_ofByte a)
        (Field.admitMembers?_cons rfl herror rfl)
  | some b =>
    have hbus : Json.occurrences "bus" (optionalMember "bus" (some b) ++
        optionalMember "address" address ++ [("error", .string error)]) = [.ofByte b] := by
      cases address <;> rfl
    cases address with
    | none =>
      exact Field.admitMembers?_cons hbus (admit?_optional_ofByte b)
        (Field.admitMembers?_absent rfl (Field.admitMembers?_cons rfl herror rfl))
    | some a =>
      exact Field.admitMembers?_cons hbus (admit?_optional_ofByte b)
        (Field.admitMembers?_cons rfl (admit?_optional_ofByte a)
          (Field.admitMembers?_cons rfl herror rfl))

theorem admit?_failed_device (d : Device) : failedShape.admit? d.toJson = none := by
  simp [failedShape, Device.toJson, Shape.admit?, Field.admitMembers?, Json.occurrences]

theorem admit?_toJson (r : Record) : shape.admit? r.toJson = some r.toJson := by
  rw [shape, Shape.admit?, Shape.admitFirst?]
  cases r with
  | failed bus address error => rw [admit?_failed, Option.some_or]
  | device d =>
    -- The alternative that is tried first needs an error, which no device has.
    have hdevice := d.admit?_toJson
    rw [toJson, admit?_failed_device, Option.none_or, Shape.admitFirst?, hdevice, Option.some_or]

theorem ofJson_toJson (r : Record) : ofJson r.toJson = r := by
  cases r with
  | failed bus address error =>
    cases bus <;> cases address <;>
      simp [ofJson, toJson, optionalMember, Json.byteAt?, Json.textAt, Json.member?, Json.members,
        Json.byte?_ofByte, Json.text?, List.lookup_cons]
  | device d =>
    have herror : d.toJson.member? "error" = none := by
      simp [Device.toJson, Json.member?, Json.members, List.lookup_cons]
    rw [toJson, ofJson, herror]
    exact congrArg device d.ofJson_toJson

end Record

namespace Dump

theorem plain_shape : shape.Plain := by
  simp [shape, Shape.Plain, Field.AllPlain, Field.name, Record.plain_shape]

theorem fits_toJson (depth : Nat) (d : Dump) : Fits (depth + 7) d.toJson := by
  have hdrivers := @Json.fits_table String (depth + 5) .string (fun s => by rw [Fits]; trivial)
    d.drivers.entries
  have hcounts := Json.fits_table (Json.fits_ofByte (depth + 5)) d.portCounts.entries
  have hdevices : Fits (depth + 6) (.array (d.devices.map Record.toJson)) := by
    rw [Fits]
    intro j hj
    obtain ⟨r, -, rfl⟩ := List.mem_map.1 hj
    exact r.fits_toJson depth
  rw [toJson, Fits]
  intro m hm
  simp only [List.mem_cons, List.not_mem_nil, or_false] at hm
  rcases hm with rfl | rfl | rfl
  · exact hdevices
  · exact hdrivers
  · exact hcounts

theorem admit?_toJson (d : Dump) : shape.admit? d.toJson = some d.toJson := by
  refine Json.admit?_record (.inl rfl) ?_
  refine Field.admitMembers?_cons rfl (Json.admit?_list Record.admit?_toJson d.devices) ?_
  refine Field.admitMembers?_cons rfl
    (@Json.admit?_table String (.text "a string") .string (fun _ => rfl) d.drivers.entries) ?_
  exact Field.admitMembers?_cons rfl
    (Json.admit?_table Json.admit?_ofByte d.portCounts.entries) rfl

theorem ofJson_toJson (d : Dump) : ofJson d.toJson = d := by
  have hdevices : Record.ofJson ∘ Record.toJson = id := funext Record.ofJson_toJson
  have hdrivers : (d.toJson.membersAt "drivers").map (fun m => (m.1, m.2.text?.getD "")) =
      d.drivers.entries := by
    simp [toJson, Json.membersAt, Json.member?, Json.members, List.lookup_cons, Json.text?,
      Function.comp_def]
  have hcounts : (d.toJson.membersAt "maxchild").map (fun m => (m.1, m.2.byte?.getD 0)) =
      d.portCounts.entries := by
    simp [toJson, Json.membersAt, Json.member?, Json.members, List.lookup_cons, Json.byte?_ofByte,
      Function.comp_def]
  rw [ofJson, hdrivers, hcounts, Table.ofList_entries, Table.ofList_entries]
  simp [toJson, Json.elementsAt, Json.member?, Json.members, Json.elements, hdevices]

theorem shape_parse_toJson (d : Dump) : shape.parse d.toJson.compact = .ok d.toJson ∧
    shape.parse d.toJson.pretty = .ok d.toJson ∧
    shape.parse (d.toJson.pretty ++ "\n") = .ok d.toJson :=
  have hfits : Fits Json.maxDepth d.toJson := d.fits_toJson 120
  Json.parse_written plain_shape hfits d.admit?_toJson

theorem parse_of_shape {d : Dump} {text : String} (h : shape.parse text = .ok d.toJson) :
    parse text = .ok d := by
  rw [parse, h, Except.map, ofJson_toJson]

theorem parse_pretty (d : Dump) : parse d.toJson.pretty = .ok d :=
  parse_of_shape d.shape_parse_toJson.2.1

/-- A dump is read back from its text, in either layout and as it is printed. -/
theorem parse_toJson (d : Dump) : parse d.toJson.compact = .ok d ∧ parse d.toJson.pretty = .ok d ∧
    parse (d.toJson.pretty ++ "\n") = .ok d := by
  obtain ⟨hcompact, -, hprinted⟩ := d.shape_parse_toJson
  exact ⟨parse_of_shape hcompact, d.parse_pretty, parse_of_shape hprinted⟩

end Dump

end UsbTopology
