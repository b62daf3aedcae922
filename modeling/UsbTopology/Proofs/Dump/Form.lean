import UsbTopology.Dump.Format
import UsbTopology.Proofs.Json.Form
import UsbTopology.Proofs.Dump.Format

set_option autoImplicit false

/-!
# The forms of a dump

For each record of a dump the JSON that it is read from, member by member, and that a text is parsed
as the record exactly if its value has the form.
-/
namespace UsbTopology

open Json

namespace Json

variable {j : Json} {name : String}

theorem byteAt_eq_elim : j.byteAt name = (j.member? name).elim 0 fun j => j.byte?.getD 0 := by
  rw [byteAt]
  cases j.member? name <;> rfl

theorem byteAt?_eq_elim : j.byteAt? name = (j.member? name).elim none byte? := by
  rw [byteAt?]
  cases j.member? name <;> rfl

theorem textAt_eq_elim : j.textAt name = (j.member? name).elim "" fun j => j.text?.getD "" := by
  rw [textAt]
  cases j.member? name <;> rfl

theorem map_elementsAt {α : Type} (reads : Json → α) :
    (j.elementsAt name).map reads =
      (j.member? name).elim [] fun j => j.elements.map reads := by
  rw [elementsAt]
  cases j.member? name <;> rfl

theorem ofList_membersAt {α : Type} (reads : Json → α) :
    Table.ofList ((j.membersAt name).map fun m => (m.1, reads m.2)) =
      (j.member? name).elim .empty fun j =>
        Table.ofList (j.members.map fun m => (m.1, reads m.2)) := by
  rw [membersAt]
  cases j.member? name <;> rfl

end Json

namespace Speed

/-- A name, or an object of that one name with the value null. -/
def Form (j : Json) (v : Speed) : Prop := j = .string v.name ∨ j = .object [(v.name, .null)]

theorem ofName?_eq_some_iff {s : String} {v : Speed} : ofName? s = some v ↔ s = v.name := by
  constructor
  · intro h
    have hname := List.find?_some h
    simpa using (of_decide_eq_true hname).symm
  · rintro rfl
    exact ofName?_name v

theorem readsAs_shape : shape.ReadsAs ofJson Form := by
  have hchosen : ∀ s v, ((if s ∈ all.map name then some (Json.string s) else none).map ofJson =
      some v) ↔ s = v.name := by
    intro s v
    rw [← ofName?_eq_some_iff]
    split
    · next hs =>
      obtain ⟨u, -, rfl⟩ := List.mem_map.1 hs
      simp [ofJson, text?, ofName?_name]
    · next hs =>
      have hnone : ofName? s = none :=
        List.find?_eq_none.2 fun u hu => by
          simpa using fun h : u.name = s => hs (List.mem_map.2 ⟨u, hu, h⟩)
      simp [hnone]
  intro j v
  rw [shape]
  cases j with
  | string s => rw [Shape.admit?, hchosen]; simp [Form]
  | object ms =>
    rcases ms with - | ⟨⟨s, k⟩, - | ⟨m, ms⟩⟩
    · simp [Shape.admit?, Form]
    · cases k with
      | null => rw [Shape.admit?, hchosen]; simp [Form]
      | bool | number | string | array | object => simp [Shape.admit?, Form]
    · simp [Shape.admit?, Form]
  | null | bool | number | array => simp [Shape.admit?, Form]

end Speed

namespace Interface

def GivenBy (ms : List (String × Json)) (i : Interface) : Prop :=
  One IsByte "class" ms i.baseClass ∧ OneOr IsByte 0 "sub_class" ms i.subClass ∧
    OneOr IsByte 0 "protocol" ms i.protocol

def Form (j : Json) (i : Interface) : Prop :=
  ∃ ms, recordMembers? ["class", "sub_class", "protocol"] j = some ms ∧ GivenBy ms i

def fields : List Field :=
  [.mk "class" true .byte, .mk "sub_class" false .byte, .mk "protocol" false .byte]

theorem readsAs_shape : shape.ReadsAs ofJson Form := by
  intro j i
  have hnodup : (fields.map Field.name).Nodup := by decide
  refine (@map_admit?_record_eq_some_iff _ ofJson fields hnodup _ j i).trans
    (exists_congr fun ms => and_congr_right fun _ => ?_)
  obtain ⟨baseClass, subClass, protocol⟩ := i
  rw [GivenBy, one_iff_plain hnodup readsAs_byte (by simp [fields]) 0,
    oneOr_iff_plain hnodup readsAs_byte (by simp [fields]),
    oneOr_iff_plain hnodup readsAs_byte (by simp [fields])]
  simp only [fields, List.forall_mem_cons, List.not_mem_nil, Field.required, ofJson,
    byteAt_eq_elim, Interface.mk.injEq]
  tauto

end Interface

namespace Configuration

def GivenBy (ms : List (String × Json)) (c : Configuration) : Prop :=
  OneOr IsByte 0 "number" ms c.number ∧
    OneOr (IsList Interface.Form) [] "interfaces" ms c.interfaces

def Form (j : Json) (c : Configuration) : Prop :=
  ∃ ms, recordMembers? ["number", "interfaces"] j = some ms ∧ GivenBy ms c

def fields : List Field :=
  [.mk "number" false .byte, .mk "interfaces" false (.list Interface.shape)]

theorem readsAs_shape : shape.ReadsAs ofJson Form := by
  intro j c
  have hnodup : (fields.map Field.name).Nodup := by decide
  refine (@map_admit?_record_eq_some_iff _ ofJson fields hnodup _ j c).trans
    (exists_congr fun ms => and_congr_right fun _ => ?_)
  obtain ⟨number, interfaces⟩ := c
  rw [GivenBy, oneOr_iff_plain hnodup readsAs_byte (by simp [fields]),
    oneOr_iff_plain hnodup (readsAs_list Interface.readsAs_shape) (by simp [fields])]
  simp only [fields, List.forall_mem_cons, List.not_mem_nil, Field.required, ofJson,
    byteAt_eq_elim, map_elementsAt, Configuration.mk.injEq]
  tauto

end Configuration

namespace Device

/-- The members say which device it is. -/
def GivenBy (ms : List (String × Json)) (d : Device) : Prop :=
  One IsByte "bus" ms d.bus ∧ OneOr (IsList IsByte) [] "ports" ms d.ports ∧
    One IsByte "address" ms d.address ∧ OneOr Speed.Form .unknown "speed" ms d.speed ∧
      OneOr (IsList Configuration.Form) [] "configurations" ms d.configurations

def Form (j : Json) (d : Device) : Prop :=
  ∃ ms, recordMembers? ["bus", "ports", "address", "speed", "configurations"] j = some ms ∧
    GivenBy ms d

def fields : List Field :=
  [.mk "bus" true .byte, .mk "ports" false (.list .byte), .mk "address" true .byte,
    .mk "speed" false Speed.shape, .mk "configurations" false (.list Configuration.shape)]

theorem readsAs_shape : shape.ReadsAs ofJson Form := by
  intro j d
  have hnodup : (fields.map Field.name).Nodup := by decide
  refine (@map_admit?_record_eq_some_iff _ ofJson fields hnodup _ j d).trans
    (exists_congr fun ms => and_congr_right fun _ => ?_)
  obtain ⟨bus, ports, address, speed, configurations⟩ := d
  rw [GivenBy, one_iff_plain hnodup readsAs_byte (by simp [fields]) 0,
    oneOr_iff_plain hnodup (readsAs_list readsAs_byte) (by simp [fields]),
    one_iff_plain hnodup readsAs_byte (by simp [fields]) 0,
    oneOr_iff_plain hnodup Speed.readsAs_shape (by simp [fields]),
    oneOr_iff_plain hnodup (readsAs_list Configuration.readsAs_shape) (by simp [fields])]
  simp only [fields, List.forall_mem_cons, List.not_mem_nil, Field.required, ofJson,
    byteAt_eq_elim, map_elementsAt, Device.mk.injEq]
  tauto

end Device

namespace Record

def FailureGivenBy (ms : List (String × Json)) (bus address : Option UInt8) (error : String) :
    Prop :=
  OneOr (IsNullOr IsByte) none "bus" ms bus ∧ OneOr (IsNullOr IsByte) none "address" ms address ∧
    One IsText "error" ms error

/-- An object that says which failed device it is; else what says which device it is. -/
def Form (j : Json) : Record → Prop
  | .failed bus address error => ∃ ms, j = .object ms ∧ FailureGivenBy ms bus address error
  | .device d =>
    (∀ ms, j = .object ms → ∀ bus address error, ¬ FailureGivenBy ms bus address error) ∧ d.Form j

def failedFields : List Field :=
  [.mk "bus" false (.optional .byte), .mk "address" false (.optional .byte),
    .mk "error" true (.text "a string")]

theorem map_admit?_failedShape_eq_some_iff {j : Json} {r : Record} :
    (failedShape.admit? j).map ofJson = some r ↔ ∃ bus address error,
      r = .failed bus address error ∧
        ∃ ms, j = .object ms ∧ FailureGivenBy ms bus address error := by
  have hnodup : (failedFields.map Field.name).Nodup := by decide
  have hbus : Json.Field.mk "bus" false (.optional .byte) ∈ failedFields := by simp [failedFields]
  have haddress : Json.Field.mk "address" false (.optional .byte) ∈ failedFields := by
    simp [failedFields]
  have herror : Json.Field.mk "error" true (.text "a string") ∈ failedFields := by
    simp [failedFields]
  cases j with
  | object ms =>
    have hread : failedShape.admit? (.object ms) =
        (Field.admitMembers? failedFields ms).map .object := rfl
    rw [hread, @map_admitMembers?_eq_some_iff _ ofJson failedFields ms r]
    simp only [Json.object.injEq, exists_eq_left', FailureGivenBy,
      oneOr_iff_plain hnodup readsAs_nullOrByte hbus,
      oneOr_iff_plain hnodup readsAs_nullOrByte haddress,
      one_iff_plain hnodup (readsAs_text _) herror "", ← byteAt?_eq_elim, ← textAt_eq_elim]
    have hfailed : ((Json.Field.mk "error" true (.text "a string")).value? ms).isSome →
        ofJson (plainMembers failedFields ms) =
          .failed ((plainMembers failedFields ms).byteAt? "bus")
            ((plainMembers failedFields ms).byteAt? "address")
            ((plainMembers failedFields ms).textAt "error") := by
      intro hsome
      obtain ⟨k, hk⟩ := Option.isSome_iff_exists.1 hsome
      have hmember := (member?_plainMembers hnodup herror ms).trans hk
      simp only [Field.name] at hmember
      rw [ofJson, hmember]
    constructor
    · rintro ⟨hall, rfl⟩
      have hsome := (hall _ herror).2 rfl
      exact ⟨_, _, _, hfailed hsome, ⟨(hall _ hbus).1, rfl⟩, ⟨(hall _ haddress).1, rfl⟩,
        ⟨(hall _ herror).1, hsome⟩, rfl⟩
    · rintro ⟨_, _, _, rfl, ⟨hsuitsBus, rfl⟩, ⟨hsuitsAddress, rfl⟩, ⟨hsuitsError, hsome⟩, rfl⟩
      refine ⟨?_, hfailed hsome⟩
      simp only [failedFields, List.forall_mem_cons, List.not_mem_nil, Field.required]
      exact ⟨⟨hsuitsBus, by simp⟩, ⟨hsuitsAddress, by simp⟩, ⟨hsuitsError, fun _ => hsome⟩,
        by simp⟩
  | null | bool | number | string | array => simp [failedShape, Shape.admit?]

theorem map_admit?_deviceShape_eq_some_iff {j : Json} {r : Record} :
    (Device.shape.admit? j).map ofJson = some r ↔ ∃ d, r = .device d ∧ d.Form j := by
  have hnodup : (Device.fields.map Field.name).Nodup := by decide
  -- No device has an error.
  have hdevice : ∀ ms, ofJson (plainMembers Device.fields ms) =
      .device (.ofJson (plainMembers Device.fields ms)) := by
    intro ms
    have herror := @member?_plainMembers_eq_none Device.fields "error" (by decide) ms
    rw [ofJson, herror]
  have hrecord := @map_admit?_record_eq_some_iff _ ofJson Device.fields hnodup "Device" j r
  have hform := fun d => (@map_admit?_record_eq_some_iff _ Device.ofJson Device.fields hnodup
    "Device" j d).symm.trans (Device.readsAs_shape j d)
  refine hrecord.trans ?_
  simp only [← hform, hdevice]
  constructor
  · rintro ⟨ms, hmembers, hall, rfl⟩
    exact ⟨_, rfl, ms, hmembers, hall, rfl⟩
  · rintro ⟨_, rfl, ms, hmembers, hall, rfl⟩
    exact ⟨ms, hmembers, hall, rfl⟩

theorem readsAs_shape : shape.ReadsAs ofJson Form := by
  intro j r
  have hfailed := @map_admit?_failedShape_eq_some_iff j
  have hdevice := @map_admit?_deviceShape_eq_some_iff j
  rw [shape, Shape.admit?, Shape.admitFirst?, Shape.admitFirst?, Shape.admitFirst?, Option.or_none]
  cases hadmits : failedShape.admit? j with
  | some k =>
    -- What suits the failed record is read as one, and is no device whatever else it has.
    rw [hadmits] at hfailed
    obtain ⟨bus, address, error, hk, ms, hms, hgiven⟩ := hfailed.1 rfl
    rw [Option.some_or, hfailed]
    cases r with
    | failed => simp [Form]
    | device d => simpa [Form] using fun h => absurd hgiven (h ms hms bus address error)
  | none =>
    have hnot : ∀ ms, j = .object ms → ∀ bus address error,
        ¬ FailureGivenBy ms bus address error := by
      intro ms hms bus address error hgiven
      have hsome := (@hfailed (.failed bus address error)).2 ⟨_, _, _, rfl, ms, hms, hgiven⟩
      rw [hadmits] at hsome
      cases hsome
    rw [Option.none_or, hdevice]
    cases r with
    | failed bus address error =>
      simpa [Form] using fun ms hms => hnot ms hms bus address error
    | device d => simpa [Form] using fun _ => hnot

end Record

namespace Dump

def GivenBy (ms : List (String × Json)) (d : Dump) : Prop :=
  One (IsList Record.Form) "devices" ms d.devices ∧
    OneOr (IsTable IsText) .empty "drivers" ms d.drivers ∧
      OneOr (IsTable IsByte) .empty "maxchild" ms d.portCounts

def Form (j : Json) (d : Dump) : Prop :=
  ∃ ms, recordMembers? ["devices", "drivers", "maxchild"] j = some ms ∧ GivenBy ms d

def fields : List Field :=
  [.mk "devices" true (.list Record.shape), .mk "drivers" false (.table (.text "a string")),
    .mk "maxchild" false (.table .byte)]

theorem readsAs_shape : shape.ReadsAs ofJson Form := by
  intro j d
  have hnodup : (fields.map Field.name).Nodup := by decide
  refine (@map_admit?_record_eq_some_iff _ ofJson fields hnodup _ j d).trans
    (exists_congr fun ms => and_congr_right fun _ => ?_)
  obtain ⟨devices, drivers, portCounts⟩ := d
  rw [GivenBy, one_iff_plain hnodup (readsAs_list Record.readsAs_shape) (by simp [fields]) [],
    oneOr_iff_plain hnodup (readsAs_table (readsAs_text "a string")) (by simp [fields]),
    oneOr_iff_plain hnodup (readsAs_table readsAs_byte) (by simp [fields])]
  simp only [fields, List.forall_mem_cons, List.not_mem_nil, Field.required, ofJson,
    map_elementsAt, ofList_membersAt fun j => j.text?.getD "",
    ofList_membersAt fun j => j.byte?.getD 0, Dump.mk.injEq]
  tauto

end Dump

end UsbTopology
