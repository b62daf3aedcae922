import UsbTopology.Proofs.Dump.Form
import UsbTopology.Proofs.Json.Decimal

set_option autoImplicit false

/-!
# Failed devices and devices

Whether an object of a dump is a failed device, a device or neither depends on its members of the
names of their fields: on what they are, and on there being only one of each.
-/
namespace UsbTopology.Record

open Json

theorem parse_eq_ok_iff {doc : Document} {j : Json} {r : Record}
    (hwithin : doc.root.Within maxDepth) (hvalue : doc.root.value? = some j) :
    parse doc.text = .ok r ↔ r.Form j :=
  map_parse_eq_ok_iff readsAs_shape plain_shape hwithin hvalue

section

variable {ms : List (String × Json)}

theorem form_failed_object {bus address : Option UInt8} {error : String} :
    Form (.object ms) (.failed bus address error) ↔ FailureGivenBy ms bus address error := by
  simp [Form]

theorem form_device_object {d : Device} :
    Form (.object ms) (.device d) ↔
      (∀ bus address error, ¬ FailureGivenBy ms bus address error) ∧ d.GivenBy ms := by
  simp [Form, Device.Form, recordMembers?]

end

/-- An object is a failed device if its members say which one, whatever else it has; else it is a
device if they say which one, and else it is refused. A byte in it is written as its decimal digits.
-/
theorem parse_object_classified {doc : Document} {gap : Gap} {members : List Member}
    {ms : List (String × Json)} (hroot : doc.root = .object gap members)
    (hvalues : Written.memberValues? members = some ms) (hwithin : doc.root.Within maxDepth) :
    (∀ bus address error, parse doc.text = .ok (.failed bus address error) ↔
      FailureGivenBy ms bus address error) ∧
    (∀ d, parse doc.text = .ok (.device d) ↔
      (∀ bus address error, ¬ FailureGivenBy ms bus address error) ∧ Device.GivenBy ms d) ∧
    ((∀ bus address error, ¬ FailureGivenBy ms bus address error) →
      (∀ d, ¬ Device.GivenBy ms d) → ∃ fault, parse doc.text = .error fault) ∧
    ∀ (w : Written) (b : UInt8), w.value? = some (.ofByte b) ↔ w.chars = (byteText b).toList := by
  have hvalue : doc.root.value? = some (.object ms) := by
    rw [hroot, Written.value?, hvalues]
    rfl
  have hparse := fun r => @parse_eq_ok_iff doc (.object ms) r hwithin hvalue
  refine ⟨fun bus address error => (hparse _).trans form_failed_object,
    fun d => (hparse _).trans form_device_object, fun hfailed hdevice => ?_,
    fun w b => Written.value?_eq_ofByte_iff⟩
  cases hresult : parse doc.text with
  | error fault => exact ⟨fault, rfl⟩
  | ok r =>
    have hform := (hparse r).1 hresult
    cases r with
    | failed bus address error =>
      exact absurd (form_failed_object.1 hform) (hfailed bus address error)
    | device d => exact absurd (form_device_object.1 hform).2 (hdevice d)

/-- A failed device that would be a device as well, were it not for its error. -/
def crowdedDocument : Document where
  before := .none
  root := .object .space
    [.mk .none (glyphsOf "bus") .none .space (.number (.ofNat 7)) .none,
     .mk .space (glyphsOf "address") .none .space (.number (.ofNat 3)) .space,
     .mk .space (glyphsOf "error") .space .none (.text (glyphsOf "lost")) .none]
  after := .space

theorem parse_crowdedDocument :
    parse crowdedDocument.text = .ok (.failed (some 7) (some 3) "lost") := by
  have hwithin : crowdedDocument.root.Within maxDepth := by
    simp [crowdedDocument, Written.Within, maxDepth, Member.value]
  have hparse := @parse_object_classified crowdedDocument _ _
    [("bus", .ofByte 7), ("address", .ofByte 3), ("error", .string "lost")] rfl rfl hwithin
  refine (hparse.1 (some 7) (some 3) "lost").2 ⟨?_, ?_, ?_⟩
  · exact .inr ⟨.ofByte 7, rfl, .inr ⟨7, rfl, rfl⟩⟩
  · exact .inr ⟨.ofByte 3, rfl, .inr ⟨3, rfl, rfl⟩⟩
  · exact ⟨.string "lost", rfl, rfl⟩

end UsbTopology.Record
