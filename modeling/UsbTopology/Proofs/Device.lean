import UsbTopology.Proofs.Location.Name
import UsbTopology.Dump.Capture

set_option autoImplicit false

/-!
# Devices that can be placed

A device passes the check of its port path exactly when the path is short enough and every port is
one that a location can hold. Up to six ports, these are the devices whose location gives their port
path back; the check of a seventh port is the only one that a location does not tell.
-/
namespace UsbTopology.Device

theorem misplacement?_eq_none_iff {d : Device} :
    d.misplacement? = none ↔ d.ports.length ≤ maxPorts ∧ ∀ p ∈ d.ports, IsPort p := by
  unfold misplacement?
  split
  · next h => simp [Nat.not_le.2 h]
  · next h =>
    simp only [Option.map_eq_none_iff, List.find?_eq_none, Nat.not_lt.1 h, true_and]
    refine forall₂_congr fun p _ => ?_
    simp [IsPort]

theorem validate_eq_ok_iff {d : Device} :
    d.validate = .ok d ↔ d.ports.length ≤ maxPorts ∧ ∀ p ∈ d.ports, IsPort p := by
  rw [← misplacement?_eq_none_iff, validate]
  cases d.misplacement? <;> simp

theorem isPort_of_validate {d : Device} (h : d.validate = .ok d) : ∀ p ∈ d.ports, IsPort p :=
  (validate_eq_ok_iff.1 h).2

theorem eq_of_validate_eq_ok {d e : Device} (h : d.validate = .ok e) : e = d := by
  unfold validate at h
  split at h
  · exact (Except.ok.inj h).symm
  · cases h

theorem isOk_validate {d : Device} : d.validate.isOk = true ↔ d.validate = .ok d := by
  unfold validate
  cases d.misplacement? <;> simp [Except.isOk, Except.toBool]

theorem isOk_validate_iff {d : Device} :
    d.validate.isOk = true ↔ d.ports.length ≤ maxPorts ∧
      d.location.ports = d.ports.take Location.levels ∧
        ∀ p ∈ d.ports.drop Location.levels, IsPort p := by
  rw [isOk_validate, validate_eq_ok_iff, location, Location.ports_encode_eq_take_iff]
  refine and_congr_right fun _ => ?_
  rw [← List.forall_mem_append, List.take_append_drop]

theorem isOk_validate_iff_of_le {d : Device} (h : d.ports.length ≤ Location.levels) :
    d.validate.isOk = true ↔ d.location.ports = d.ports := by
  have hmax : d.ports.length ≤ maxPorts := Nat.le_trans h (by decide)
  rw [isOk_validate_iff, List.take_of_length_le h, List.drop_eq_nil_of_le h]
  simp [hmax]

theorem isOk_validate_iff_of_seven {d : Device} (h : d.ports.length = maxPorts) :
    d.validate.isOk = true ↔ d.location.ports = d.ports.take Location.levels ∧
      ∃ p, d.ports[Location.levels]? = some p ∧ IsPort p := by
  have hlt : Location.levels < d.ports.length := h ▸ by decide
  have hdrop : d.ports.drop Location.levels = [d.ports[Location.levels]] := by
    have hend : d.ports.length ≤ Location.levels + 1 := Nat.le_of_eq h
    rw [List.drop_eq_getElem_cons hlt, List.drop_eq_nil_of_le hend]
  rw [isOk_validate_iff, hdrop, List.getElem?_eq_getElem hlt]
  simp [h]

theorem isOk_validate_of_lt {d : Device} (h : maxPorts < d.ports.length) :
    d.validate.isOk = false := by
  rw [Bool.eq_false_iff, ne_eq, isOk_validate_iff]
  exact fun hok => absurd hok.1 (Nat.not_le.2 h)

theorem isRootHub_iff {d : Device} (h : ∀ p ∈ d.ports, IsPort p) :
    d.isRootHub = true ↔ d.ports = [] := by
  have hports : d.location.ports = d.ports.take Location.levels := Location.ports_encode d.bus h
  rw [isRootHub, Location.isRootHub_iff, hports, List.take_eq_nil_iff]
  exact or_iff_right (by decide)

theorem isRootHub_iff_of_validate {d : Device} (h : d.validate = .ok d) :
    d.isRootHub = true ↔ d.ports = [] :=
  isRootHub_iff (isPort_of_validate h)

end UsbTopology.Device
