import UsbTopology.Proofs.Dump.Capture

set_option autoImplicit false

/-!
# What a captured dump holds

A dump captured from devices that pass their check holds the side data that was told of them, under
their names and nothing else, and each probe at its own position (`holds_capture`). Devices at one
location share their names, so what is stored for one of them is what was told of all.
-/
namespace UsbTopology

namespace Device

/-- The driver at an interface number is asked for: of a root hub number zero, of any other device
the numbers of its largest configuration and at least zero, but never 255 or more. -/
def Asks (d : Device) (i : Nat) : Prop :=
  if d.ports = [] then i = 0
  else i < min 255 (max 1 ((d.configurations.map fun c => c.interfaces.length).max?.getD 0))

instance (d : Device) (i : Nat) : Decidable (d.Asks i) := by
  delta Asks
  infer_instance

variable {d : Device}

theorem interfaceCount_eq :
    d.interfaceCount = (d.configurations.map fun c => c.interfaces.length).max?.getD 0 := by
  rw [interfaceCount, ← List.foldl_map, List.foldl_max, Nat.zero_max]

theorem mem_capturedInterfaces_iff (hroot : d.isRootHub = true ↔ d.ports = []) {n : UInt8} :
    n ∈ d.capturedInterfaces ↔ ∃ i, d.Asks i ∧ UInt8.ofNat i = n := by
  unfold capturedInterfaces Asks
  by_cases hports : d.ports = []
  · simp [hroot.2 hports, hports, eq_comm]
  · rw [if_neg (mt hroot.1 hports), List.mem_map, interfaceCount_eq, Nat.min_comm, Nat.max_comm]
    simp [hports]

end Device

namespace Dump

/-- A dump holds what side data tells of the devices among some probes, and the probes. -/
structure Holds (side : SideData) (probes : List Probe) (dump : Dump) : Prop where
  portCounts : ∀ s m, dump.portCounts.get? s = some m ↔
    ∃ d, .ok d ∈ probes ∧ d.location.deviceName = s ∧ side.portCount d.location = some m
  drivers : ∀ s v, dump.drivers.get? s = some v ↔
    ∃ d, .ok d ∈ probes ∧ ∃ i, d.Asks i ∧
      d.location.driverNode (.ofNat i) = s ∧ side.driver d.location (.ofNat i) = some v
  length : dump.devices.length = probes.length
  device : ∀ (i : Nat) (d : Device), probes[i]? = some (.ok d) →
    dump.devices[i]? = some (.device d)
  failed : ∀ (i : Nat) (f : Fault), probes[i]? = some (.error f) →
    dump.devices[i]? = some (.failed none none f.message)

namespace Holds

variable {side : SideData} {probes others : List Probe} {dump source another : Dump}

theorem subset_of_sideData (h : dump.Holds source.sideData probes) :
    dump.portCounts.entries ⊆ source.portCounts.entries ∧
      dump.drivers.entries ⊆ source.drivers.entries := by
  constructor
  · rintro ⟨s, m⟩ hmem
    obtain ⟨d, -, rfl, hm⟩ := (h.portCounts s m).1 (Table.get?_eq_some_iff.2 hmem)
    exact Table.get?_eq_some_iff.1 hm
  · rintro ⟨s, v⟩ hmem
    obtain ⟨d, -, i, -, rfl, hv⟩ := (h.drivers s v).1 (Table.get?_eq_some_iff.2 hmem)
    exact Table.get?_eq_some_iff.1 hv

/-- The tables depend on which devices there are, so failures add nothing to them. -/
theorem tables_eq (h : dump.Holds side probes) (hother : another.Holds side others)
    (hsame : ∀ d, .ok d ∈ others ↔ .ok d ∈ probes) :
    another.portCounts = dump.portCounts ∧ another.drivers = dump.drivers := by
  constructor
  · refine Table.ext_get? fun s => Option.ext fun m => ?_
    rw [hother.portCounts, h.portCounts]
    simp only [hsame]
  · refine Table.ext_get? fun s => Option.ext fun v => ?_
    rw [hother.drivers, h.drivers]
    simp only [hsame]

end Holds

section

variable {probes : List Probe} (side : SideData) (hvalid : ∀ d, .ok d ∈ probes → d.validate = .ok d)
include hvalid

theorem get?_portCounts_capture (s : String) (m : UInt8) :
    (capture probes side).portCounts.get? s = some m ↔
      ∃ d, .ok d ∈ probes ∧ d.location.deviceName = s ∧ side.portCount d.location = some m := by
  rw [portCounts_capture, Table.get?_ofList_filterMap_eq_some_iff
    fun l hl m hm => portCount_agree side hvalid hl hm]
  simp only [List.mem_map, Tree.mem_probedDevices, exists_exists_and_eq_and]

theorem get?_drivers_capture (s v : String) :
    (capture probes side).drivers.get? s = some v ↔
      ∃ d, .ok d ∈ probes ∧ ∃ i, d.Asks i ∧
        d.location.driverNode (.ofNat i) = s ∧ side.driver d.location (.ofNat i) = some v := by
  rw [drivers_capture, Table.get?_ofList_filterMap_eq_some_iff
    fun x hx y hy => driver_agree side hvalid hx hy]
  constructor
  · rintro ⟨x, hx, hnode, hdriver⟩
    obtain ⟨d, hd, n, hn, rfl⟩ := mem_askedInterfaces.1 hx
    obtain ⟨i, hi, rfl⟩ :=
      (Device.mem_capturedInterfaces_iff (isRootHub_iff_of_valid hvalid hd)).1 hn
    exact ⟨d, hd, i, hi, hnode, hdriver⟩
  · rintro ⟨d, hd, i, hi, hnode, hdriver⟩
    have hn := (Device.mem_capturedInterfaces_iff (isRootHub_iff_of_valid hvalid hd)).2 ⟨i, hi, rfl⟩
    exact ⟨(d.location, .ofNat i), mem_askedInterfaces.2 ⟨d, hd, _, hn, rfl⟩, hnode, hdriver⟩

theorem holds_capture_of_valid : (capture probes side).Holds side probes where
  portCounts := get?_portCounts_capture side hvalid
  drivers := get?_drivers_capture side hvalid
  length := List.length_map _
  device i d hget := by
    change (probes.map Record.ofProbe)[i]? = _
    rw [List.getElem?_map, hget]
    rfl
  failed i f hget := by
    change (probes.map Record.ofProbe)[i]? = _
    rw [List.getElem?_map, hget]
    rfl

/-- A captured dump holds exactly what was told of the devices. Captured with the tables of another
dump its own are parts of those, and failed devices add nothing. -/
theorem holds_capture :
    (capture probes side).Holds side probes ∧
      (∀ source : Dump,
        (capture probes source.sideData).portCounts.entries ⊆ source.portCounts.entries ∧
          (capture probes source.sideData).drivers.entries ⊆ source.drivers.entries) ∧
      (capture (probes.filter Except.isOk) side).portCounts = (capture probes side).portCounts ∧
      (capture (probes.filter Except.isOk) side).drivers = (capture probes side).drivers := by
  have hsame : ∀ d : Device, .ok d ∈ probes.filter Except.isOk ↔ .ok d ∈ probes := by
    intro d
    rw [List.mem_filter]
    exact and_iff_left rfl
  refine ⟨holds_capture_of_valid side hvalid, ?_, ?_⟩
  · intro source
    exact (holds_capture_of_valid source.sideData hvalid).subset_of_sideData
  · exact (holds_capture_of_valid side hvalid).tables_eq
      (holds_capture_of_valid side fun d hd => hvalid d ((hsame d).1 hd)) hsame

end

/-- Two devices on ports of one hub at the sixth level share its location; only the second has a
second interface. -/
def sharedLocation : List Probe :=
  [.ok ⟨1, [1, 2, 3, 4, 5, 6, 7], 9, .high, [⟨1, [⟨3, 0, 0⟩]⟩]⟩,
    .error ⟨.opening, "Access denied"⟩,
    .ok ⟨1, [1, 2, 3, 4, 5, 6, 8], 10, .high, [⟨1, [⟨3, 0, 0⟩, ⟨3, 0, 0⟩]⟩]⟩]

def secondBound : SideData := ⟨fun _ i => if i = 1 then some "usbhid" else none, fun _ => none⟩

theorem holds_capture_sharedLocation :
    (∀ d, .ok d ∈ sharedLocation → d.validate = .ok d) ∧
      (capture sharedLocation secondBound).drivers.get? "1-1.2.3.4.5.6:1.1" = some "usbhid" ∧
      (capture sharedLocation secondBound).devices[1]? =
        some (.failed none none "Access denied") := by
  have hvalid : ∀ d, .ok d ∈ sharedLocation → d.validate = .ok d := by
    intro d hd
    simp only [sharedLocation, List.mem_cons, List.not_mem_nil, or_false, Except.ok.injEq,
      reduceCtorEq, false_or] at hd
    rcases hd with rfl | rfl <;> rfl
  obtain ⟨hholds, -, -⟩ := holds_capture secondBound hvalid
  have hsecond := List.mem_of_getElem? (show sharedLocation[2]? = _ from rfl)
  refine ⟨hvalid, (hholds.drivers _ _).2 ?_, hholds.failed 1 _ rfl⟩
  exact ⟨_, hsecond, 1, by decide, by decide, rfl⟩

end Dump

end UsbTopology
