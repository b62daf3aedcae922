import UsbTopology.Dump.Capture
import UsbTopology.Proofs.Device
import UsbTopology.Proofs.Location.Name
import UsbTopology.Proofs.Table
import UsbTopology.Proofs.Tree.Arrangement
import UsbTopology.Proofs.Tree.Frame

set_option autoImplicit false

/-!
# What a captured dump tells

A dump of devices that pass their check answers for them as the side data did that it was captured
from, as far as interface numbers below 255 go. A tree shows number 255 too, for all interfaces from
the 256th on, and their driver is lost.
-/
namespace UsbTopology

namespace Device

variable {d : Device}

theorem lt_foldl_max_iff {k n : Nat} {configurations : List Configuration} :
    k < configurations.foldl (fun n c => max n c.interfaces.length) n ↔
      k < n ∨ ∃ c ∈ configurations, k < c.interfaces.length := by
  induction configurations generalizing n with
  | nil => simp
  | cons c configurations ih =>
    have hmax : k < max n c.interfaces.length ↔ k < n ∨ k < c.interfaces.length := by omega
    rw [List.foldl_cons, ih, hmax, or_assoc]
    simp

theorem lt_interfaceCount_iff {k : Nat} :
    k < d.interfaceCount ↔ ∃ c ∈ d.configurations, k < c.interfaces.length := by
  rw [interfaceCount, lt_foldl_max_iff]
  simp

/-- Number 255 stands for the 256th interface and all behind it. -/
theorem exists_last_number_iff :
    (∃ x ∈ d.numberedInterfaces, x.1 = 255) ↔ 255 < d.interfaceCount := by
  rw [lt_interfaceCount_iff]
  constructor
  · rintro ⟨x, hx, hnumber⟩
    obtain ⟨c, hc, j, hget, hj⟩ := mem_numberedInterfaces.1 hx
    have hlen : j < c.interfaces.length := (List.getElem?_eq_some_iff.1 hget).1
    have htoNat := congrArg UInt8.toNat (hj.symm.trans hnumber)
    rw [toNat_number] at htoNat
    change min j 255 = 255 at htoNat
    exact ⟨c, hc, by omega⟩
  · rintro ⟨c, hc, hlen⟩
    exact ⟨(255, c.interfaces[255]), mem_numberedInterfaces.2
      ⟨c, hc, 255, List.getElem?_eq_getElem hlen, rfl⟩, rfl⟩

theorem mem_capturedInterfaces {x : UInt8 × Interface} (hroot : d.isRootHub = false)
    (hx : x ∈ d.numberedInterfaces) (hlast : x.1 ≠ 255) : x.1 ∈ d.capturedInterfaces := by
  obtain ⟨c, hc, j, hget, hj⟩ := mem_numberedInterfaces.1 hx
  have hlen : j < c.interfaces.length := (List.getElem?_eq_some_iff.1 hget).1
  have hcount : j < d.interfaceCount := lt_interfaceCount_iff.2 ⟨c, hc, hlen⟩
  have hlt : j < 255 := by
    by_contra hge
    exact hlast (by rw [hj, Nat.min_eq_right (Nat.not_lt.1 hge)]; rfl)
  rw [capturedInterfaces, if_neg (by simp [hroot]), hj, Nat.min_eq_left (Nat.le_of_lt hlt)]
  exact List.mem_map_of_mem (List.mem_range.2 (by omega))

theorem last_notMem_capturedInterfaces : 255 ∉ d.capturedInterfaces := by
  unfold capturedInterfaces
  split
  · decide
  · intro hmem
    obtain ⟨j, hj, hnumber⟩ := List.mem_map.1 hmem
    have hlt : j < 255 := by
      have := List.mem_range.1 hj
      omega
    have htoNat := congrArg UInt8.toNat hnumber
    rw [UInt8.toNat_ofNat_of_lt' (Nat.lt_of_lt_of_le hlt (by decide))] at htoNat
    exact Nat.ne_of_lt hlt htoNat

end Device

namespace Dump

def askedInterfaces (probes : List Probe) : List (Location × UInt8) :=
  (probedDevices probes).flatMap fun d => d.capturedInterfaces.map (Prod.mk d.location)

theorem mem_askedInterfaces {probes : List Probe} {x : Location × UInt8} :
    x ∈ askedInterfaces probes ↔
      ∃ d, .ok d ∈ probes ∧ ∃ i ∈ d.capturedInterfaces, (d.location, i) = x := by
  simp only [askedInterfaces, List.mem_flatMap, List.mem_map, Tree.mem_probedDevices]

theorem drivers_capture (probes : List Probe) (side : SideData) :
    (capture probes side).drivers = .ofList ((askedInterfaces probes).filterMap fun x =>
      (side.driver x.1 x.2).map (Prod.mk (x.1.driverNode x.2))) := by
  change Table.ofList ((probedDevices probes).flatMap (Device.driverEntries side)) = _
  rw [askedInterfaces, List.filterMap_flatMap]
  refine congrArg Table.ofList (List.flatMap_congr fun d _ => ?_)
  rw [List.filterMap_map]
  rfl

theorem portCounts_capture (probes : List Probe) (side : SideData) :
    (capture probes side).portCounts =
      .ofList (((probedDevices probes).map Device.location).filterMap fun l =>
        (side.portCount l).map (Prod.mk l.deviceName)) := by
  change Table.ofList ((probedDevices probes).flatMap (Device.portCountEntries side)) = _
  rw [List.filterMap_map, List.filterMap_eq_flatMap_toList]
  rfl

section

variable {probes : List Probe} (side : SideData) (hvalid : ∀ d, .ok d ∈ probes → d.validate = .ok d)
include hvalid

theorem canonical_of_valid {d : Device} (h : .ok d ∈ probes) : d.location.canonical = d.location :=
  Location.canonical_encode d.bus (Device.isPort_of_validate (hvalid d h))

omit side in
theorem probedLocations_inj {l m : Location} (hl : l ∈ (probedDevices probes).map Device.location)
    (hm : m ∈ (probedDevices probes).map Device.location) (h : l.deviceName = m.deviceName) :
    l = m := by
  obtain ⟨a, ha, rfl⟩ := List.mem_map.1 hl
  obtain ⟨b, hb, rfl⟩ := List.mem_map.1 hm
  obtain ⟨hbus, hports⟩ := deviceName_inj h
  exact Location.eq_of_bus_eq_of_ports_eq
    (canonical_of_valid hvalid (Tree.mem_probedDevices.1 ha))
    (canonical_of_valid hvalid (Tree.mem_probedDevices.1 hb)) hbus hports

theorem portCount_agree {l m : Location} (hl : l ∈ (probedDevices probes).map Device.location)
    (hm : m ∈ (probedDevices probes).map Device.location) (h : l.deviceName = m.deviceName) :
    side.portCount l = side.portCount m := by
  rw [probedLocations_inj hvalid hl hm h]

theorem portCount_capture {d : Device} (h : .ok d ∈ probes) :
    (capture probes side).sideData.portCount d.location = side.portCount d.location := by
  change (capture probes side).portCounts.get? d.location.deviceName = _
  rw [portCounts_capture]
  exact Table.get?_ofList_filterMap (fun l hl m hm => portCount_agree side hvalid hl hm)
    (List.mem_map_of_mem (Tree.mem_probedDevices.2 h))

theorem askedInterfaces_inj {x y : Location × UInt8} (hx : x ∈ askedInterfaces probes)
    (hy : y ∈ askedInterfaces probes) (h : x.1.driverNode x.2 = y.1.driverNode y.2) : x = y := by
  obtain ⟨a, ha, i, hi, rfl⟩ := mem_askedInterfaces.1 hx
  obtain ⟨b, hb, j, hj, rfl⟩ := mem_askedInterfaces.1 hy
  obtain ⟨hbus, hports, hsame⟩ := Location.driverNode_inj h
  have hloc : a.location = b.location := Location.eq_of_bus_eq_of_ports_eq
    (canonical_of_valid hvalid ha) (canonical_of_valid hvalid hb) hbus hports
  refine Prod.ext hloc ?_
  rcases hsame with hroot | hij
  · have ha : a.isRootHub = true := hroot
    have hb : b.isRootHub = true := by rwa [Device.isRootHub, ← hloc]
    rw [Device.capturedInterfaces, if_pos ha] at hi
    rw [Device.capturedInterfaces, if_pos hb] at hj
    exact (List.mem_singleton.1 hi).trans (List.mem_singleton.1 hj).symm
  · exact hij

theorem driver_agree {x y : Location × UInt8} (hx : x ∈ askedInterfaces probes)
    (hy : y ∈ askedInterfaces probes) (h : x.1.driverNode x.2 = y.1.driverNode y.2) :
    side.driver x.1 x.2 = side.driver y.1 y.2 := by
  rw [askedInterfaces_inj hvalid hx hy h]

theorem driver_capture {d : Device} (h : .ok d ∈ probes) {i : UInt8}
    (hi : i ∈ d.capturedInterfaces) :
    (capture probes side).sideData.driver d.location i = side.driver d.location i := by
  have hmem : (d.location, i) ∈ askedInterfaces probes :=
    mem_askedInterfaces.2 ⟨d, h, i, hi, rfl⟩
  have hget := Table.get?_ofList_filterMap
    (fun x hx y hy => driver_agree side hvalid hx hy) hmem
  rw [← drivers_capture] at hget
  exact hget

omit hvalid in
theorem last_driver_capture {l : Location} (hroot : l.isRootHub = false) :
    (capture probes side).sideData.driver l 255 = none := by
  change (capture probes side).drivers.get? (l.driverNode 255) = none
  rw [drivers_capture]
  refine Table.get?_ofList_filterMap_eq_none ?_
  intro x hx hnode
  obtain ⟨a, -, i, hi, rfl⟩ := mem_askedInterfaces.1 hx
  obtain ⟨-, hports, hsame⟩ := Location.driverNode_inj hnode
  rcases hsame with hl | hi255
  · have hl' : l.isRootHub = true := by
      rw [Location.isRootHub_iff] at hl ⊢
      rw [← hports, hl]
    rw [hl'] at hroot
    exact absurd hroot (by decide)
  · obtain rfl : i = 255 := hi255
    exact Device.last_notMem_capturedInterfaces hi

theorem probes_capture : (capture probes side).probes =
    probes.map fun p => p.mapError fun f => ⟨.opening, f.message⟩ := by
  change (probes.map Record.ofProbe).map Record.probe = _
  rw [List.map_map]
  refine List.map_congr_left fun p hp => ?_
  cases p with
  | ok d => exact hvalid d hp
  | error f => simp [Record.ofProbe, Record.probe, Record.failureMessage, Except.mapError]

theorem indexedDevices_capture :
    Tree.indexedDevices (capture probes side).probes = Tree.indexedDevices probes := by
  rw [probes_capture side hvalid, Tree.indexedDevices, Tree.indexedDevices, List.zipIdx_map,
    List.filterMap_map]
  refine List.filterMap_congr fun p _ => ?_
  rcases p with ⟨_ | d, i⟩ <;> rfl

theorem arrangedDevices_capture :
    Tree.arrangedDevices (capture probes side).probes = Tree.arrangedDevices probes := by
  rw [Tree.arrangedDevices, Tree.arrangedDevices, indexedDevices_capture side hvalid]

theorem faults_build_capture (names : ClassNames) :
    (Tree.build names (capture probes side).sideData (capture probes side).probes).faults.map
      Fault.message = (Tree.build names side probes).faults.map Fault.message := by
  change (Tree.faultsOf (capture probes side).probes).map _ = (Tree.faultsOf probes).map _
  rw [probes_capture side hvalid, Tree.faultsOf, Tree.faultsOf, List.filterMap_map,
    List.map_filterMap, List.map_filterMap]
  refine List.filterMap_congr fun p _ => ?_
  cases p <;> rfl

theorem isRootHub_iff_of_valid {d : Device} (h : .ok d ∈ probes) :
    d.isRootHub = true ↔ d.ports = [] :=
  Device.isRootHub_iff_of_validate (hvalid d h)

/-- A device is shown as before unless number 255 is shown with a driver that was known. -/
theorem render_capture_iff (names : ClassNames) {d : Device} (h : .ok d ∈ probes) :
    d.render names (capture probes side).sideData = d.render names side ↔
      (d.ports ≠ [] → 255 < d.interfaceCount → d.shownDriver side 255 = Device.unknownDriver) := by
  have hcount := portCount_capture side hvalid h
  -- A root hub shows number 0 only, and that is asked for.
  by_cases hhub : d.isRootHub = true
  · have hports : d.ports = [] := (isRootHub_iff_of_valid hvalid h).1 hhub
    have hasked : (0 : UInt8) ∈ d.capturedInterfaces := by
      rw [Device.capturedInterfaces, if_pos hhub]
      exact List.mem_singleton_self 0
    have hline := Device.rootHubLine_congr hcount (driver_capture side hvalid h hasked)
    have hdepth : d.location.depth = 0 := of_decide_eq_true hhub
    rw [Device.render, if_pos hdepth, Device.render, if_pos hdepth]
    exact iff_of_true hline fun hne => absurd hports hne
  · have hports : d.ports ≠ [] := fun hp => hhub ((isRootHub_iff_of_valid hvalid h).2 hp)
    have hroot : d.isRootHub = false := Bool.eq_false_iff.2 hhub
    have hdepth : d.location.depth ≠ 0 := of_decide_eq_false hroot
    have hother : ∀ x ∈ d.numberedInterfaces, x.1 ≠ 255 →
        (capture probes side).sideData.driver d.location x.1 = side.driver d.location x.1 :=
      fun x hx hlast => driver_capture side hvalid h (Device.mem_capturedInterfaces hroot hx hlast)
    have hlost : d.shownDriver (capture probes side).sideData 255 = Device.unknownDriver := by
      rw [Device.shownDriver, last_driver_capture side hroot, Option.getD_none]
    rw [Device.render_eq_iff hdepth hcount hother, Device.exists_last_number_iff, hlost]
    constructor
    · intro hshown _ hmany
      exact (hshown hmany).symm
    · intro hshown hmany
      exact (hshown hports hmany).symm

/-- The tree of a captured dump has the entries of the tree it was captured from in the same order,
with the same texts except for the driver at interface number 255. -/
theorem entries_build_capture (names : ClassNames) :
    let dump := capture probes side
    let shown := Tree.build names side probes
    let again := Tree.build names dump.sideData dump.probes
    again.entries.map (fun e => (e.location, e.index)) =
        shown.entries.map (fun e => (e.location, e.index)) ∧
      (again.entries = shown.entries ↔ ∀ d, .ok d ∈ probes → d.ports ≠ [] →
        255 < d.interfaceCount → side.driver d.location 255 ∈ [none, some Device.unknownDriver]) ∧
      again.faults.map Fault.message = shown.faults.map Fault.message := by
  refine ⟨?_, ?_, faults_build_capture side hvalid names⟩
  · rw [Tree.entries_build, Tree.entries_build, arrangedDevices_capture side hvalid, List.map_map,
      List.map_map]
    rfl
  · rw [Tree.entries_build, Tree.entries_build, arrangedDevices_capture side hvalid,
      List.map_inj_left]
    constructor
    · intro hsame d h hports hmany
      obtain ⟨i, hi⟩ := List.getElem?_of_mem h
      have hentry := hsame (d, i) (Tree.mem_arrangedDevices.2 hi)
      have hshown := (render_capture_iff side hvalid names h).1 (congrArg Entry.text hentry)
        hports hmany
      rw [Device.shownDriver] at hshown
      cases hdriver : side.driver d.location 255 with
      | none => simp
      | some driver =>
        rw [hdriver, Option.getD_some] at hshown
        simp [hshown]
    · rintro hknown ⟨d, i⟩ hmem
      have h : .ok d ∈ probes := List.mem_of_getElem? (Tree.mem_arrangedDevices.1 hmem)
      have htext := (render_capture_iff side hvalid names h).2 fun hports hmany => by
        rw [Device.shownDriver]
        rcases List.mem_pair.1 (hknown d h hports hmany) with hdriver | hdriver
        · rw [hdriver, Option.getD_none]
        · rw [hdriver, Option.getD_some]
      rw [Entry.ofDevice, Entry.ofDevice, htext]

end

def manyInterfaces : Device := ⟨1, [1], 2, .high, [⟨1, List.replicate 256 ⟨8, 6, 80⟩⟩]⟩

def crowdedProbes : List Probe := [.ok manyInterfaces]

def lastBound : SideData := ⟨fun _ i => if i = 255 then some "uas" else none, fun _ => none⟩

theorem entries_build_capture_crowdedProbes :
    (∀ d, .ok d ∈ crowdedProbes → d.validate = .ok d) ∧
      (Tree.build .registered (capture crowdedProbes lastBound).sideData
        (capture crowdedProbes lastBound).probes).entries ≠
        (Tree.build .registered lastBound crowdedProbes).entries := by
  have hvalid : ∀ d, .ok d ∈ crowdedProbes → d.validate = .ok d := by
    intro d hd
    obtain rfl : d = manyInterfaces := Except.ok.inj (List.mem_singleton.1 hd)
    rfl
  obtain ⟨-, hsame, -⟩ := entries_build_capture lastBound hvalid .registered
  have hmany : 255 < manyInterfaces.interfaceCount :=
    Device.lt_interfaceCount_iff.2
      ⟨_, List.mem_singleton_self _, by rw [List.length_replicate]; decide⟩
  refine ⟨hvalid, fun h => ?_⟩
  have hknown := hsame.1 h manyInterfaces (List.mem_singleton_self _) (by decide) hmany
  simp [lastBound, Device.unknownDriver] at hknown

end Dump

end UsbTopology
