import UsbTopology.Proofs.Device
import UsbTopology.Proofs.Tree.Line

set_option autoImplicit false

/-!
# What a dump stands for

Each record of a dump stands for one probe at its own position. A device is probed, as it was
recorded, if its port path is one that a location can hold; then its entry is placed where the path
leads. Anything else is a fault (`probes_placed`).
-/
namespace UsbTopology

theorem Record.probe_eq_ok_iff {r : Record} {d : Device} :
    r.probe = .ok d ↔ r = .device d ∧ d.validate = .ok d := by
  cases r with
  | failed bus address error => simp [probe]
  | device e =>
    constructor
    · intro h
      obtain rfl := Device.eq_of_validate_eq_ok h
      exact ⟨rfl, h⟩
    · rintro ⟨h, hd⟩
      cases h
      exact hd

/-- An entry tells the place of its device: bus, number of hops, and whether there are any. A root
hub is one line with a mark of its own, which no other entry starts with; what could break the line
is the name of its driver. -/
structure Entry.Places (side : SideData) (d : Device) (e : Entry) : Prop where
  bus : e.location.bus = d.bus
  depth : e.location.depth = min d.ports.length Location.levels
  isRootHub : e.location.isRootHub = true ↔ d.ports = []
  marked : "/:  ".toList <+: e.text.toList ↔ d.ports = []
  line : d.ports = [] → ∃ head body, Unbroken head ∧ Unbroken body ∧
    e.text = head ++ ((side.driver d.location 0).getD Device.unknownDriver ++ (body ++ "M\n"))
  single : d.ports = [] → (∀ s ∈ (side.driver d.location 0).toList, Unbroken s) →
    Text.Terminated e.text

namespace Device

variable {names : ClassNames} {side : SideData} {d : Device}

theorem prefix_render_of_rootHub (hroot : d.location.depth = 0) :
    "/:  ".toList <+: (d.render names side).toList := by
  rw [render, if_pos hroot, rootHubLine, Location.branch, if_pos hroot]
  simp only [String.toList_append, List.append_assoc]
  apply List.prefix_append

theorem head?_render (hroot : d.location.depth ≠ 0) :
    ∀ c ∈ (d.render names side).toList.head?, c = ' ' := by
  have hindent : 4 * d.location.depth = 4 * d.location.depth - 1 + 1 := by omega
  intro c hc
  rw [render, if_neg hroot, String.toList_join, List.flatMap_map] at hc
  cases hi : d.numberedInterfaces with
  | nil => simp [hi] at hc
  | cons i rest =>
    rw [hi, List.flatMap_cons, interfaceLine, Location.branch, if_neg hroot, hindent,
      List.replicate_succ] at hc
    simp only [String.toList_append, String.toList_ofList, List.cons_append, List.head?_cons,
      Option.mem_some_iff] at hc
    exact hc.symm

theorem render_of_rootHub (hroot : d.location.depth = 0) :
    ∃ head body, Unbroken head ∧ Unbroken body ∧
      d.render names side =
        head ++ ((side.driver d.location 0).getD unknownDriver ++ (body ++ "M\n")) := by
  let middle := "Dev " ++ byteText d.address ++ ", Class=root_hub, Driver="
  let count := "/" ++ byteText ((side.portCount d.location).getD 0) ++ "p"
  refine ⟨d.lineHead ++ middle, count ++ ", " ++ d.speed.rate, ?_, ?_, ?_⟩
  · exact d.unbroken_lineHead.append
      ((Unbroken.append (by decide) (unbroken_byteText d.address)).append (by decide))
  · exact (((Unbroken.append (by decide) (unbroken_byteText _)).append (by decide)).append
      (by decide)).append (unbroken_rate d.speed)
  · rw [render, if_pos hroot, rootHubLine, lineHead, if_pos hroot]
    simp [lineEnd, withPorts, middle, count, String.append_assoc]

theorem terminated_render_of_rootHub (hroot : d.location.depth = 0)
    (h : ∀ s ∈ (side.driver d.location 0).toList, Unbroken s) :
    Text.Terminated (d.render names side) := by
  obtain ⟨head, body, hhead, hbody, htext⟩ := @render_of_rootHub names side d hroot
  have hdriver := unbroken_getD h (show Unbroken unknownDriver by decide)
  rw [htext, ← String.append_assoc, ← String.append_assoc]
  exact terminated_of_unbroken ((hhead.append hdriver).append hbody)

theorem places_ofDevice (index : Nat) (h : ∀ p ∈ d.ports, IsPort p) :
    (Entry.ofDevice names side index d).Places side d := by
  have hroot : d.location.depth = 0 ↔ d.ports = [] := by
    rw [← isRootHub_iff h, isRootHub, Location.isRootHub, beq_iff_eq]
  refine ⟨Location.bus_encode d.bus d.ports, ?_, isRootHub_iff h, ?_, ?_, ?_⟩
  · rw [Nat.min_comm]
    exact Location.depth_encode d.bus h
  · constructor
    · rintro ⟨rest, hrest⟩
      by_contra hne
      have hblank := @head?_render names side d (fun h0 => hne (hroot.1 h0)) '/'
      change "/:  ".toList ++ rest = (d.render names side).toList at hrest
      rw [← hrest] at hblank
      exact absurd (hblank rfl) (by decide)
    · intro hports
      exact prefix_render_of_rootHub (hroot.2 hports)
  · intro hports
    exact render_of_rootHub (hroot.2 hports)
  · intro hports
    exact terminated_render_of_rootHub (hroot.2 hports)

end Device

namespace Dump

theorem getElem?_probes (dump : Dump) (i : Nat) :
    dump.probes[i]? = dump.devices[i]?.map Record.probe :=
  List.getElem?_map

theorem getElem?_probes_eq_ok_iff {dump : Dump} {i : Nat} {d : Device} :
    dump.probes[i]? = some (.ok d) ↔
      dump.devices[i]? = some (.device d) ∧ d.validate.isOk = true := by
  rw [getElem?_probes, Option.map_eq_some_iff, Device.isOk_validate]
  constructor
  · rintro ⟨r, hr, hprobe⟩
    obtain ⟨rfl, hvalid⟩ := Record.probe_eq_ok_iff.1 hprobe
    exact ⟨hr, hvalid⟩
  · rintro ⟨hr, hvalid⟩
    exact ⟨.device d, hr, hvalid⟩

theorem validate_of_mem_probes {dump : Dump} {d : Device} (h : .ok d ∈ dump.probes) :
    d.validate = .ok d := by
  obtain ⟨r, -, hprobe⟩ := List.mem_map.1 h
  exact (Record.probe_eq_ok_iff.1 hprobe).2

theorem exists_fault_of_refused {dump : Dump} {i : Nat} {r : Record}
    (hr : dump.devices[i]? = some r) (hrefused : ∀ d, r = .device d → d.validate.isOk = false) :
    ∃ f, dump.probes[i]? = some (.error f) := by
  rw [getElem?_probes, hr, Option.map_some]
  cases hprobe : r.probe with
  | error f => exact ⟨f, rfl⟩
  | ok d =>
    obtain ⟨rfl, hvalid⟩ := Record.probe_eq_ok_iff.1 hprobe
    have hok := Device.isOk_validate.2 hvalid
    rw [hrefused d rfl] at hok
    cases hok

/-- The check of a device admits the port paths that its location gives back, but for a seventh
port, and the devices that it admits are those that a dump stands for and that its tree places. -/
theorem probes_placed (names : ClassNames) (side : SideData) :
    (∀ d : Device,
      (d.ports.length ≤ 6 → (d.validate.isOk = true ↔ d.location.ports = d.ports)) ∧
      (d.ports.length = 7 → (d.validate.isOk = true ↔
        d.location.ports = d.ports.take 6 ∧ ∃ p, d.ports[6]? = some p ∧ IsPort p)) ∧
      (7 < d.ports.length → d.validate.isOk = false)) ∧
    ∀ dump : Dump, dump.probes.length = dump.devices.length ∧ ∀ i,
      (∀ d, dump.probes[i]? = some (.ok d) ↔
        dump.devices[i]? = some (.device d) ∧ d.validate.isOk = true) ∧
      (∀ d, dump.probes[i]? = some (.ok d) → (Entry.ofDevice names side i d).Places side d) ∧
      (∀ r, dump.devices[i]? = some r → (∀ d, r = .device d → d.validate.isOk = false) →
        ∃ f, dump.probes[i]? = some (.error f)) := by
  constructor
  · intro d
    exact ⟨Device.isOk_validate_iff_of_le, Device.isOk_validate_iff_of_seven,
      Device.isOk_validate_of_lt⟩
  · intro dump
    refine ⟨List.length_map _, fun i => ⟨fun d => getElem?_probes_eq_ok_iff, ?_, ?_⟩⟩
    · intro d hget
      have hvalid := validate_of_mem_probes (List.mem_of_getElem? hget)
      exact Device.places_ofDevice i (Device.isPort_of_validate hvalid)
    · intro r hr hrefused
      exact exists_fault_of_refused hr hrefused

def deepDevice : Device := ⟨2, [1, 2, 3, 4, 5, 6, 7], 9, .high, [⟨1, [⟨3, 0, 0⟩]⟩]⟩

/-- A device whose path starts with a zero, a failed one, and one at the seventh level. -/
def mixedDump : Dump :=
  ⟨[.device ⟨1, [0, 3], 4, .full, []⟩, .failed (some 1) none "Access denied", .device deepDevice],
    .empty, .empty⟩

theorem probes_placed_mixedDump :
    (∃ f, mixedDump.probes[0]? = some (.error f)) ∧
      (∃ f, mixedDump.probes[1]? = some (.error f)) ∧
      mixedDump.probes[2]? = some (.ok deepDevice) ∧
      (Entry.ofDevice .registered mixedDump.sideData 2 deepDevice).Places mixedDump.sideData
        deepDevice := by
  obtain ⟨hpath, hdump⟩ := probes_placed .registered mixedDump.sideData
  obtain ⟨-, hat⟩ := hdump mixedDump
  have hzero : (⟨1, [0, 3], 4, .full, []⟩ : Device).validate.isOk = false := by
    rw [Bool.eq_false_iff, ne_eq, (hpath _).1 (by decide)]
    decide
  have hdeep : deepDevice.validate.isOk = true :=
    ((hpath deepDevice).2.1 rfl).2 ⟨by decide, 7, rfl, by decide⟩
  have hprobed : mixedDump.probes[2]? = some (.ok deepDevice) :=
    ((hat 2).1 deepDevice).2 ⟨rfl, hdeep⟩
  refine ⟨(hat 0).2.2 _ rfl ?_, (hat 1).2.2 _ rfl nofun, hprobed, (hat 2).2.1 _ hprobed⟩
  rintro d h
  cases h
  exact hzero

end Dump

end UsbTopology
