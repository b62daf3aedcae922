import UsbTopology.Proofs.Dump.Probes
import UsbTopology.Proofs.Location.Node
import UsbTopology.Proofs.Tree.Frame
import UsbTopology.Proofs.Tree.Arrangement

set_option autoImplicit false

/-!
# Edited side data

An entry of a table of a dump is read by the lines of one place only. Whatever is done to the driver
of a node, the tree stays as it is but for the lines of one interface number at one location, and
whatever is done to a number of ports, but for the lines of hubs at one location; an entry under any
other name is never read (`tree_edited`).
-/
namespace UsbTopology

namespace Table

section

variable {κ ν : Type} [DecidableEq κ] [LT κ] [LE κ] [DecidableLT κ] [Std.IsLinearOrder κ]
  [Std.LawfulOrderLT κ]

def set (t : Table κ ν) (k : κ) : Option ν → Table κ ν
  | some v => t.insert k v
  | none => t.erase k

theorem get?_set (t : Table κ ν) (k q : κ) (v? : Option ν) :
    (t.set k v?).get? q = if q = k then v? else t.get? q := by
  cases v? with
  | none => exact get?_erase t k q
  | some v => exact get?_insert t k q v

theorem get?_set_of_ne (t : Table κ ν) {k q : κ} (h : q ≠ k) (v? : Option ν) :
    (t.set k v?).get? q = t.get? q := by
  rw [get?_set, if_neg h]

end

end Table

namespace Dump

def tree (names : ClassNames) (d : Dump) : Tree := .build names d.sideData d.probes

def setDriver (d : Dump) (node : String) (driver? : Option String) : Dump :=
  { d with drivers := d.drivers.set node driver? }

def setPortCount (d : Dump) (name : String) (count? : Option UInt8) : Dump :=
  { d with portCounts := d.portCounts.set name count? }

theorem devices_setDriver (d : Dump) (node : String) (driver? : Option String) :
    (d.setDriver node driver?).devices = d.devices := rfl

theorem devices_setPortCount (d : Dump) (name : String) (count? : Option UInt8) :
    (d.setPortCount name count?).devices = d.devices := rfl

end Dump

/-- What a line is made for: a root hub, or an interface under its number. -/
inductive LineSubject where
  | rootHub
  | interface (number : UInt8) (interface : Interface)
deriving DecidableEq, Repr

namespace LineSubject

def number : LineSubject → UInt8
  | .rootHub => 0
  | .interface number _ => number

def showsPorts : LineSubject → Prop
  | .rootHub => True
  | .interface _ i => i.baseClass = 9

end LineSubject

namespace Device

variable (names : ClassNames) (side side' : SideData) (d : Device)

def subjects : List LineSubject :=
  if d.location.depth = 0 then [.rootHub]
  else d.numberedInterfaces.map fun i => .interface i.1 i.2

def line : LineSubject → String
  | .rootHub => d.rootHubLine side
  | .interface number i => d.interfaceLine names side number i

theorem render_eq_join_subjects :
    d.render names side = String.join (d.subjects.map (d.line names side)) := by
  unfold render subjects
  split
  · simp [line]
  · rw [List.map_map]
    rfl

variable {names side side' d}

theorem line_congr {subject : LineSubject}
    (hdriver : side'.driver d.location subject.number = side.driver d.location subject.number)
    (hcount : subject.showsPorts → side'.portCount d.location = side.portCount d.location) :
    d.line names side' subject = d.line names side subject := by
  cases subject with
  | rootHub => exact rootHubLine_congr (hcount trivial) hdriver
  | interface number i =>
    have hhub : i.classCode.isHub = true → side'.portCount d.location = side.portCount d.location :=
      fun h => hcount ((ClassCode.isHub_ofId i.baseClass).1 h)
    change side'.driver d.location number = side.driver d.location number at hdriver
    simp only [line, interfaceLine, hdriver]
    split
    · next h => rw [hhub h]
    · rfl

end Device

namespace Dump

/-- The trees show the same failures and the same devices in the same order, and a line of a device
is the same in both unless it is one of those that the edit reaches. -/
structure SameTreeBut (names : ClassNames) (d d' : Dump) (Reached : Location → LineSubject → Prop) :
    Prop where
  faults : (d'.tree names).faults = (d.tree names).faults
  places : (d'.tree names).entries.map (fun e => (e.location, e.index)) =
    (d.tree names).entries.map fun e => (e.location, e.index)
  lines : ∀ (n : Nat) (e e' : Entry), (d.tree names).entries[n]? = some e →
    (d'.tree names).entries[n]? = some e' → ∃ device : Device,
      d.probes[e.index]? = some (.ok device) ∧ device.location = e.location ∧
      e.text = String.join (device.subjects.map (device.line names d.sideData)) ∧
      e'.text = String.join (device.subjects.map (device.line names d'.sideData)) ∧
      ∀ subject ∈ device.subjects, ¬ Reached e.location subject →
        device.line names d'.sideData subject = device.line names d.sideData subject

variable {names : ClassNames} {d d' : Dump}

theorem sameTreeBut_of_lines (hdevices : d'.devices = d.devices)
    {Reached : Location → LineSubject → Prop}
    (hline : ∀ (device : Device) (subject : LineSubject), ¬ Reached device.location subject →
      device.line names d'.sideData subject = device.line names d.sideData subject) :
    SameTreeBut names d d' Reached := by
  have hprobes : d'.probes = d.probes := congrArg (List.map Record.probe) hdevices
  refine ⟨?_, ?_, ?_⟩
  · exact congrArg Tree.faultsOf hprobes
  · rw [tree, tree, hprobes, Tree.entries_build, Tree.entries_build, List.map_map, List.map_map]
    simp only [Function.comp_def, Entry.ofDevice]
  · intro n e e' he he'
    rw [tree, Tree.entries_build, List.getElem?_map, Option.map_eq_some_iff] at he
    rw [tree, hprobes, Tree.entries_build, List.getElem?_map, Option.map_eq_some_iff] at he'
    obtain ⟨⟨device, i⟩, hat, rfl⟩ := he
    obtain ⟨p, hat', rfl⟩ := he'
    obtain rfl : (device, i) = p := Option.some.inj (hat.symm.trans hat')
    have hprobed : d.probes[i]? = some (.ok device) :=
      Tree.mem_arrangedDevices.1 (List.mem_of_getElem? hat)
    exact ⟨device, hprobed, rfl, device.render_eq_join_subjects names d.sideData,
      device.render_eq_join_subjects names d'.sideData, fun subject _ => hline device subject⟩

theorem tree_eq_of_lines (hdevices : d'.devices = d.devices)
    (hline : ∀ (device : Device) (subject : LineSubject),
      device.line names d'.sideData subject = device.line names d.sideData subject) :
    d'.tree names = d.tree names := by
  have hprobes : d'.probes = d.probes := congrArg (List.map Record.probe) hdevices
  have hrender : ∀ device : Device,
      device.render names d'.sideData = device.render names d.sideData := by
    intro device
    rw [Device.render_eq_join_subjects, Device.render_eq_join_subjects]
    exact congrArg String.join (List.map_congr_left fun subject _ => hline device subject)
  have hentries : (d'.tree names).entries = (d.tree names).entries := by
    rw [tree, tree, hprobes, Tree.entries_build, Tree.entries_build]
    refine List.map_congr_left fun p _ => ?_
    rw [Entry.ofDevice, Entry.ofDevice, hrender]
  have hfaults : (d'.tree names).faults = (d.tree names).faults :=
    congrArg Tree.faultsOf hprobes
  exact congrArg₂ Tree.mk hentries hfaults

variable (names d)

theorem line_setDriver (driver? : Option String) {node : String} {device : Device}
    {subject : LineSubject} (h : device.location.driverNode subject.number ≠ node) :
    device.line names (d.setDriver node driver?).sideData subject =
      device.line names d.sideData subject := by
  apply Device.line_congr
  · exact Table.get?_set_of_ne d.drivers h driver?
  · exact fun _ => rfl

theorem line_setPortCount (count? : Option UInt8) {name : String} {device : Device}
    {subject : LineSubject} (h : subject.showsPorts → device.location.deviceName ≠ name) :
    device.line names (d.setPortCount name count?).sideData subject =
      device.line names d.sideData subject := by
  apply Device.line_congr
  · rfl
  · exact fun hports => Table.get?_set_of_ne d.portCounts (h hports) count?

/-- An entry of side data reaches the lines of one place. The driver of a node is shown by the lines
of one interface number at one location, the number of ports by the hubs at one location, and what
stands under any other name is not shown. -/
theorem tree_edited (s : String) :
    (∀ driver? : Option String,
      (∀ (l : Location) (i : UInt8), l.driverNode i = s →
        SameTreeBut names d (d.setDriver s driver?) fun m subject =>
          m.bus = l.bus ∧ m.ports = l.ports ∧ (l.isRootHub = true ∨ subject.number = i)) ∧
      ((∀ (l : Location) (i : UInt8), l.driverNode i ≠ s) →
        (d.setDriver s driver?).tree names = d.tree names)) ∧
    (∀ count? : Option UInt8,
      (∀ l : Location, l.deviceName = s →
        SameTreeBut names d (d.setPortCount s count?) fun m subject =>
          m.bus = l.bus ∧ m.ports = l.ports ∧ subject.showsPorts) ∧
      ((∀ l : Location, l.deviceName ≠ s) →
        (d.setPortCount s count?).tree names = d.tree names)) := by
  refine ⟨fun driver? => ⟨?_, ?_⟩, fun count? => ⟨?_, ?_⟩⟩
  · intro l i hl
    refine sameTreeBut_of_lines (d.devices_setDriver s driver?) fun device subject hreached => ?_
    refine line_setDriver names d driver? fun hnode => hreached ?_
    obtain ⟨hbus, hports, hnumber⟩ := Location.driverNode_eq_iff.1 (hl.trans hnode.symm)
    exact ⟨hbus.symm, hports.symm, hnumber.imp_right Eq.symm⟩
  · intro hnone
    exact tree_eq_of_lines (d.devices_setDriver s driver?) fun device subject =>
      line_setDriver names d driver? (hnone _ _)
  · intro l hl
    refine sameTreeBut_of_lines (d.devices_setPortCount s count?) fun device subject hreached => ?_
    refine line_setPortCount names d count? fun hports hname => hreached ?_
    obtain ⟨hbus, hpath⟩ := deviceName_eq_iff.1 (hl.trans hname.symm)
    exact ⟨hbus.symm, hpath.symm, hports⟩
  · intro hnone
    exact tree_eq_of_lines (d.devices_setPortCount s count?) fun device subject =>
      line_setPortCount names d count? fun _ => hnone _

def hubDump : Dump :=
  ⟨[.device ⟨1, [], 1, .high, []⟩, .device ⟨1, [4], 2, .high, [⟨1, [⟨9, 0, 0⟩, ⟨8, 6, 80⟩]⟩]⟩],
    .ofList [("usb1", "xhci_hcd"), ("1-4:1.0", "hub")], .ofList [("usb1", 8)]⟩

theorem tree_edited_hubDump :
    (SameTreeBut .registered hubDump (hubDump.setDriver "1-4:1.1" (some "uas"))
      fun m subject => m.bus = 1 ∧ m.ports = [4] ∧ subject.number = 1) ∧
    (hubDump.setDriver "1-4:2.0" (some "uas")).tree .registered = hubDump.tree .registered ∧
    (SameTreeBut .registered hubDump (hubDump.setPortCount "usb1" none)
      fun m subject => m.bus = 1 ∧ m.ports = [] ∧ subject.showsPorts) := by
  have hroot : (Location.encode 1 [4]).isRootHub = false := by decide
  -- A node of another configuration is none that a driver is looked up for.
  have hother : ∀ (l : Location) (i : UInt8), l.driverNode i ≠ "1-4:2.0" := by
    intro l i hnode
    change l.driverNode i = interfaceName 1 [4] 2 0 at hnode
    rw [Location.driverNode] at hnode
    split at hnode
    · exact deviceName_ne_interfaceName hnode
    · obtain ⟨-, -, hconfiguration, -⟩ := interfaceName_inj hnode
      exact absurd hconfiguration (by decide)
  obtain ⟨hdriver, -⟩ := tree_edited .registered hubDump "1-4:1.1"
  obtain ⟨hunread, -⟩ := tree_edited .registered hubDump "1-4:2.0"
  obtain ⟨-, hcount⟩ := tree_edited .registered hubDump "usb1"
  refine ⟨?_, (hunread (some "uas")).2 hother, (hcount none).1 (.encode 1 []) (by decide)⟩
  have hsame := (hdriver (some "uas")).1 (.encode 1 [4]) 1 (by decide)
  simp only [hroot, Bool.false_eq_true, false_or] at hsame
  exact hsame

end Dump

end UsbTopology
