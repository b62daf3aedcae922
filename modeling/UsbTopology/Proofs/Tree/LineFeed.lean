import UsbTopology.Proofs.Dump.Probes
import UsbTopology.Proofs.Tree.Arrangement

set_option autoImplicit false

/-!
# Line feeds in names

Names of drivers and classes are shown as they are. A tree has a line for each root hub and each
interface, and one more for every line feed in a name that it shows; without line feeds in names its
lines are whole, marked and in their place (`lines_build_dump`).
-/
namespace UsbTopology

namespace Device

variable (names : ClassNames) (side : SideData) (d : Device)

theorem feeds_of_unbroken {s : String} (h : Unbroken s) : Text.feeds s = 0 := List.count_eq_zero.2 h

theorem feeds_lineEnd (middle driver : String) :
    Text.feeds (d.lineEnd middle driver) = Text.feeds middle + Text.feeds driver + 1 := by
  have hend : Text.feeds "M\n" = 1 := by decide
  simp (disch := decide) only [lineEnd, Text.feeds_append, feeds_of_unbroken,
    feeds_of_unbroken (unbroken_byteText d.address), feeds_of_unbroken (unbroken_rate d.speed),
    hend]
  omega

theorem feeds_withPorts (driver : String) (count? : Option UInt8) :
    Text.feeds (withPorts driver count?) = Text.feeds driver := by
  simp (disch := decide) only [withPorts, Text.feeds_append, feeds_of_unbroken,
    feeds_of_unbroken (unbroken_byteText (count?.getD 0)), Nat.add_zero]

theorem feeds_getD {default : String} (name? : Option String) (h : Unbroken default) :
    Text.feeds (name?.getD default) = Text.feeds (String.join name?.toList) := by
  cases name? with
  | none => exact feeds_of_unbroken h
  | some s => simp

theorem feeds_rootHubLine : Text.feeds (d.rootHubLine side) =
    Text.feeds (String.join (side.driver d.location 0).toList) + 1 := by
  have hunknown : Unbroken unknownDriver := by decide
  simp (disch := decide) only [rootHubLine, Text.feeds_append, feeds_of_unbroken, feeds_lineEnd,
    feeds_withPorts, feeds_of_unbroken (unbroken_branch d.location),
    feeds_of_unbroken (unbroken_twoDigits d.bus), feeds_of_unbroken (unbroken_portDigit d.location),
    feeds_getD _ hunknown]
  omega

theorem feeds_interfaceLine (number : UInt8) (i : Interface) :
    Text.feeds (d.interfaceLine names side number i) = Text.feeds (String.join
      ((names i.baseClass).toList ++ (side.driver d.location number).toList)) + 1 := by
  have hunknown : Unbroken unknownDriver := by decide
  have hempty : Unbroken "" := by decide
  have hshown : ∀ driver : String, Text.feeds (if i.classCode.isHub then
      withPorts driver (side.portCount d.location) else driver) = Text.feeds driver := by
    intro driver
    split
    · exact feeds_withPorts driver _
    · rfl
  simp (disch := decide) only [interfaceLine, Text.feeds_append, feeds_of_unbroken, feeds_lineEnd,
    hshown, feeds_of_unbroken (unbroken_branch d.location),
    feeds_of_unbroken (unbroken_byteText number), feeds_of_unbroken (unbroken_portDigit d.location),
    feeds_getD _ hunknown, feeds_getD _ hempty, String.join_append]
  omega

theorem feeds_join_interfaceLines (numbered : List (UInt8 × Interface)) :
    Text.feeds (String.join (numbered.map fun i => d.interfaceLine names side i.1 i.2)) =
      numbered.length + Text.feeds (String.join (numbered.flatMap fun i =>
        (names i.2.baseClass).toList ++ (side.driver d.location i.1).toList)) := by
  induction numbered with
  | nil => rfl
  | cons i numbered ih =>
    rw [List.map_cons, String.join_cons, Text.feeds_append, feeds_interfaceLine, ih,
      List.flatMap_cons, List.length_cons]
    simp only [String.join_append, Text.feeds_append]
    omega

theorem feeds_render : Text.feeds (d.render names side) =
    (d.renderedLines names side).length +
      Text.feeds (String.join (d.resolvedNames names side)) := by
  unfold render renderedLines resolvedNames
  split
  · rw [feeds_rootHubLine, List.length_singleton, Nat.add_comm]
  · rw [feeds_join_interfaceLines, List.length_map]

theorem closed_lineEnd (start middle driver : String) :
    Text.Closed (start ++ d.lineEnd middle driver) := by
  refine .inr ?_
  rw [lineEnd, ← String.append_assoc, String.toList_append, List.getLast?_append]
  rfl

theorem closed_render : Text.Closed (d.render names side) := by
  rw [render_eq_join]
  apply Text.closed_join
  intro t ht
  unfold renderedLines at ht
  split at ht
  · obtain rfl := List.mem_singleton.1 ht
    exact d.closed_lineEnd _ _ _
  · obtain ⟨i, -, rfl⟩ := List.mem_map.1 ht
    exact d.closed_lineEnd _ _ _

end Device

/-- How many lines devices have: one for each root hub, and one for each interface of each
configuration of any other device. -/
def lineCount (devices : List Device) : Nat :=
  (devices.filter fun d => d.ports = []).length +
    ((devices.filter fun d => d.ports ≠ []).flatMap fun d =>
      d.configurations.flatMap Configuration.interfaces).length

theorem lineCount_cons (d : Device) (devices : List Device) :
    lineCount (d :: devices) = lineCount [d] + lineCount devices := by
  unfold lineCount
  by_cases h : d.ports = []
  · simp [h]
    omega
  · simp [h]
    omega

theorem length_numberedInterfaces (d : Device) :
    d.numberedInterfaces.length = (d.configurations.flatMap Configuration.interfaces).length := by
  simp [Device.numberedInterfaces, List.length_flatMap]

section

variable (names : ClassNames) (side : SideData)

theorem length_renderedLines {d : Device} (h : d.isRootHub = true ↔ d.ports = []) :
    (d.renderedLines names side).length = lineCount [d] := by
  have hdepth : d.location.depth = 0 ↔ d.ports = [] := by
    rw [← h, Device.isRootHub, Location.isRootHub, beq_iff_eq]
  unfold Device.renderedLines lineCount
  by_cases hports : d.ports = []
  · simp [hdepth.2 hports, hports]
  · rw [if_neg (mt hdepth.1 hports), List.length_map, length_numberedInterfaces]
    simp [hports]

theorem feeds_join_render {devices : List Device}
    (h : ∀ d ∈ devices, d.isRootHub = true ↔ d.ports = []) :
    Text.feeds (String.join (devices.map (Device.render names side))) = lineCount devices +
      Text.feeds (String.join (devices.flatMap (Device.resolvedNames names side))) := by
  induction devices with
  | nil => rfl
  | cons d devices ih =>
    rw [List.map_cons, String.join_cons, Text.feeds_append, Device.feeds_render,
      length_renderedLines names side (h d (by simp)), ih fun e he => h e (by simp [he]),
      lineCount_cons d devices, List.flatMap_cons, String.join_append, Text.feeds_append]
    omega

end

namespace Location

/-- How a line of a place starts, up to the first thing that depends on the device. -/
def lineMark (l : Location) : String :=
  if l.depth = 0 then "/:  Bus "
  else String.ofList (List.replicate (4 * l.depth) ' ') ++ "|__ Port "

theorem lineMark_prefix (d : Device) : d.location.lineMark.toList <+: d.lineHead.toList := by
  unfold lineMark Device.lineHead branch
  split
  · refine ⟨(twoDigits d.bus ++ ".Port " ++ d.location.portDigit ++ ": ").toList, ?_⟩
    simp
  · refine ⟨(d.location.portDigit ++ ": ").toList, ?_⟩
    simp

theorem exists_mem_lineMark (l : Location) : ∃ c ∈ l.lineMark.toList, c.isWhitespace = false := by
  unfold lineMark
  split
  · exact ⟨'/', by simp, rfl⟩
  · exact ⟨'|', by simp, rfl⟩

end Location

namespace Tree

variable (names : ClassNames) (side : SideData)

theorem texts_build_perm (probes : List Probe) :
    ((build names side probes).entries.map Entry.text).Perm
      ((probedDevices probes).map (Device.render names side)) := by
  have hperm : (build names side probes).entries.Perm (entriesOf names side probes) :=
    Entry.arrange_perm _
  have htexts := hperm.map Entry.text
  rw [entriesOf_eq_map, List.map_map] at htexts
  rwa [← map_fst_indexedDevices, List.map_map]

theorem length_lines_build {probes : List Probe}
    (h : ∀ d, .ok d ∈ probes → d.validate = .ok d) :
    (build names side probes).lines.length = lineCount (probedDevices probes) +
      Text.feeds (String.join
        ((probedDevices probes).flatMap (Device.resolvedNames names side))) := by
  have hclosed : ∀ t ∈ (build names side probes).entries.map Entry.text, Text.Closed t := by
    intro t ht
    obtain ⟨e, he, rfl⟩ := List.mem_map.1 ht
    obtain ⟨i, d, -, rfl⟩ := (mem_entries_build names side).1 he
    exact d.closed_render names side
  have hroot : ∀ d ∈ probedDevices probes, d.isRootHub = true ↔ d.ports = [] := fun d hd =>
    Device.isRootHub_iff_of_validate (h d (mem_probedDevices.1 hd))
  -- No entry leaves a line open, so the lines are as many as the line feeds, and those do not
  -- depend on the order of the entries.
  rw [lines, ← List.flatMap_map, Text.length_flatMap_lines hclosed,
    Text.feeds_join_perm (texts_build_perm names side probes), feeds_join_render names side hroot]

section

variable {names side} {d : Device} (hnames : ∀ s ∈ d.resolvedNames names side, Unbroken s)
include hnames

theorem lineMark_prefix_of_mem_lines {line : String}
    (h : line ∈ Text.lines (d.render names side)) :
    d.location.lineMark.toList <+: line.toList := by
  rw [Device.lines_render hnames] at h
  obtain ⟨t, ht, rfl⟩ := List.mem_map.1 h
  obtain ⟨rest, hrest⟩ := Device.chomp_renderedLine hnames ht
  rw [hrest]
  exact (Location.lineMark_prefix d).trans (List.prefix_append _ _)

theorem join_lines_render :
    String.join ((Text.lines (d.render names side)).map (· ++ "\n")) = d.render names side := by
  rw [Device.lines_render hnames, List.map_map, Device.render_eq_join]
  refine congrArg String.join ?_
  calc (d.renderedLines names side).map ((· ++ "\n") ∘ Text.chomp)
      = (d.renderedLines names side).map id := List.map_congr_left fun t ht =>
        Text.chomp_append_feed (Device.terminated_renderedLines hnames t ht)
    _ = d.renderedLines names side := List.map_id _

end

end Tree

def Dump.validDevices (dump : Dump) : List Device :=
  dump.devices.filterMap fun r => match r with
    | .device d => if d.validate.isOk then some d else none
    | .failed .. => none

theorem Dump.probedDevices_probes (dump : Dump) :
    probedDevices dump.probes = dump.validDevices := by
  rw [probedDevices, probes, List.filterMap_map, validDevices]
  refine List.filterMap_congr fun r _ => ?_
  cases r with
  | failed bus address error => rfl
  | device d =>
    change d.validate.toOption = if d.validate.isOk = true then some d else none
    cases h : d.validate with
    | ok e => rw [Device.eq_of_validate_eq_ok h]; rfl
    | error f => rfl

namespace Tree

/-- The tree of a dump has one line for each root hub and one for each interface of the other
devices exactly if no name that it shows holds a line feed; each line feed makes one line more.
Without them every line starts with the mark of its place, and the lines with their line feeds are
the whole text. -/
theorem lines_build_dump (names : ClassNames) (dump : Dump) :
    let tree := build names dump.sideData dump.probes
    let shown := dump.validDevices.flatMap (Device.resolvedNames names dump.sideData)
    tree.lines.length = lineCount dump.validDevices + Text.feeds (String.join shown) ∧
    (tree.lines.length = lineCount dump.validDevices ↔ ∀ s ∈ shown, Unbroken s) ∧
    ((∀ s ∈ shown, Unbroken s) →
      (∀ e ∈ tree.entries, ∀ line ∈ Text.lines e.text,
        e.location.lineMark.toList <+: line.toList ∧ ∃ c ∈ line.toList, c.isWhitespace = false) ∧
      String.join (tree.lines.map (· ++ "\n")) = tree.text) := by
  intro tree shown
  have hlength : tree.lines.length =
      lineCount dump.validDevices + Text.feeds (String.join shown) := by
    have h := length_lines_build names dump.sideData fun d (hd : .ok d ∈ dump.probes) =>
      Dump.validate_of_mem_probes hd
    rwa [Dump.probedDevices_probes] at h
  refine ⟨hlength, ?_, fun hshown => ?_⟩
  · rw [hlength, Nat.add_eq_left]
    exact Text.feeds_join_eq_zero_iff
  · have hnames : ∀ (i : Nat) (d : Device), dump.probes[i]? = some (.ok d) →
        ∀ s ∈ d.resolvedNames names dump.sideData, Unbroken s := by
      intro i d hget s hs
      have hd : d ∈ dump.validDevices := by
        rw [← Dump.probedDevices_probes]
        exact mem_probedDevices.2 (List.mem_of_getElem? hget)
      exact hshown s (List.mem_flatMap.2 ⟨d, hd, hs⟩)
    constructor
    · intro e he line hline
      obtain ⟨i, d, hget, rfl⟩ := (mem_entries_build names dump.sideData).1 he
      have hmark := lineMark_prefix_of_mem_lines (hnames i d hget) hline
      obtain ⟨c, hc, hblank⟩ := d.location.exists_mem_lineMark
      exact ⟨hmark, c, hmark.subset hc, hblank⟩
    · rw [lines, List.map_flatMap, Text.join_flatMap, text]
      refine congrArg String.join (List.map_congr_left fun e he => ?_)
      obtain ⟨i, d, hget, rfl⟩ := (mem_entries_build names dump.sideData).1 he
      exact join_lines_render (hnames i d hget)

def loneHub (driver : String) : Dump :=
  ⟨[.device ⟨1, [], 1, .high, []⟩], .ofList [("usb1", driver)], .empty⟩

theorem lines_build_dump_loneHub :
    let lines driver :=
      (build .registered (loneHub driver).sideData (loneHub driver).probes).lines
    (lines "xhci_hcd").length = 1 ∧
      lineCount (loneHub "a\n/:  Bus 02.Port 1: Dev 1").validDevices = 1 ∧
      (lines "a\n/:  Bus 02.Port 1: Dev 1").length = 2 := by
  obtain ⟨-, htame, -⟩ := lines_build_dump .registered (loneHub "xhci_hcd")
  obtain ⟨hforged, -, -⟩ :=
    lines_build_dump .registered (loneHub "a\n/:  Bus 02.Port 1: Dev 1")
  have hcount : lineCount (loneHub "a\n/:  Bus 02.Port 1: Dev 1").validDevices = 1 := by decide
  refine ⟨htame.2 (by decide), hcount, hforged.trans ?_⟩
  rw [hcount]
  decide

end Tree

end UsbTopology
