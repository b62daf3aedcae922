import UsbTopology.Proofs.Device
import UsbTopology.Proofs.FileSystem.Path
import UsbTopology.Proofs.Location.Decoding
import UsbTopology.Proofs.Text.Utf8

set_option autoImplicit false

/-!
# Nodes of a directory

The nodes of all devices and interfaces stand side by side in one directory. Every node name is the
name of an entry of this directory, and a name tells which bus, path and interface it was made for.
-/
namespace UsbTopology

/-- A text that names an entry of a directory: no other directory is entered or left by it. -/
structure IsEntryName (name : String) : Prop where
  ne_empty : name ≠ ""
  slash : '/' ∉ name.toList
  ne_dot : name ≠ "."
  ne_dotDot : name ≠ ".."

/-- The path leads into the directory and one step further, by the name. -/
structure Path.LeadsTo (p directory : Path) (name : FileName) : Prop where
  isAbsolute : p.isAbsolute = directory.isAbsolute
  steps : p.steps = directory.steps ++ [name]
  ne_dotDot : name ≠ dotDot

theorem IsEntryName.leadsTo {name : String} (h : IsEntryName name) (directory : Path) :
    (directory.join (.ofString name)).LeadsTo directory (Text.encode name) := by
  have hslash : Path.slash ∉ Text.encode name := fun hmem =>
    h.slash (Text.mem_toList_of_mem_encode hmem (by decide))
  have hblank : Path.isBlank (Text.encode name) = false := by
    have hempty : Text.encode name ≠ [] := fun he =>
      h.ne_empty (Text.encode_injective (t := "") he)
    have hdot : Text.encode name ≠ Path.dot := fun he =>
      h.ne_dot (Text.encode_injective (t := ".") he)
    simp [Path.isBlank, hempty, hdot]
  refine ⟨Path.isAbsolute_join hslash, Path.steps_join hslash hblank, fun he => ?_⟩
  exact h.ne_dotDot (Text.encode_injective (t := "..") he)

theorem isEntryName_of_head {name : String} {c : Char} {rest : List Char}
    (hname : name.toList = c :: rest) (hc : c ≠ '.') (hslash : '/' ∉ name.toList) :
    IsEntryName name := by
  refine ⟨?_, hslash, ?_, ?_⟩
  · rintro rfl
    cases hname
  · rintro rfl
    exact hc (List.cons.inj hname).1.symm
  · rintro rfl
    exact hc (List.cons.inj hname).1.symm

theorem slash_notMem_byteText (b : UInt8) : '/' ∉ (byteText b).toList := fun h =>
  absurd (isDigit_of_mem_byteText h) (by decide)

theorem slash_notMem_portPath (bus : UInt8) (ports : List UInt8) :
    '/' ∉ (portPath bus ports).toList := by
  have hdotted : '/' ∉ (".".intercalate (ports.map byteText)).toList := by
    cases ports with
    | nil => simp
    | cons p ports =>
      rw [toList_dotted_cons, List.mem_append, not_or]
      refine ⟨slash_notMem_byteText p, fun hmem => ?_⟩
      obtain ⟨q, -, hq⟩ := List.mem_flatMap.1 hmem
      exact absurd ((List.mem_cons.1 hq).resolve_left (by decide)) (slash_notMem_byteText q)
  rw [toList_portPath, List.mem_append, List.mem_cons]
  rintro (hmem | hmem | hmem)
  · exact slash_notMem_byteText bus hmem
  · exact absurd hmem (by decide)
  · exact hdotted hmem

theorem head_portPath (bus : UInt8) (ports : List UInt8) :
    ∃ c rest, (portPath bus ports).toList = c :: rest ∧ c ≠ '.' := by
  obtain ⟨c, rest, hc, hdigit⟩ := exists_cons_byteText bus
  refine ⟨c, _, by rw [toList_portPath, hc]; rfl, ?_⟩
  rintro rfl
  exact absurd hdigit (by decide)

theorem isEntryName_deviceName (bus : UInt8) (ports : List UInt8) :
    IsEntryName (deviceName bus ports) := by
  cases ports with
  | nil =>
    have hname : (deviceName bus []).toList = 'u' :: 's' :: 'b' :: (byteText bus).toList := by
      simp [deviceName]
    refine isEntryName_of_head hname (by decide) ?_
    rw [hname]
    simpa using slash_notMem_byteText bus
  | cons p ports =>
    obtain ⟨c, rest, hhead, hc⟩ := head_portPath bus (p :: ports)
    exact isEntryName_of_head hhead hc (slash_notMem_portPath bus (p :: ports))

theorem isEntryName_interfaceName (bus : UInt8) (ports : List UInt8) (c i : UInt8) :
    IsEntryName (interfaceName bus ports c i) := by
  obtain ⟨d, rest, hhead, hd⟩ := head_portPath bus ports
  have hname := toList_interfaceName bus ports c i
  rw [hhead] at hname
  refine isEntryName_of_head hname hd ?_
  rw [toList_interfaceName, List.mem_append, List.mem_cons, List.mem_append, List.mem_cons]
  rintro (hmem | hmem | hmem | hmem | hmem)
  · exact slash_notMem_portPath bus ports hmem
  · exact absurd hmem (by decide)
  · exact slash_notMem_byteText c hmem
  · exact absurd hmem (by decide)
  · exact slash_notMem_byteText i hmem

theorem deviceName_eq_iff {a b : UInt8} {P Q : List UInt8} :
    deviceName a P = deviceName b Q ↔ a = b ∧ P = Q := by
  constructor
  · exact deviceName_inj
  · rintro ⟨rfl, rfl⟩
    rfl

theorem interfaceName_eq_iff {a b c c' i i' : UInt8} {P Q : List UInt8} :
    interfaceName a P c i = interfaceName b Q c' i' ↔ a = b ∧ P = Q ∧ c = c' ∧ i = i' := by
  constructor
  · exact interfaceName_inj
  · rintro ⟨rfl, rfl, rfl, rfl⟩
    rfl

namespace Location

theorem isEntryName_driverNode (l : Location) (i : UInt8) : IsEntryName (l.driverNode i) := by
  unfold driverNode
  split
  · exact isEntryName_deviceName _ _
  · exact isEntryName_interfaceName _ _ _ _

theorem driverNode_eq_iff {l m : Location} {i j : UInt8} :
    l.driverNode i = m.driverNode j ↔
      l.bus = m.bus ∧ l.ports = m.ports ∧ (l.isRootHub = true ∨ i = j) := by
  constructor
  · exact driverNode_inj
  · rintro ⟨hbus, hports, hsame⟩
    have halike := alike_of_ports_eq hbus hports
    rw [← halike.driverNode j]
    rcases hsame with hroot | rfl
    · rw [driverNode, driverNode, if_pos hroot, if_pos hroot]
    · rfl

/-- Names of nodes tell bus, path and interface apart, each is the name of an entry of the directory
of nodes, and up to the sixth level a device has the names of the ports that it was given. -/
theorem nodes_apart :
    (∀ l m : Location, l.deviceName = m.deviceName ↔ l.bus = m.bus ∧ l.ports = m.ports) ∧
    (∀ (l m : Location) (i j : UInt8), l.driverNode i = m.driverNode j ↔
      l.bus = m.bus ∧ l.ports = m.ports ∧ (l.isRootHub = true ∨ i = j)) ∧
    (∀ (a b : UInt8) (P Q : List UInt8),
      UsbTopology.deviceName a P = UsbTopology.deviceName b Q ↔ a = b ∧ P = Q) ∧
    (∀ (a b c c' i i' : UInt8) (P Q : List UInt8),
      UsbTopology.interfaceName a P c i = UsbTopology.interfaceName b Q c' i' ↔
        a = b ∧ P = Q ∧ c = c' ∧ i = i') ∧
    (∀ (l : Location) (c i : UInt8),
      ∀ name ∈ [l.deviceName, l.interfaceName c i, l.driverNode i], IsEntryName name ∧
        ∀ root : Path, (root.join (.ofString name)).LeadsTo root (Text.encode name)) ∧
    (∀ d : Device, d.validate = .ok d → d.ports.length ≤ 6 →
      d.location.deviceName = UsbTopology.deviceName d.bus d.ports ∧
      ∀ c i, d.location.interfaceName c i = UsbTopology.interfaceName d.bus d.ports c i) := by
  refine ⟨fun l m => deviceName_eq_iff, fun l m i j => driverNode_eq_iff,
    fun a b P Q => deviceName_eq_iff, fun a b c c' i i' P Q => interfaceName_eq_iff, ?_, ?_⟩
  · intro l c i name hname
    have hentry : IsEntryName name := by
      simp only [List.mem_cons, List.not_mem_nil, or_false] at hname
      rcases hname with rfl | rfl | rfl
      · exact isEntryName_deviceName _ _
      · exact isEntryName_interfaceName _ _ _ _
      · exact isEntryName_driverNode l i
    exact ⟨hentry, hentry.leadsTo⟩
  · intro d hvalid hlen
    have hbus : d.location.bus = d.bus := bus_encode d.bus d.ports
    have hports : d.location.ports = d.ports :=
      (Device.isOk_validate_iff_of_le hlen).1 (Device.isOk_validate.2 hvalid)
    refine ⟨?_, fun c i => ?_⟩
    · rw [Location.deviceName, hbus, hports]
    · rw [Location.interfaceName, hbus, hports]

def innerDevice : Device := ⟨3, [1, 3, 13, 1, 15, 2], 8, .high, [⟨1, [⟨8, 6, 80⟩]⟩]⟩

theorem nodes_apart_innerDevice :
    innerDevice.validate = .ok innerDevice ∧ innerDevice.ports.length ≤ 6 ∧
      innerDevice.location.interfaceName 1 2 =
        UsbTopology.interfaceName 3 [1, 3, 13, 1, 15, 2] 1 2 ∧
      ((Path.ofString "sys").join (.ofString innerDevice.location.deviceName)).LeadsTo
        (.ofString "sys") (Text.encode innerDevice.location.deviceName) := by
  obtain ⟨-, -, -, -, hentry, hgiven⟩ := nodes_apart
  have hvalid : innerDevice.validate = .ok innerDevice := by decide
  have hlevel : innerDevice.ports.length ≤ 6 := by decide
  refine ⟨hvalid, hlevel, (hgiven innerDevice hvalid hlevel).2 1 2, ?_⟩
  exact (hentry innerDevice.location 1 2 _ (by simp)).2 _

end Location

end UsbTopology
