import UsbTopology.Proofs.Location.Order
import UsbTopology.Proofs.Text.Decimal
import UsbTopology.Proofs.Text.Line
import UsbTopology.Tree

set_option autoImplicit false

/-!
# The lines of an entry

The text of an entry is made of whole lines as long as the names that are looked up for them hold no
line feed: one line of a root hub, and one line for each interface of any other device.
-/
namespace UsbTopology

def Unbroken (s : String) : Prop := '\n' ∉ s.toList

instance (s : String) : Decidable (Unbroken s) := inferInstanceAs (Decidable ('\n' ∉ s.toList))

theorem Unbroken.append {s t : String} (hs : Unbroken s) (ht : Unbroken t) : Unbroken (s ++ t) := by
  rw [Unbroken, String.toList_append, List.mem_append, not_or]
  exact ⟨hs, ht⟩

theorem unbroken_byteText (b : UInt8) : Unbroken (byteText b) := fun h =>
  absurd (isDigit_of_mem_byteText h) (by decide)

theorem unbroken_twoDigits (b : UInt8) : Unbroken (twoDigits b) := by
  unfold twoDigits
  split
  · exact Unbroken.append (by decide) (unbroken_byteText b)
  · exact unbroken_byteText b

theorem unbroken_rate (v : Speed) : Unbroken v.rate := by cases v <;> decide

theorem unbroken_branch (l : Location) : Unbroken l.branch := by
  unfold Location.branch
  split
  · decide
  · refine Unbroken.append ?_ (by decide)
    rw [Unbroken, String.toList_ofList, List.mem_replicate]
    exact fun h => absurd h.2 (by decide)

theorem hexDigit_ne_feed : ∀ n < 16, Text.hexDigit n ≠ '\n' := by decide

theorem portDigit_lt (l : Location) : (l.port?.getD 1).toNat < 16 := by
  cases h : l.port? with
  | none => decide
  | some p => exact (Location.isPort_of_mem_ports (List.mem_of_getLast? h)).toNat_lt

theorem unbroken_portDigit (l : Location) : Unbroken l.portDigit := by
  rw [Unbroken, Location.portDigit, String.toList_singleton, List.mem_singleton]
  exact (hexDigit_ne_feed _ (portDigit_lt l)).symm

theorem terminated_of_unbroken {s : String} (h : Unbroken s) : Text.Terminated (s ++ "M\n") := by
  refine ⟨s.toList ++ ['M'], by simp, ?_, by simp⟩
  rw [List.mem_append, not_or]
  exact ⟨h, by decide⟩

namespace Device

theorem toNat_number (j : Nat) : (UInt8.ofNat (min j 255)).toNat = min j 255 :=
  UInt8.toNat_ofNat_of_lt' (Nat.lt_of_le_of_lt (Nat.min_le_right _ _) (by decide))

theorem mem_numberedInterfaces {d : Device} {x : UInt8 × Interface} :
    x ∈ d.numberedInterfaces ↔ ∃ c ∈ d.configurations, ∃ j, c.interfaces[j]? = some x.2 ∧
      x.1 = UInt8.ofNat (min j 255) := by
  rw [numberedInterfaces, List.mem_flatMap]
  refine exists_congr fun c => and_congr_right fun _ => ?_
  rw [List.mem_map]
  constructor
  · rintro ⟨⟨i, j⟩, hmem, rfl⟩
    exact ⟨j, List.mk_mem_zipIdx_iff_getElem?.1 hmem, rfl⟩
  · rintro ⟨j, hget, hnumber⟩
    exact ⟨(x.2, j), List.mk_mem_zipIdx_iff_getElem?.2 hget, Prod.ext hnumber.symm rfl⟩

variable (names : ClassNames) (side : SideData) (d : Device)

def renderedLines : List String :=
  if d.location.depth = 0 then [d.rootHubLine side]
  else d.numberedInterfaces.map fun i => d.interfaceLine names side i.1 i.2

/-- The names of classes and drivers that the lines of a device show, as far as they are known. -/
def resolvedNames : List String :=
  if d.location.depth = 0 then (side.driver d.location 0).toList
  else d.numberedInterfaces.flatMap fun i =>
    (names i.2.baseClass).toList ++ (side.driver d.location i.1).toList

def lineHead : String :=
  if d.location.depth = 0 then
    d.location.branch ++ "Bus " ++ twoDigits d.bus ++ ".Port " ++ d.location.portDigit ++ ": "
  else d.location.branch ++ "Port " ++ d.location.portDigit ++ ": "

theorem render_eq_join : d.render names side = String.join (d.renderedLines names side) := by
  unfold render renderedLines
  split
  · simp
  · rfl

theorem unbroken_lineHead : Unbroken d.lineHead := by
  have hbranch := unbroken_branch d.location
  have hport := unbroken_portDigit d.location
  unfold lineHead
  split
  · exact ((((hbranch.append (by decide)).append (unbroken_twoDigits d.bus)).append
      (by decide)).append hport).append (by decide)
  · exact ((hbranch.append (by decide)).append hport).append (by decide)

theorem lineEnd_form {middle driver : String} (hmiddle : Unbroken middle)
    (hdriver : Unbroken driver) :
    ∃ body, Unbroken body ∧ d.lineEnd middle driver = body ++ "M\n" :=
  ⟨_, ((((((Unbroken.append (by decide) (unbroken_byteText d.address)).append (by decide)).append
    hmiddle).append (by decide)).append hdriver).append (by decide)).append (unbroken_rate d.speed),
    rfl⟩

theorem unbroken_withPorts {driver : String} (h : Unbroken driver) (count? : Option UInt8) :
    Unbroken (withPorts driver count?) :=
  ((h.append (by decide)).append (unbroken_byteText _)).append (by decide)

theorem unbroken_getD {name? : Option String} {default : String}
    (h : ∀ s ∈ name?.toList, Unbroken s) (hdefault : Unbroken default) :
    Unbroken (name?.getD default) := by
  cases name? with
  | none => exact hdefault
  | some s => exact h s (by simp)

variable {names side d}

/-- Every line of a device is its head, a text within the line, and the end of the line. -/
theorem renderedLines_form (h : ∀ s ∈ d.resolvedNames names side, Unbroken s) {t : String}
    (ht : t ∈ d.renderedLines names side) :
    ∃ body, Unbroken body ∧ t = d.lineHead ++ (body ++ "M\n") := by
  unfold resolvedNames at h
  unfold renderedLines at ht
  unfold lineHead
  split at ht
  · next hroot =>
    rw [if_pos hroot] at h ⊢
    obtain rfl := List.mem_singleton.1 ht
    have hdriver := unbroken_getD h (show Unbroken unknownDriver by decide)
    obtain ⟨body, hbody, hend⟩ := d.lineEnd_form (show Unbroken "Class=root_hub" by decide)
      (unbroken_withPorts hdriver (side.portCount d.location))
    exact ⟨body, hbody, hend ▸ rfl⟩
  · next hroot =>
    rw [if_neg hroot] at h ⊢
    obtain ⟨i, hi, rfl⟩ := List.mem_map.1 ht
    have hnames : ∀ s ∈ (names i.2.baseClass).toList, Unbroken s := fun s hs =>
      h s (List.mem_flatMap.2 ⟨i, hi, List.mem_append_left _ hs⟩)
    have hdriver : ∀ s ∈ (side.driver d.location i.1).toList, Unbroken s := fun s hs =>
      h s (List.mem_flatMap.2 ⟨i, hi, List.mem_append_right _ hs⟩)
    have hdriver := unbroken_getD hdriver (show Unbroken unknownDriver by decide)
    have hmiddle : Unbroken ("If " ++ byteText i.1 ++ ", Class=" ++
        (names i.2.baseClass).getD "") :=
      ((Unbroken.append (by decide) (unbroken_byteText i.1)).append (by decide)).append
        (unbroken_getD hnames (by decide))
    have hshown : Unbroken (if i.2.classCode.isHub then
        withPorts ((side.driver d.location i.1).getD unknownDriver) (side.portCount d.location)
        else (side.driver d.location i.1).getD unknownDriver) := by
      split
      · exact unbroken_withPorts hdriver _
      · exact hdriver
    obtain ⟨body, hbody, hend⟩ := d.lineEnd_form hmiddle hshown
    exact ⟨body, hbody, hend ▸ rfl⟩

theorem terminated_renderedLines (h : ∀ s ∈ d.resolvedNames names side, Unbroken s) :
    ∀ t ∈ d.renderedLines names side, Text.Terminated t := by
  intro t ht
  obtain ⟨body, hbody, rfl⟩ := renderedLines_form h ht
  rw [← String.append_assoc]
  exact terminated_of_unbroken (d.unbroken_lineHead.append hbody)

theorem lines_render (h : ∀ s ∈ d.resolvedNames names side, Unbroken s) :
    Text.lines (d.render names side) = (d.renderedLines names side).map Text.chomp := by
  rw [render_eq_join, Text.lines_join (terminated_renderedLines h)]

theorem chomp_renderedLine (h : ∀ s ∈ d.resolvedNames names side, Unbroken s) {t : String}
    (ht : t ∈ d.renderedLines names side) :
    ∃ rest, (Text.chomp t).toList = d.lineHead.toList ++ rest := by
  obtain ⟨body, -, rfl⟩ := renderedLines_form h ht
  refine ⟨body.toList ++ ['M'], ?_⟩
  rw [Text.chomp, String.toList_ofList, String.toList_append, String.toList_append]
  change (d.lineHead.toList ++ (body.toList ++ ['M', '\n'])).dropLast = _
  rw [← List.append_assoc, List.dropLast_append_of_ne_nil (by simp), List.append_assoc]
  rfl

end Device

end UsbTopology
