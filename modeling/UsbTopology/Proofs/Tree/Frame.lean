import UsbTopology.Proofs.Tree.Line

set_option autoImplicit false

/-!
# What a text depends on

The text of a device depends on the drivers of its own interfaces and on its own number of ports.
Where two sources of side data differ in the driver of one interface number only, the texts are the
same exactly if no line has that number or both show the same driver (`render_eq_iff`).
-/
namespace UsbTopology

theorem length_flatMap_le {ι : Type} {xs : List ι} {f g : ι → List Char}
    (hle : ∀ x ∈ xs, (f x).length ≤ (g x).length) :
    (xs.flatMap f).length ≤ (xs.flatMap g).length := by
  induction xs with
  | nil => exact Nat.le_refl _
  | cons x xs ih =>
    have hx := hle x (by simp)
    have hxs := ih fun y hy => hle y (by simp [hy])
    rw [List.flatMap_cons, List.flatMap_cons, List.length_append, List.length_append]
    omega

/-- Two joined texts with parts that are nowhere longer on one side are equal part by part. -/
theorem eq_of_flatMap_eq {ι : Type} {xs : List ι} {f g : ι → List Char}
    (hle : ∀ x ∈ xs, (f x).length ≤ (g x).length) (h : xs.flatMap f = xs.flatMap g) :
    ∀ x ∈ xs, f x = g x := by
  induction xs with
  | nil => simp
  | cons x xs ih =>
    have hx := hle x (by simp)
    have hxs := length_flatMap_le fun y hy => hle y (List.mem_cons_of_mem x hy)
    have htotal := congrArg List.length h
    rw [List.flatMap_cons, List.flatMap_cons, List.length_append, List.length_append] at htotal
    obtain ⟨hhead, htail⟩ := List.append_inj h (by omega)
    intro y hy
    rcases List.mem_cons.1 hy with rfl | hy
    · exact hhead
    · exact ih (fun z hz => hle z (List.mem_cons_of_mem x hz)) htail y hy

namespace Device

variable {names : ClassNames} {side side' : SideData} {d : Device} {number : UInt8} {i : Interface}

def shownDriver (side : SideData) (d : Device) (number : UInt8) : String :=
  (side.driver d.location number).getD unknownDriver

theorem interfaceLine_split (names : ClassNames) (d : Device) (number : UInt8) (i : Interface)
    (count? : Option UInt8) :
    ∃ before after, ∀ side : SideData, side.portCount d.location = count? →
      d.interfaceLine names side number i = before ++ d.shownDriver side number ++ after := by
  refine ⟨d.location.branch ++ "Port " ++ d.location.portDigit ++ ": " ++ ("Dev " ++
    byteText d.address ++ ", " ++ ("If " ++ byteText number ++ ", Class=" ++
    (names i.baseClass).getD "") ++ ", Driver="),
    (if i.classCode.isHub then "/" ++ byteText (count?.getD 0) ++ "p" else "") ++ (", " ++
    d.speed.rate ++ "M\n"), ?_⟩
  rintro side rfl
  unfold interfaceLine lineEnd
  split
  · simp only [withPorts, shownDriver, String.append_assoc]
  · simp only [shownDriver, String.append_assoc, String.empty_append]

theorem rootHubLine_congr (hcount : side'.portCount d.location = side.portCount d.location)
    (hdriver : side'.driver d.location 0 = side.driver d.location 0) :
    d.rootHubLine side' = d.rootHubLine side := by
  simp only [rootHubLine, hcount, hdriver]

section

variable (hcount : side'.portCount d.location = side.portCount d.location)
include hcount

theorem interfaceLine_eq_iff :
    d.interfaceLine names side' number i = d.interfaceLine names side number i ↔
      d.shownDriver side' number = d.shownDriver side number := by
  obtain ⟨before, after, hline⟩ := interfaceLine_split names d number i (side.portCount d.location)
  rw [hline side' hcount, hline side rfl]
  constructor
  · intro h
    have hlist := congrArg String.toList h
    simp only [String.toList_append, List.append_cancel_right_eq, List.append_cancel_left_eq]
      at hlist
    exact String.toList_inj.1 hlist
  · intro h
    rw [h]

theorem length_interfaceLine_le
    (hle : (d.shownDriver side' number).length ≤ (d.shownDriver side number).length) :
    (d.interfaceLine names side' number i).toList.length ≤
      (d.interfaceLine names side number i).toList.length := by
  obtain ⟨before, after, hline⟩ := interfaceLine_split names d number i (side.portCount d.location)
  rw [hline side' hcount, hline side rfl]
  simp only [String.length_toList, String.length_append]
  omega

theorem interfaceLine_eq_of_render_eq (hroot : d.location.depth ≠ 0)
    (hle : ∀ x ∈ d.numberedInterfaces,
      (d.shownDriver side' x.1).length ≤ (d.shownDriver side x.1).length)
    (h : d.render names side' = d.render names side) :
    ∀ x ∈ d.numberedInterfaces,
      d.interfaceLine names side' x.1 x.2 = d.interfaceLine names side x.1 x.2 := by
  have hlist := congrArg String.toList h
  rw [render, if_neg hroot, render, if_neg hroot, String.toList_join, String.toList_join,
    List.flatMap_map, List.flatMap_map] at hlist
  intro x hx
  exact String.toList_inj.1
    (eq_of_flatMap_eq (fun y hy => length_interfaceLine_le hcount (hle y hy)) hlist x hx)

end

/-- Texts of side data that differ for one interface number only. -/
theorem render_eq_iff {n : UInt8} (hroot : d.location.depth ≠ 0)
    (hcount : side'.portCount d.location = side.portCount d.location)
    (hother : ∀ x ∈ d.numberedInterfaces, x.1 ≠ n →
      side'.driver d.location x.1 = side.driver d.location x.1) :
    d.render names side' = d.render names side ↔
      ((∃ x ∈ d.numberedInterfaces, x.1 = n) → d.shownDriver side' n = d.shownDriver side n) := by
  have hshown : ∀ x ∈ d.numberedInterfaces, x.1 ≠ n →
      d.shownDriver side' x.1 = d.shownDriver side x.1 := fun x hx hne =>
    congrArg (fun driver? => driver?.getD unknownDriver) (hother x hx hne)
  constructor
  · rintro heq ⟨x, hx, rfl⟩
    rw [← @interfaceLine_eq_iff names side side' d x.1 x.2 hcount]
    -- All other lines agree, so one of the two sides has no longer line anywhere.
    rcases Nat.le_total (d.shownDriver side' x.1).length (d.shownDriver side x.1).length
      with hle | hle
    · refine interfaceLine_eq_of_render_eq hcount hroot (fun y hy => ?_) heq x hx
      by_cases hyx : y.1 = x.1
      · rwa [hyx]
      · rw [hshown y hy hyx]
    · refine (interfaceLine_eq_of_render_eq hcount.symm hroot (fun y hy => ?_) heq.symm x hx).symm
      by_cases hyx : y.1 = x.1
      · rwa [hyx]
      · rw [hshown y hy hyx]
  · intro hn
    rw [render, if_neg hroot, render, if_neg hroot]
    congr 1
    refine List.map_congr_left fun x hx => (interfaceLine_eq_iff hcount).2 ?_
    by_cases hxn : x.1 = n
    · exact hxn ▸ hn ⟨x, hx, hxn⟩
    · exact hshown x hx hxn

end Device

end UsbTopology
