import UsbTopology.Proofs.Tree.Walk

set_option autoImplicit false

/-!
# Probes in another order

A tree shows its devices by location, and the devices of one location as they were enumerated. The
order of devices at different locations leaves no trace in a tree, nor does it show between which
devices one has failed (`build_reordered`).
-/
namespace UsbTopology

/-- A list in the order of a key is determined by what it holds of each key. -/
theorem eq_of_filter_eq {α κ : Type} [DecidableEq κ] {key : α → κ} {le : κ → κ → Prop}
    (hanti : ∀ a b, le a b → le b a → a = b) {l m : List α}
    (hl : l.Pairwise fun a b => le (key a) (key b)) (hm : m.Pairwise fun a b => le (key a) (key b))
    (h : ∀ k, l.filter (fun a => key a = k) = m.filter fun a => key a = k) : l = m := by
  induction l generalizing m with
  | nil =>
    cases m with
    | nil => rfl
    | cons b m =>
      have hb := h (key b)
      simp at hb
  | cons a l ih =>
    have hmem : a ∈ m := by
      have ha : a ∈ (a :: l).filter fun c => key c = key a := by simp
      rw [h] at ha
      exact List.mem_of_mem_filter ha
    cases m with
    | nil => cases hmem
    | cons b m =>
      obtain ⟨hal, hltail⟩ := List.pairwise_cons.1 hl
      obtain ⟨hbm, hmtail⟩ := List.pairwise_cons.1 hm
      -- Each head stands in the other list too, and so before or at the other head.
      have hkey : key a = key b := by
        by_contra hne
        have hba : le (key b) (key a) := by
          rcases List.mem_cons.1 hmem with rfl | ham
          · exact absurd rfl hne
          · exact hbm a ham
        have hb : b ∈ (b :: m).filter fun c => key c = key b := by simp
        rw [← h, List.filter_cons_of_neg (by simpa using hne)] at hb
        exact hne (hanti _ _ (hal b (List.mem_of_mem_filter hb)) hba)
      have hhead := h (key a)
      rw [List.filter_cons_of_pos (by simp), List.filter_cons_of_pos (by simp [hkey])] at hhead
      obtain rfl : a = b := (List.cons.inj hhead).1
      have hrest : ∀ k, l.filter (fun c => key c = k) = m.filter fun c => key c = k := by
        intro k
        by_cases hk : key a = k
        · simpa [hk] using h k
        · simpa [hk] using h k
      rw [ih hltail hmtail hrest]

namespace Tree

/-- The devices at a location, in the order of their enumeration. -/
def devicesAt (probes : List Probe) (l : Location) : List Device :=
  (probedDevices probes).filter fun d => d.location = l

def shownDevices (probes : List Probe) : List Device := (arrangedDevices probes).map Prod.fst

section

variable {probes reordered : List Probe}

theorem arrangedDevices_pairwise (probes : List Probe) :
    (arrangedDevices probes).Pairwise fun a b =>
      Entry.precedes ⟨a.1.location, a.2, ""⟩ ⟨b.1.location, b.2, ""⟩ = true := by
  apply List.pairwise_mergeSort
  · intro a b c
    apply Entry.precedes_trans
  · intro a b
    apply Entry.precedes_total

theorem shownDevices_pairwise (probes : List Probe) :
    (shownDevices probes).Pairwise fun a b => a.location.value ≤ b.location.value := by
  refine List.pairwise_map.2 ((arrangedDevices_pairwise probes).imp ?_)
  intro a b hab
  have h := Entry.precedes_iff.1 hab
  dsimp only at h
  omega

theorem filter_arrangedDevices (probes : List Probe) (l : Location) :
    (arrangedDevices probes).filter (fun p => p.1.location = l) =
      (indexedDevices probes).filter fun p => p.1.location = l := by
  apply filter_mergeSort
  · intro a b c
    apply Entry.precedes_trans
  · intro a b
    apply Entry.precedes_total
  · refine ((indexedDevices_pairwise probes).filter _).imp_of_mem ?_
    intro a b ha hb hlt
    have hal : a.1.location = l := of_decide_eq_true (List.mem_filter.1 ha).2
    have hbl : b.1.location = l := of_decide_eq_true (List.mem_filter.1 hb).2
    exact Entry.precedes_iff.2 (.inr ⟨by rw [hal, hbl], Nat.le_of_lt hlt⟩)

theorem filter_shownDevices (probes : List Probe) (l : Location) :
    (shownDevices probes).filter (fun d => d.location = l) = devicesAt probes l := by
  rw [shownDevices, devicesAt, ← map_fst_indexedDevices, List.filter_map, List.filter_map]
  exact congrArg (List.map Prod.fst) (filter_arrangedDevices probes l)

theorem shownDevices_eq (h : ∀ l, devicesAt reordered l = devicesAt probes l) :
    shownDevices reordered = shownDevices probes := by
  refine @eq_of_filter_eq Device Location _ Device.location (fun l m => l.value ≤ m.value) ?_ _ _
    (shownDevices_pairwise reordered) (shownDevices_pairwise probes) fun l => ?_
  · intro l m hlm hml
    exact Location.eq_of_value_eq (Nat.le_antisymm hlm hml)
  · rw [filter_shownDevices, filter_shownDevices, h]

theorem devicesAt_perm (hperm : reordered.Perm probes) (l : Location) :
    (devicesAt reordered l).Perm (devicesAt probes l) :=
  (hperm.filterMap Except.toOption).filter _

theorem devicesAt_eq_of_mem (hperm : reordered.Perm probes)
    (h : ∀ d ∈ probedDevices probes, devicesAt reordered d.location = devicesAt probes d.location)
    (l : Location) : devicesAt reordered l = devicesAt probes l := by
  by_cases hl : ∃ d ∈ probedDevices probes, d.location = l
  · obtain ⟨d, hd, rfl⟩ := hl
    exact h d hd
  · have hnone : devicesAt probes l = [] :=
      List.filter_eq_nil_iff.2 fun d hd hdl => hl ⟨d, hd, of_decide_eq_true hdl⟩
    have hsame := devicesAt_perm hperm l
    rw [hnone] at hsame ⊢
    exact List.perm_nil.1 hsame

theorem devicesAt_eq_of_nodup (hperm : reordered.Perm probes)
    (hdistinct : ((probedDevices probes).map Device.location).Nodup) (l : Location) :
    devicesAt reordered l = devicesAt probes l := by
  have hsame := devicesAt_perm hperm l
  have hapart : (devicesAt probes l).Pairwise fun a b => a.location ≠ b.location :=
    (List.pairwise_map.1 hdistinct).filter _
  match hat : devicesAt probes l with
  | [] => exact List.perm_nil.1 (hat ▸ hsame)
  | [d] => exact List.perm_singleton.1 (hat ▸ hsame)
  | d :: e :: rest =>
    have hloc : ∀ c ∈ devicesAt probes l, c.location = l := fun c hc =>
      of_decide_eq_true (List.mem_filter.1 hc).2
    rw [hat] at hloc hapart
    have hne := (List.pairwise_cons.1 hapart).1 e (by simp)
    exact absurd ((hloc d (by simp)).trans (hloc e (by simp)).symm) hne

end

theorem map_entries_build (names : ClassNames) (side : SideData) (probes : List Probe) :
    (build names side probes).entries.map (fun e => (e.location, e.text)) =
      (shownDevices probes).map fun d => (d.location, d.render names side) := by
  rw [entries_build, shownDevices, List.map_map, List.map_map]
  rfl

theorem text_eq_of_entries {t u : Tree}
    (h : t.entries.map (fun e => (e.location, e.text)) =
      u.entries.map fun e => (e.location, e.text)) : t.text = u.text := by
  have htexts := congrArg (List.map Prod.snd) h
  rw [List.map_map, List.map_map] at htexts
  exact congrArg String.join htexts

/-- Another enumeration of the same probes gives the same tree, if it keeps the order of devices
that share a location. -/
theorem build_reordered (names : ClassNames) (side : SideData) {probes reordered : List Probe}
    (hperm : reordered.Perm probes)
    (horder : (∀ l, devicesAt reordered l = devicesAt probes l) ∨
      ((probedDevices probes).map Device.location).Nodup) :
    (build names side reordered).text = (build names side probes).text ∧
      (build names side reordered).entries.map (fun e => (e.location, e.text)) =
        (build names side probes).entries.map (fun e => (e.location, e.text)) ∧
      (build names side reordered).faults.Perm (build names side probes).faults := by
  have hat : ∀ l, devicesAt reordered l = devicesAt probes l := by
    rcases horder with hkept | hdistinct
    · exact hkept
    · exact devicesAt_eq_of_nodup hperm hdistinct
  have hentries : (build names side reordered).entries.map (fun e => (e.location, e.text)) =
      (build names side probes).entries.map fun e => (e.location, e.text) := by
    rw [map_entries_build, map_entries_build, shownDevices_eq hat]
  exact ⟨text_eq_of_entries hentries, hentries, hperm.filterMap _⟩

def gatheredProbes : List Probe :=
  [.error ⟨.opening, "gone"⟩, .ok ⟨1, [], 1, .super, []⟩,
    .ok ⟨1, [1, 2, 3, 4, 5, 6, 9], 7, .full, [⟨1, [⟨3, 0, 0⟩]⟩]⟩,
    .ok ⟨1, [1, 2, 3, 4, 5, 6, 7], 6, .full, [⟨1, [⟨3, 0, 0⟩]⟩]⟩,
    .ok ⟨2, [4, 1], 5, .high, [⟨1, [⟨8, 6, 80⟩, ⟨9, 0, 0⟩]⟩]⟩, .ok ⟨2, [], 1, .high, []⟩]

theorem build_gatheredProbes :
    gatheredProbes.Perm scatteredProbes ∧
      (∀ l, devicesAt gatheredProbes l = devicesAt scatteredProbes l) ∧
      (build .registered (.ofTables .empty .empty) gatheredProbes).text =
        (build .registered (.ofTables .empty .empty) scatteredProbes).text ∧
      (build .registered (.ofTables .empty .empty) gatheredProbes).entries.map
          (fun e => (e.location, e.text)) =
        (build .registered (.ofTables .empty .empty) scatteredProbes).entries.map
          (fun e => (e.location, e.text)) ∧
      (build .registered (.ofTables .empty .empty) gatheredProbes).faults.Perm
        (build .registered (.ofTables .empty .empty) scatteredProbes).faults := by
  have hperm : gatheredProbes.Perm scatteredProbes := by decide
  have hkept : ∀ l, devicesAt gatheredProbes l = devicesAt scatteredProbes l :=
    devicesAt_eq_of_mem hperm (by decide)
  exact ⟨hperm, hkept, build_reordered .registered _ hperm (.inl hkept)⟩

end Tree

end UsbTopology
