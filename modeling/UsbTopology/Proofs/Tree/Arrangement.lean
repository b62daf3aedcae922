import Mathlib.Data.List.Nodup
import UsbTopology.Dump.Capture
import UsbTopology.Proofs.Location.Order
import UsbTopology.Tree

set_option autoImplicit false

/-!
# Arranged entries

Arranging keeps the entries and puts them in the order of location and index. Where these two tell
the entries apart, as they do for the entries of a probe list, the arrangement is the only sorted
list of these entries (`arrange_eq_of_rank`).
-/
namespace UsbTopology

theorem filter_mergeSort {α : Type} {le : α → α → Bool}
    (htrans : ∀ a b c, le a b = true → le b c = true → le a c = true)
    (htotal : ∀ a b, (le a b || le b a) = true) {p : α → Bool} {l : List α}
    (h : (l.filter p).Pairwise fun a b => le a b = true) :
    (l.mergeSort le).filter p = l.filter p := by
  have hperm : (l.mergeSort le).Perm l := List.mergeSort_perm l le
  have hsub : (l.filter p).Sublist (l.mergeSort le) :=
    List.sublist_mergeSort htrans htotal h List.filter_sublist
  have hsub := hsub.filter p
  rw [List.filter_filter] at hsub
  simp only [Bool.and_self] at hsub
  exact (hsub.eq_of_length (hperm.filter p).length_eq.symm).symm

namespace Entry

def rank (e : Entry) : Location × Nat := (e.location, e.index)

theorem precedes_iff {a b : Entry} :
    precedes a b = true ↔ a.location.value < b.location.value ∨
      a.location.value = b.location.value ∧ a.index ≤ b.index := by
  simp [precedes]

theorem precedes_total (a b : Entry) : (precedes a b || precedes b a) = true := by
  rw [Bool.or_eq_true, precedes_iff, precedes_iff]
  omega

theorem precedes_trans (a b c : Entry) (hab : precedes a b = true) (hbc : precedes b c = true) :
    precedes a c = true := by
  rw [precedes_iff] at *
  omega

theorem precedes_of_lt {a b : Entry} (h : a.location.value < b.location.value) :
    precedes a b = true :=
  precedes_iff.2 (.inl h)

theorem rank_eq_of_precedes {a b : Entry} (hab : precedes a b = true) (hba : precedes b a = true) :
    a.rank = b.rank := by
  rw [precedes_iff] at hab hba
  have hvalue : a.location.value = b.location.value := by omega
  have hindex : a.index = b.index := by omega
  exact Prod.ext (Location.eq_of_value_eq hvalue) hindex

theorem arrange_perm (entries : List Entry) : (arrange entries).Perm entries :=
  List.mergeSort_perm entries precedes

theorem mem_arrange {e : Entry} {entries : List Entry} : e ∈ arrange entries ↔ e ∈ entries :=
  (arrange_perm entries).mem_iff

theorem arrange_pairwise (entries : List Entry) :
    (arrange entries).Pairwise fun a b => precedes a b = true :=
  List.pairwise_mergeSort precedes_trans precedes_total entries

theorem arrange_eq_of_rank {entries sorted : List Entry} (hperm : sorted.Perm entries)
    (hsorted : sorted.Pairwise fun a b => precedes a b = true)
    (hrank : (entries.map Entry.rank).Nodup) : arrange entries = sorted := by
  refine List.Perm.eq_of_pairwise ?_ (arrange_pairwise entries) hsorted
    ((arrange_perm entries).trans hperm.symm)
  intro a b ha hb hab hba
  have hsame : a.rank = b.rank := rank_eq_of_precedes hab hba
  exact List.inj_on_of_nodup_map hrank (mem_arrange.1 ha) (hperm.mem_iff.1 hb) hsame

theorem arrange_eq_of_perm {entries sorted : List Entry} (hperm : sorted.Perm entries)
    (hsorted : sorted.Pairwise fun a b => precedes a b = true)
    (hindex : (entries.map Entry.index).Nodup) : arrange entries = sorted := by
  have hrank : (entries.map Entry.rank).Nodup := by
    apply List.Nodup.of_map Prod.snd
    rwa [List.map_map]
  exact arrange_eq_of_rank hperm hsorted hrank

end Entry

namespace Tree

/-- The devices that could be probed, each with its place in the enumeration. -/
def indexedDevices (probes : List Probe) : List (Device × Nat) :=
  probes.zipIdx.filterMap fun p => p.1.toOption.map fun d => (d, p.2)

theorem mem_indexedDevices {probes : List Probe} {d : Device} {i : Nat} :
    (d, i) ∈ indexedDevices probes ↔ probes[i]? = some (.ok d) := by
  rw [indexedDevices, List.mem_filterMap]
  constructor
  · rintro ⟨⟨_ | d', i'⟩, hmem, hd⟩
    · simp [Except.toOption] at hd
    · obtain ⟨rfl, rfl⟩ : d' = d ∧ i' = i := by simpa [Except.toOption] using hd
      exact List.mk_mem_zipIdx_iff_getElem?.1 hmem
  · intro hget
    exact ⟨(.ok d, i), List.mk_mem_zipIdx_iff_getElem?.2 hget, rfl⟩

theorem indexedDevices_pairwise (probes : List Probe) :
    (indexedDevices probes).Pairwise fun a b => a.2 < b.2 := by
  have hidx : probes.zipIdx.Pairwise fun a b => a.2 < b.2 := by
    have h := @List.pairwise_lt_range' 0 probes.length 1 (by decide)
    rw [← List.zipIdx_map_snd, List.pairwise_map] at h
    exact h
  refine List.pairwise_filterMap.2 (hidx.imp ?_)
  intro a b hab x hx y hy
  obtain ⟨d, -, rfl⟩ := Option.map_eq_some_iff.1 hx
  obtain ⟨d', -, rfl⟩ := Option.map_eq_some_iff.1 hy
  exact hab

theorem map_fst_indexedDevices (probes : List Probe) :
    (indexedDevices probes).map Prod.fst = probedDevices probes := by
  have hprobes : probedDevices probes = probes.zipIdx.filterMap fun p => p.1.toOption := by
    rw [probedDevices]
    conv_lhs => rw [← List.zipIdx_map_fst 0 probes]
    rw [List.filterMap_map]
    rfl
  rw [hprobes, indexedDevices, List.map_filterMap]
  congr 1
  funext p
  rw [Option.map_map]
  exact Option.map_id'

theorem mem_probedDevices {probes : List Probe} {d : Device} :
    d ∈ probedDevices probes ↔ .ok d ∈ probes := by
  rw [← map_fst_indexedDevices, List.mem_map]
  constructor
  · rintro ⟨⟨d, i⟩, hmem, rfl⟩
    exact List.mem_of_getElem? (mem_indexedDevices.1 hmem)
  · intro h
    obtain ⟨i, hi⟩ := List.getElem?_of_mem h
    exact ⟨(d, i), mem_indexedDevices.2 hi, rfl⟩

variable (names : ClassNames) (side : SideData)

theorem entriesOf_eq_map (probes : List Probe) :
    entriesOf names side probes =
      (indexedDevices probes).map fun p => .ofDevice names side p.2 p.1 := by
  rw [entriesOf, indexedDevices, List.map_filterMap]
  congr 1
  funext p
  rcases p with ⟨_ | d, i⟩ <;> rfl

theorem entriesOf_pairwise (probes : List Probe) :
    (entriesOf names side probes).Pairwise fun a b => a.index < b.index := by
  rw [entriesOf_eq_map, List.pairwise_map]
  exact indexedDevices_pairwise probes

/-- The devices of a probe list in the order of their entries, which does not depend on what the
entries show. -/
def arrangedDevices (probes : List Probe) : List (Device × Nat) :=
  (indexedDevices probes).mergeSort fun a b =>
    Entry.precedes ⟨a.1.location, a.2, ""⟩ ⟨b.1.location, b.2, ""⟩

theorem mem_arrangedDevices {probes : List Probe} {d : Device} {i : Nat} :
    (d, i) ∈ arrangedDevices probes ↔ probes[i]? = some (.ok d) := by
  rw [arrangedDevices, List.mem_mergeSort, mem_indexedDevices]

theorem entries_build (probes : List Probe) :
    (build names side probes).entries =
      (arrangedDevices probes).map fun p => .ofDevice names side p.2 p.1 := by
  change Entry.arrange (entriesOf names side probes) = _
  rw [entriesOf_eq_map, Entry.arrange, arrangedDevices, List.map_mergeSort]
  intro a _ b _
  rfl

theorem mem_entries_build {probes : List Probe} {e : Entry} :
    e ∈ (build names side probes).entries ↔
      ∃ i d, probes[i]? = some (.ok d) ∧ e = .ofDevice names side i d := by
  rw [entries_build, List.mem_map]
  constructor
  · rintro ⟨⟨d, i⟩, hmem, rfl⟩
    exact ⟨i, d, mem_arrangedDevices.1 hmem, rfl⟩
  · rintro ⟨i, d, hget, rfl⟩
    exact ⟨(d, i), mem_arrangedDevices.2 hget, rfl⟩

theorem mem_entriesOf {probes : List Probe} {e : Entry} :
    e ∈ entriesOf names side probes ↔
      ∃ i d, probes[i]? = some (.ok d) ∧ e = .ofDevice names side i d :=
  Entry.mem_arrange.symm.trans (mem_entries_build names side)

end Tree

end UsbTopology
