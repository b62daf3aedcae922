import UsbTopology.Proofs.Tree.Walk

set_option autoImplicit false

/-!
# A device that fails

Every probe is accounted for: a failed one by its fault, any other by one entry that carries its
place in the enumeration. When one more device fails, the tree loses the entry of this device, and
what it shows of the others stays as it was (`build_accounts`).
-/
namespace UsbTopology

namespace Entry

theorem arrange_filter {entries : List Entry} (hindex : (entries.map Entry.index).Nodup)
    (p : Entry → Bool) : arrange (entries.filter p) = (arrange entries).filter p := by
  refine arrange_eq_of_perm ((arrange_perm entries).filter p) ?_ ?_
  · exact (arrange_pairwise entries).filter p
  · exact hindex.sublist (List.filter_sublist.map Entry.index)

theorem eq_of_index_lt {l m : List Entry} (hl : l.Pairwise fun a b => a.index < b.index)
    (hm : m.Pairwise fun a b => a.index < b.index) (h : ∀ e, e ∈ l ↔ e ∈ m) : l = m := by
  have hnodup : ∀ {k : List Entry}, (k.Pairwise fun a b => a.index < b.index) → k.Nodup :=
    fun hk => hk.imp fun hlt heq => absurd (congrArg Entry.index heq) (Nat.ne_of_lt hlt)
  have hperm : l.Perm m := (List.perm_ext_iff_of_nodup (hnodup hl) (hnodup hm)).2 h
  refine List.Perm.eq_of_pairwise ?_ hl hm hperm
  intro a b _ _ hab hba
  exact absurd hba (Nat.lt_asymm hab)

end Entry

namespace Tree

variable (names : ClassNames) (side : SideData)

/-- The entry that the probe at a position gives rise to. -/
def entryAt? (probes : List Probe) (i : Nat) : Option Entry :=
  match probes[i]? with
  | some (.ok d) => some (.ofDevice names side i d)
  | _ => none

theorem entryAt?_eq_some_iff {probes : List Probe} {i : Nat} {e : Entry} :
    entryAt? names side probes i = some e ↔
      ∃ d, probes[i]? = some (.ok d) ∧ e = .ofDevice names side i d := by
  unfold entryAt?
  split
  · next d hd => simp [hd, eq_comm]
  · next hnone =>
    simp only [reduceCtorEq, false_iff]
    rintro ⟨d, hd, -⟩
    exact hnone d hd

theorem entriesOf_eq_positions (probes : List Probe) :
    entriesOf names side probes =
      (List.range probes.length).filterMap (entryAt? names side probes) := by
  refine Entry.eq_of_index_lt (entriesOf_pairwise names side probes) ?_ fun e => ?_
  · refine List.pairwise_filterMap.2 (List.pairwise_lt_range.imp ?_)
    intro i j hij a ha b hb
    obtain ⟨d, -, rfl⟩ := (entryAt?_eq_some_iff names side).1 ha
    obtain ⟨d', -, rfl⟩ := (entryAt?_eq_some_iff names side).1 hb
    exact hij
  · rw [mem_entriesOf, List.mem_filterMap]
    constructor
    · rintro ⟨i, d, hget, rfl⟩
      have hi : i < probes.length := (List.getElem?_eq_some_iff.1 hget).1
      exact ⟨i, List.mem_range.2 hi, (entryAt?_eq_some_iff names side).2 ⟨d, hget, rfl⟩⟩
    · rintro ⟨i, -, he⟩
      obtain ⟨d, hget, rfl⟩ := (entryAt?_eq_some_iff names side).1 he
      exact ⟨i, d, hget, rfl⟩

theorem nodup_index_entriesOf (probes : List Probe) :
    ((entriesOf names side probes).map Entry.index).Nodup :=
  List.pairwise_map.2 ((entriesOf_pairwise names side probes).imp fun h => Nat.ne_of_lt h)

theorem getElem?_set_error {probes : List Probe} {i j : Nat} {f : Fault} {d : Device} :
    (probes.set i (.error f))[j]? = some (.ok d) ↔ probes[j]? = some (.ok d) ∧ j ≠ i := by
  rw [List.getElem?_set]
  split
  · next hij =>
    subst hij
    split <;> simp
  · next hij => simp [Ne.symm hij]

/-- A failure costs the entry of its position, if there was one. -/
theorem entriesOf_set_error (probes : List Probe) (i : Nat) (f : Fault) :
    entriesOf names side (probes.set i (.error f)) =
      (entriesOf names side probes).filter fun e => e.index ≠ i := by
  refine Entry.eq_of_index_lt (entriesOf_pairwise names side _)
    ((entriesOf_pairwise names side probes).filter _) fun e => ?_
  rw [List.mem_filter, mem_entriesOf, mem_entriesOf, decide_eq_true_iff]
  constructor
  · rintro ⟨j, d, hget, rfl⟩
    obtain ⟨hget, hj⟩ := getElem?_set_error.1 hget
    exact ⟨⟨j, d, hget, rfl⟩, hj⟩
  · rintro ⟨⟨j, d, hget, rfl⟩, hj⟩
    exact ⟨j, d, getElem?_set_error.2 ⟨hget, hj⟩, rfl⟩

theorem entries_build_set_error (probes : List Probe) (i : Nat) (f : Fault) :
    (build names side (probes.set i (.error f))).entries =
      (build names side probes).entries.filter fun e => e.index ≠ i := by
  change Entry.arrange (entriesOf names side (probes.set i (.error f))) =
    (Entry.arrange (entriesOf names side probes)).filter _
  rw [entriesOf_set_error]
  exact Entry.arrange_filter (nodup_index_entriesOf names side probes) _

theorem exists_entries_around {probes : List Probe} {i : Nat} {d : Device}
    (hget : probes[i]? = some (.ok d)) :
    ∃ before after,
      (build names side probes).entries = before ++ .ofDevice names side i d :: after ∧
        ∀ e ∈ before ++ after, e.index ≠ i := by
  have hmem : Entry.ofDevice names side i d ∈ (build names side probes).entries :=
    (mem_entries_build names side).2 ⟨i, d, hget, rfl⟩
  obtain ⟨before, after, hsplit⟩ := List.append_of_mem hmem
  refine ⟨before, after, hsplit, ?_⟩
  have hperm : (build names side probes).entries.Perm (entriesOf names side probes) :=
    Entry.arrange_perm _
  have hnodup := (hperm.map Entry.index).nodup_iff.2 (nodup_index_entriesOf names side probes)
  rw [hsplit, (List.perm_middle.map Entry.index).nodup_iff, List.map_cons,
    List.nodup_cons] at hnodup
  intro e he hei
  exact hnodup.1 (List.mem_map.2 ⟨e, he, hei⟩)

theorem map_error_faultsOf (probes : List Probe) :
    (faultsOf probes).map Except.error = probes.filter fun p => !p.isOk := by
  induction probes with
  | nil => rfl
  | cons p probes ih =>
    cases p with
    | ok d => exact ih
    | error f => exact congrArg (Except.error f :: ·) ih

theorem length_faultsOf (probes : List Probe) :
    (faultsOf probes).length = probes.countP fun p => !p.isOk := by
  rw [List.countP_eq_length_filter, ← map_error_faultsOf, List.length_map]

theorem faultsOf_set_error {probes : List Probe} {i : Nat} {d : Device} (f : Fault)
    (hget : probes[i]? = some (.ok d)) :
    faultsOf (probes.set i (.error f)) =
      (faultsOf probes).insertIdx (faultsOf (probes.take i)).length f := by
  induction probes generalizing i with
  | nil => simp at hget
  | cons p probes ih =>
    cases i with
    | zero =>
      obtain rfl : p = .ok d := by simpa using hget
      rfl
    | succ i =>
      have hrest := ih (i := i) (by simpa using hget)
      cases p with
      | ok e => exact hrest
      | error g => exact congrArg (g :: ·) hrest

/-- Every probe is accounted for, and a device that fails takes with it nothing but its own entry:
the other entries and faults stay as they were, and in their order. -/
theorem build_accounts (probes : List Probe) :
    (build names side probes).faults.map Except.error = probes.filter (fun p => !p.isOk) ∧
    (build names side probes).entries.Perm
      ((List.range probes.length).filterMap (entryAt? names side probes)) ∧
    ∀ i d f, probes[i]? = some (.ok d) →
      (build names side (probes.set i (.error f))).faults =
        (build names side probes).faults.insertIdx
          ((probes.take i).countP fun p => !p.isOk) f ∧
      ∃ before after,
        (build names side probes).entries = before ++ .ofDevice names side i d :: after ∧
        (build names side (probes.set i (.error f))).entries = before ++ after ∧
        (∀ e ∈ before ++ after, e.index ≠ i) ∧
        (build names side probes).text = String.join (before.map Entry.text) ++
          (d.render names side ++ String.join (after.map Entry.text)) ∧
        (build names side (probes.set i (.error f))).text =
          String.join (before.map Entry.text) ++ String.join (after.map Entry.text) := by
  refine ⟨map_error_faultsOf probes, ?_, ?_⟩
  · rw [← entriesOf_eq_positions]
    exact Entry.arrange_perm _
  · intro i d f hget
    obtain ⟨before, after, hentries, hother⟩ := exists_entries_around names side hget
    have hleft : (build names side (probes.set i (.error f))).entries = before ++ after := by
      rw [entries_build_set_error, hentries, List.filter_append,
        List.filter_cons_of_neg (by simp [Entry.ofDevice]), ← List.filter_append,
        List.filter_eq_self]
      exact fun e he => decide_eq_true (hother e he)
    refine ⟨?_, before, after, hentries, hleft, hother, ?_, ?_⟩
    · rw [← length_faultsOf]
      exact faultsOf_set_error f hget
    · rw [text, hentries, List.map_append, List.map_cons, String.join_append, String.join_cons]
      rfl
    · rw [text, hleft, List.map_append, String.join_append]

/-- Of the two devices that share a place the one that is listed later fails. -/
theorem build_accounts_scatteredProbes :
    scatteredProbes[4]? =
      some (.ok ⟨1, [1, 2, 3, 4, 5, 6, 7], 6, .full, [⟨1, [⟨3, 0, 0⟩]⟩]⟩) ∧
    ∃ before after,
      (build .registered (.ofTables .empty .empty) scatteredProbes).entries =
        before ++ .ofDevice .registered (.ofTables .empty .empty) 4
          ⟨1, [1, 2, 3, 4, 5, 6, 7], 6, .full, [⟨1, [⟨3, 0, 0⟩]⟩]⟩ :: after ∧
      (build .registered (.ofTables .empty .empty)
        (scatteredProbes.set 4 (.error ⟨.opening, "lost"⟩))).entries = before ++ after ∧
      (build .registered (.ofTables .empty .empty)
        (scatteredProbes.set 4 (.error ⟨.opening, "lost"⟩))).faults =
          [⟨.opening, "gone"⟩, ⟨.opening, "lost"⟩] := by
  obtain ⟨-, -, hfailure⟩ := build_accounts .registered (.ofTables .empty .empty) scatteredProbes
  obtain ⟨hfaults, before, after, hentries, hleft, -⟩ := hfailure 4 _ ⟨.opening, "lost"⟩ rfl
  exact ⟨rfl, before, after, hentries, hleft, hfaults⟩

end Tree

end UsbTopology
