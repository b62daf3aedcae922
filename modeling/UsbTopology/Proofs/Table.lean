import UsbTopology.Table

set_option autoImplicit false

/-!
# Tables from lists of entries

A table holds the last entry of each key. Where all entries of a key agree, it holds exactly the
entries of the list, and a table is the table of its own entries.
-/
namespace UsbTopology.Table

theorem mem_filterMap_entry {ι κ ν : Type} {xs : List ι} {key : ι → κ} {value : ι → Option ν}
    {e : κ × ν} :
    e ∈ xs.filterMap (fun x => (value x).map (Prod.mk (key x))) ↔
      ∃ x ∈ xs, key x = e.1 ∧ value x = some e.2 := by
  rw [List.mem_filterMap]
  refine exists_congr fun x => and_congr_right fun _ => ?_
  rw [Option.map_eq_some_iff]
  constructor
  · rintro ⟨v, hv, rfl⟩
    exact ⟨rfl, hv⟩
  · rintro ⟨hk, hv⟩
    exact ⟨e.2, hv, Prod.ext hk rfl⟩

variable {κ ν : Type} [DecidableEq κ] [LT κ] [LE κ] [DecidableLT κ] [Std.IsLinearOrder κ]
  [Std.LawfulOrderLT κ]

theorem get?_foldl_insert (l : List (κ × ν)) (t : Table κ ν) (k : κ) :
    (l.foldl (fun t e => t.insert e.1 e.2) t).get? k =
      ((l.filter fun e => e.1 = k).getLast?.map Prod.snd).or (t.get? k) := by
  induction l generalizing t with
  | nil => rfl
  | cons e l ih =>
    rw [List.foldl_cons, ih, get?_insert]
    by_cases h : e.1 = k
    · subst h
      rw [List.filter_cons_of_pos (by simp), if_pos rfl, List.getLast?_cons]
      cases (l.filter fun e' => e'.1 = e.1).getLast? <;> rfl
    · rw [List.filter_cons_of_neg (by simpa using h), if_neg fun hk => h hk.symm]

theorem get?_ofList (l : List (κ × ν)) (k : κ) :
    (ofList l).get? k = (l.filter fun e => e.1 = k).getLast?.map Prod.snd := by
  rw [ofList, get?_foldl_insert, get?_empty, Option.or_none]

theorem mem_of_get?_ofList {l : List (κ × ν)} {k : κ} {v : ν} (h : (ofList l).get? k = some v) :
    (k, v) ∈ l := by
  rw [get?_ofList] at h
  obtain ⟨⟨k', v'⟩, hlast, rfl⟩ := Option.map_eq_some_iff.1 h
  obtain ⟨hmem, hk⟩ := List.mem_filter.1 (List.mem_of_getLast? hlast)
  obtain rfl : k' = k := of_decide_eq_true hk
  exact hmem

theorem get?_ofList_eq_some_iff {l : List (κ × ν)}
    (hagree : ∀ e ∈ l, ∀ f ∈ l, e.1 = f.1 → e.2 = f.2) {k : κ} {v : ν} :
    (ofList l).get? k = some v ↔ (k, v) ∈ l := by
  refine ⟨mem_of_get?_ofList, fun hmem => ?_⟩
  have hfilter : (k, v) ∈ l.filter fun e => e.1 = k := List.mem_filter.2 ⟨hmem, by simp⟩
  rw [get?_ofList]
  cases hlast : (l.filter fun e => e.1 = k).getLast? with
  | none => simp [List.getLast?_eq_none_iff.1 hlast] at hfilter
  | some e =>
    obtain ⟨he, hk⟩ := List.mem_filter.1 (List.mem_of_getLast? hlast)
    exact congrArg some (hagree e he (k, v) hmem (of_decide_eq_true hk))

omit [DecidableLT κ] [Std.IsLinearOrder κ] in
theorem find?_eq_some_of_mem {l : List (κ × ν)} (hasc : l.Pairwise fun a b => a.1 < b.1)
    {e : κ × ν} (he : e ∈ l) : find? e.1 l = some e.2 := by
  induction l with
  | nil => cases he
  | cons head l ih =>
    obtain ⟨hhead, hl⟩ := List.pairwise_cons.1 hasc
    rw [find?]
    rcases List.mem_cons.1 he with rfl | he
    · rw [if_pos rfl]
    · have hlt := hhead e he
      have hne : e.1 ≠ head.1 := fun heq => Std.lt_irrefl (heq ▸ hlt)
      rw [if_neg hne, ih hl he]

omit [DecidableLT κ] [Std.IsLinearOrder κ] in
theorem get?_eq_some_iff {t : Table κ ν} {k : κ} {v : ν} :
    t.get? k = some v ↔ (k, v) ∈ t.entries :=
  ⟨mem_of_find?_eq_some, find?_eq_some_of_mem t.ascending⟩

theorem ofList_entries (t : Table κ ν) : ofList t.entries = t := by
  refine ext_get? fun k => Option.ext fun v => ?_
  rw [get?_ofList_eq_some_iff, get?_eq_some_iff]
  intro e he f hf hef
  have h := find?_eq_some_of_mem t.ascending he
  rw [hef, find?_eq_some_of_mem t.ascending hf] at h
  exact (Option.some.inj h).symm

section

variable {ι : Type} {xs : List ι} {key : ι → κ} {value : ι → Option ν}

/-- What a table holds that was filled by asking for the value behind each key. -/
theorem get?_ofList_filterMap_eq_some_iff
    (hagree : ∀ x ∈ xs, ∀ y ∈ xs, key x = key y → value x = value y) {k : κ} {v : ν} :
    (ofList (xs.filterMap fun x => (value x).map (Prod.mk (key x)))).get? k = some v ↔
      ∃ x ∈ xs, key x = k ∧ value x = some v := by
  rw [get?_ofList_eq_some_iff, mem_filterMap_entry]
  intro e he f hf hef
  obtain ⟨x, hx, hxk, hxv⟩ := mem_filterMap_entry.1 he
  obtain ⟨y, hy, hyk, hyv⟩ := mem_filterMap_entry.1 hf
  have hxy := hagree x hx y hy (hxk.trans (hef.trans hyk.symm))
  exact Option.some.inj (hxv.symm.trans (hxy.trans hyv))

theorem get?_ofList_filterMap (hagree : ∀ x ∈ xs, ∀ y ∈ xs, key x = key y → value x = value y)
    {x : ι} (hx : x ∈ xs) :
    (ofList (xs.filterMap fun x => (value x).map (Prod.mk (key x)))).get? (key x) = value x := by
  refine Option.ext fun v => ?_
  rw [get?_ofList_filterMap_eq_some_iff hagree]
  constructor
  · rintro ⟨y, hy, hk, hv⟩
    rw [← hagree y hy x hx hk, hv]
  · intro hv
    exact ⟨x, hx, rfl, hv⟩

theorem get?_ofList_filterMap_eq_none {k : κ} (h : ∀ x ∈ xs, key x ≠ k) :
    (ofList (xs.filterMap fun x => (value x).map (Prod.mk (key x)))).get? k = none := by
  rw [Option.eq_none_iff_forall_ne_some]
  intro v hv
  obtain ⟨x, hx, hk, -⟩ := mem_filterMap_entry.1 (mem_of_get?_ofList hv)
  exact h x hx hk

end

end UsbTopology.Table
