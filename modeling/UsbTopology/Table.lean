set_option autoImplicit false

/-!
# Tables in key order

A table keeps its entries in strictly ascending key order, so each key occurs once and two tables
are equal exactly when they give the same value for every key (`Table.ext_get?`).
-/
namespace UsbTopology

structure Table (κ ν : Type) [LT κ] where
  entries : List (κ × ν)
  ascending : entries.Pairwise fun a b => a.1 < b.1

namespace Table

section

variable {κ ν : Type} [DecidableEq κ]

def find? (k : κ) : List (κ × ν) → Option ν
  | [] => none
  | (k', v) :: rest => if k = k' then some v else find? k rest

theorem mem_of_find?_eq_some {k : κ} {v : ν} {l : List (κ × ν)} (h : find? k l = some v) :
    (k, v) ∈ l := by
  induction l with
  | nil => simp [find?] at h
  | cons head rest ih =>
    obtain ⟨k', v'⟩ := head
    by_cases hk : k = k'
    · subst hk
      simp only [find?, if_pos, Option.some.injEq] at h
      exact h ▸ List.mem_cons_self
    · exact List.mem_cons_of_mem _ (ih (by simpa [find?, hk] using h))

theorem find?_filter_ne (k q : κ) (l : List (κ × ν)) :
    find? q (l.filter fun e => e.1 ≠ k) = if q = k then none else find? q l := by
  induction l with
  | nil => simp [find?]
  | cons head rest ih =>
    obtain ⟨k', v'⟩ := head
    by_cases hk : k' = k
    · subst hk
      rw [List.filter_cons_of_neg (by simp), ih]
      by_cases hq : q = k' <;> simp [find?, hq]
    · rw [List.filter_cons_of_pos (by simpa using hk)]
      by_cases hq : q = k'
      · subst hq
        simp [find?, hk]
      · simp only [find?, if_neg hq, ih]

variable [LT κ] [DecidableLT κ]

def put (k : κ) (v : ν) : List (κ × ν) → List (κ × ν)
  | [] => [(k, v)]
  | (k', v') :: rest =>
    if k < k' then (k, v) :: (k', v') :: rest
    else if k = k' then (k, v) :: rest
    else (k', v') :: put k v rest

theorem mem_put {k : κ} {v : ν} {l : List (κ × ν)} {e : κ × ν} (h : e ∈ put k v l) :
    e = (k, v) ∨ e ∈ l := by
  induction l with
  | nil => simpa [put] using h
  | cons head rest ih =>
    obtain ⟨k', v'⟩ := head
    unfold put at h
    split at h
    · simpa using h
    · split at h
      · rcases List.mem_cons.1 h with h | h
        · exact .inl h
        · exact .inr (List.mem_cons_of_mem _ h)
      · rcases List.mem_cons.1 h with h | h
        · exact .inr (h ▸ List.mem_cons_self)
        · exact (ih h).imp_right (List.mem_cons_of_mem _)

theorem find?_put (k q : κ) (v : ν) (l : List (κ × ν)) :
    find? q (put k v l) = if q = k then some v else find? q l := by
  induction l with
  | nil => rfl
  | cons head rest ih =>
    obtain ⟨k', v'⟩ := head
    unfold put
    split
    · rfl
    · split
      · next heq =>
        subst heq
        by_cases hq : q = k <;> simp [find?, hq]
      · next hne =>
        by_cases hq : q = k'
        · subst hq
          simp [find?, Ne.symm hne]
        · simp [find?, hq, ih]

variable [LE κ] [Std.IsLinearOrder κ] [Std.LawfulOrderLT κ]

theorem put_ascending {k : κ} {v : ν} {l : List (κ × ν)} (h : l.Pairwise fun a b => a.1 < b.1) :
    (put k v l).Pairwise fun a b => a.1 < b.1 := by
  induction l with
  | nil => simp [put]
  | cons head rest ih =>
    obtain ⟨k', v'⟩ := head
    obtain ⟨hhead, hrest⟩ := List.pairwise_cons.1 h
    unfold put
    split
    · next hlt =>
      refine List.pairwise_cons.2 ⟨fun e he => ?_, h⟩
      rcases List.mem_cons.1 he with rfl | he
      · exact hlt
      · exact Std.lt_trans hlt (hhead e he)
    · next hle =>
      split
      · next heq =>
        subst heq
        exact List.pairwise_cons.2 ⟨hhead, hrest⟩
      · next hne =>
        refine List.pairwise_cons.2 ⟨fun e he => ?_, ih hrest⟩
        rcases mem_put he with rfl | he
        · exact Std.lt_of_le_of_ne (Std.not_lt.1 hle) (Ne.symm hne)
        · exact hhead e he

end

def empty {κ ν : Type} [LT κ] : Table κ ν := ⟨[], .nil⟩

instance {κ ν : Type} [LT κ] : Inhabited (Table κ ν) := ⟨empty⟩

instance {κ ν : Type} [LT κ] [DecidableEq κ] [DecidableEq ν] : DecidableEq (Table κ ν) :=
  fun a b => decidable_of_iff (a.entries = b.entries)
    ⟨fun h => by cases a; cases b; cases h; rfl, congrArg entries⟩

section

variable {κ ν : Type} [LT κ]

def size (t : Table κ ν) : Nat := t.entries.length

variable [DecidableEq κ]

def get? (t : Table κ ν) (k : κ) : Option ν := find? k t.entries

def erase (t : Table κ ν) (k : κ) : Table κ ν :=
  ⟨t.entries.filter fun e => e.1 ≠ k, t.ascending.filter _⟩

theorem get?_empty (k : κ) : (empty : Table κ ν).get? k = none := rfl

theorem get?_erase (t : Table κ ν) (k q : κ) :
    (t.erase k).get? q = if q = k then none else t.get? q :=
  find?_filter_ne k q t.entries

variable [LE κ] [DecidableLT κ] [Std.IsLinearOrder κ] [Std.LawfulOrderLT κ]

def insert (t : Table κ ν) (k : κ) (v : ν) : Table κ ν :=
  ⟨put k v t.entries, put_ascending t.ascending⟩

/-- Entries in any order; of equal keys the last one counts. -/
def ofList (l : List (κ × ν)) : Table κ ν := l.foldl (fun t e => t.insert e.1 e.2) empty

theorem get?_insert (t : Table κ ν) (k q : κ) (v : ν) :
    (t.insert k v).get? q = if q = k then some v else t.get? q :=
  find?_put k q v t.entries

end

section

variable {κ ν : Type} [DecidableEq κ] [LT κ] [LE κ] [Std.IsLinearOrder κ] [Std.LawfulOrderLT κ]

omit [Std.IsLinearOrder κ] in
theorem find?_eq_none_of_lt {k : κ} {l : List (κ × ν)} (h : ∀ e ∈ l, k < e.1) :
    find? k l = none := by
  cases hf : find? k l with
  | none => rfl
  | some v => exact absurd (h _ (mem_of_find?_eq_some hf)) Std.lt_irrefl

theorem eq_of_find?_eq {l m : List (κ × ν)} (hl : l.Pairwise fun a b => a.1 < b.1)
    (hm : m.Pairwise fun a b => a.1 < b.1) (h : ∀ k, find? k l = find? k m) : l = m := by
  induction l generalizing m with
  | nil =>
    cases m with
    | nil => rfl
    | cons e m => simpa [find?] using h e.1
  | cons d l ih =>
    cases m with
    | nil => simpa [find?] using h d.1
    | cons e m =>
      obtain ⟨k, v⟩ := d
      obtain ⟨k', v'⟩ := e
      obtain ⟨hd, hl⟩ := List.pairwise_cons.1 hl
      obtain ⟨he, hm'⟩ := List.pairwise_cons.1 hm
      have hk : k = k' := by
        have h₁ : (k, v) ∈ (k', v') :: m := mem_of_find?_eq_some (by rw [← h k]; simp [find?])
        have h₂ : (k', v') ∈ (k, v) :: l := mem_of_find?_eq_some (by rw [h k']; simp [find?])
        rcases List.mem_cons.1 h₁ with h₁ | h₁
        · exact congrArg Prod.fst h₁
        · rcases List.mem_cons.1 h₂ with h₂ | h₂
          · exact (congrArg Prod.fst h₂).symm
          · exact absurd (Std.lt_trans (hd _ h₂) (he _ h₁)) Std.lt_irrefl
      subst hk
      have hv : v = v' := by simpa [find?] using h k
      subst hv
      congr 1
      refine ih hl hm' fun q => ?_
      by_cases hq : q = k
      · subst hq
        rw [find?_eq_none_of_lt hd, find?_eq_none_of_lt he]
      · simpa [find?, hq] using h q

theorem ext_get? {s t : Table κ ν} (h : ∀ k, s.get? k = t.get? k) : s = t := by
  obtain ⟨l, hl⟩ := s
  obtain ⟨m, hm⟩ := t
  have : l = m := eq_of_find?_eq hl hm h
  subst this
  rfl

end

end Table

end UsbTopology
