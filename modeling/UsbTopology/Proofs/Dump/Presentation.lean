import UsbTopology.Proofs.Dump.Form
import UsbTopology.Proofs.Json.Decimal
import UsbTopology.Source

set_option autoImplicit false

/-!
# Dumps in other words

A dump may be written in more than one way: its members in another order, those that hold a default
left out, others added that no record knows. What says the same as a dump is read as the same dump.
-/
namespace UsbTopology

open Json

/-- What a value in a dump is read as. -/
inductive Role where
  | plain
  | list (element : Role)
  | dump
  | entry
  | configuration
  | interface

namespace Role

def names : Role → List String
  | .dump => ["devices", "drivers", "maxchild"]
  | .entry => ["bus", "ports", "address", "speed", "configurations"]
  | .configuration => ["number", "interfaces"]
  | .interface => ["class", "sub_class", "protocol"]
  | .plain | .list _ => []

def member : Role → String → Role
  | .dump, "devices" => .list .entry
  | .entry, "configurations" => .list .configuration
  | .configuration, "interfaces" => .list .interface
  | _, _ => .plain

/-- The element at an index; the elements of a record are its fields in their order. -/
def element : Role → Nat → Role
  | .list p, _ => p
  | p, i => p.names[i]?.elim .plain p.member

def isRecord : Role → Bool
  | .dump | .entry | .configuration | .interface => true
  | .plain | .list _ => false

/-- The members that say no more than their absence. -/
def defaults : Role → List (String × Json)
  | .dump => [("drivers", .object []), ("maxchild", .object [])]
  | .entry =>
    [("ports", .array []), ("configurations", .array []), ("speed", .string "unknown"),
      ("bus", .null), ("address", .null)]
  | .configuration => [("number", .ofByte 0), ("interfaces", .array [])]
  | .interface => [("sub_class", .ofByte 0), ("protocol", .ofByte 0)]
  | .plain | .list _ => []

end Role

def knownNames : List String :=
  ["devices", "drivers", "maxchild", "bus", "ports", "address", "speed", "configurations", "error",
    "number", "interfaces", "class", "sub_class", "protocol"]

/-- The second value says in the role what the first one says: the same scalars, the elements of
arrays one by one, and the members of objects by their names. A member of the first may be missing
if it holds a default, and a record may have other members that are fields of no record. -/
inductive Restates : Role → Json → Json → Prop where
  | null {p : Role} : Restates p .null .null
  | bool {p : Role} (b : Bool) : Restates p (.bool b) (.bool b)
  | number {p : Role} (n : Number) : Restates p (.number n) (.number n)
  | string {p : Role} (s : String) : Restates p (.string s) (.string s)
  | array {p : Role} {es es' : List Json} (length : es.length = es'.length)
      (elements : ∀ i e e', es[i]? = some e → es'[i]? = some e' → Restates (p.element i) e e') :
      Restates p (.array es) (.array es')
  | object {p : Role} {ms ms' : List (String × Json)}
      (members : ∀ name v v', (name, v) ∈ ms → (name, v') ∈ ms' →
        Restates (p.member name) v v')
      (left : ∀ m ∈ ms, m.1 ∈ ms'.map Prod.fst ∨ m ∈ p.defaults)
      (added : ∀ m ∈ ms', m.1 ∈ ms.map Prod.fst ∨ p.isRecord = true ∧ m.1 ∉ knownNames) :
      Restates p (.object ms) (.object ms')

namespace Json

/-- No object has two members of one name. -/
inductive DistinctNames : Json → Prop where
  | null : DistinctNames .null
  | bool (b : Bool) : DistinctNames (.bool b)
  | number (n : Number) : DistinctNames (.number n)
  | string (s : String) : DistinctNames (.string s)
  | array {es : List Json} (elements : ∀ e ∈ es, DistinctNames e) : DistinctNames (.array es)
  | object {ms : List (String × Json)} (names : (ms.map Prod.fst).Nodup)
      (members : ∀ m ∈ ms, DistinctNames m.2) : DistinctNames (.object ms)

theorem occurrences_eq_nil_iff {name : String} {ms : List (String × Json)} :
    occurrences name ms = [] ↔ name ∉ ms.map Prod.fst := by
  rw [occurrences, List.map_eq_nil_iff, List.filter_eq_nil_iff, List.mem_map, not_exists]
  refine forall_congr' fun m => ?_
  rw [not_and, decide_eq_true_eq]

theorem occurrences_eq_singleton_iff {name : String} {ms : List (String × Json)} {j : Json}
    (hnodup : (ms.map Prod.fst).Nodup) : occurrences name ms = [j] ↔ (name, j) ∈ ms := by
  induction ms with
  | nil => simp [occurrences]
  | cons m ms ih =>
    obtain ⟨hnotMem, hrest⟩ := List.nodup_cons.1 hnodup
    by_cases hname : m.1 = name
    · subst hname
      have hnone := occurrences_eq_nil_iff.2 hnotMem
      have hj : (m.1, j) ∉ ms := fun h => hnotMem (List.mem_map.2 ⟨_, h, rfl⟩)
      obtain ⟨name, v⟩ := m
      rw [occurrences_cons_self, hnone]
      simpa [hj] using eq_comm
    · rw [occurrences_cons_of_ne hname, ih hrest, List.mem_cons]
      refine ⟨.inr, fun h => h.resolve_left fun heq => hname ?_⟩
      exact congrArg Prod.fst heq.symm

end Json

/-- The second members, of which each has its own name as well, say what the first ones say. -/
structure MembersRestate (p : Role) (ms ms' : List (String × Json)) : Prop where
  nodup : (ms.map Prod.fst).Nodup
  nodup' : (ms'.map Prod.fst).Nodup
  distinct : ∀ m ∈ ms, m.2.DistinctNames
  distinct' : ∀ m ∈ ms', m.2.DistinctNames
  members : ∀ name v v', (name, v) ∈ ms → (name, v') ∈ ms' → Restates (p.member name) v v'
  left : ∀ m ∈ ms, m.1 ∈ ms'.map Prod.fst ∨ m ∈ p.defaults
  added : ∀ m ∈ ms', m.1 ∈ ms.map Prod.fst ∨ m.1 ∉ knownNames

theorem Role.element_eq_member {p : Role} {i : Nat} {name : String}
    (h : p.names[i]? = some name) : p.element i = p.member name := by
  cases p with
  | list => cases h
  | plain | dump | entry | configuration | interface => simp [element, h]

theorem Role.nodup_names (p : Role) : p.names.Nodup := by
  cases p with
  | list => exact List.nodup_nil
  | plain | dump | entry | configuration | interface => decide

theorem map_fst_zip_take {α β : Type} (as : List α) (bs : List β) :
    (as.zip bs).map Prod.fst = as.take bs.length := by
  induction as generalizing bs with
  | nil => simp
  | cons a as ih => cases bs <;> simp [ih]

theorem Json.DistinctNames.elements {es : List Json} (h : (Json.array es).DistinctNames) :
    ∀ e ∈ es, e.DistinctNames := by
  cases h with
  | array elements => exact elements

theorem Restates.exists_object_right {p : Role} {ms : List (String × Json)} {j' : Json}
    (h : Restates p (.object ms) j') : ∃ ms', j' = .object ms' := by
  cases h
  exact ⟨_, rfl⟩

theorem Restates.exists_object_left {p : Role} {j : Json} {ms' : List (String × Json)}
    (h : Restates p j (.object ms')) : ∃ ms, j = .object ms := by
  cases h
  exact ⟨_, rfl⟩

theorem Restates.object_members {p : Role} {ms ms' : List (String × Json)}
    (h : Restates p (.object ms) (.object ms')) (hj : (Json.object ms).DistinctNames)
    (hj' : (Json.object ms').DistinctNames) : MembersRestate p ms ms' := by
  obtain - | - | - | - | - | ⟨members, left, added⟩ := h
  obtain - | - | - | - | - | ⟨nodup, distinct⟩ := hj
  obtain - | - | - | - | - | ⟨nodup', distinct'⟩ := hj'
  have hadded := fun m hm => (added m hm).imp_right And.right
  exact ⟨nodup, nodup', distinct, distinct', members, left, hadded⟩

theorem Restates.mem_names_plain {ms ms' : List (String × Json)}
    (h : Restates .plain (.object ms) (.object ms')) {name : String} :
    name ∈ ms.map Prod.fst ↔ name ∈ ms'.map Prod.fst := by
  obtain - | - | - | - | - | ⟨-, left, added⟩ := h
  constructor
  · intro hname
    obtain ⟨m, hm, rfl⟩ := List.mem_map.1 hname
    exact (left m hm).resolve_right List.not_mem_nil
  · intro hname
    obtain ⟨m, hm, rfl⟩ := List.mem_map.1 hname
    exact (added m hm).resolve_right (by simp [Role.isRecord])

theorem Restates.record {p : Role} {j j' : Json} {ms : List (String × Json)}
    (h : Restates p j j') (hj : j.DistinctNames) (hj' : j'.DistinctNames)
    (hms : recordMembers? p.names j = some ms) :
    ∃ ms', recordMembers? p.names j' = some ms' ∧ MembersRestate p ms ms' := by
  cases h with
  | null | bool | number | string => cases hms
  | @object _ _ ms' members left added =>
    obtain rfl := Option.some.inj hms
    exact ⟨ms', rfl, (Restates.object members left added).object_members hj hj'⟩
  | @array _ es es' length elements =>
    rw [recordMembers?] at hms
    split at hms
    · next hle =>
      obtain rfl := Option.some.inj hms
      have hnames : ∀ bs : List Json, (p.names.zip bs).map Prod.fst = p.names.take bs.length :=
        map_fst_zip_take p.names
      have hnodup : ∀ bs : List Json, ((p.names.zip bs).map Prod.fst).Nodup := fun bs =>
        hnames bs ▸ p.nodup_names.sublist (List.take_sublist _ _)
      have hsame : (p.names.zip es).map Prod.fst = (p.names.zip es').map Prod.fst := by
        rw [hnames, hnames, length]
      refine ⟨p.names.zip es', ?_, hnodup es, hnodup es', ?_, ?_, ?_, ?_, ?_⟩
      · rw [recordMembers?, if_pos (length ▸ hle)]
      · exact fun m hm => hj.elements _ (List.of_mem_zip hm).2
      · exact fun m hm => hj'.elements _ (List.of_mem_zip hm).2
      · intro name v v' hv hv'
        obtain ⟨i, hi⟩ := List.mem_iff_getElem?.1 hv
        obtain ⟨i', hi'⟩ := List.mem_iff_getElem?.1 hv'
        obtain ⟨hname, he⟩ := List.getElem?_zip_eq_some.1 hi
        obtain ⟨hname', he'⟩ := List.getElem?_zip_eq_some.1 hi'
        have hlt : i < p.names.length := List.getElem?_eq_some_iff.1 hname |>.1
        obtain rfl := (List.getElem?_inj hlt p.nodup_names).1 (hname.trans hname'.symm)
        rw [← Role.element_eq_member hname]
        exact elements i v v' he he'
      · exact fun m hm => .inl (hsame ▸ List.mem_map_of_mem hm)
      · exact fun m hm => .inl (hsame ▸ List.mem_map_of_mem hm)
    · cases hms

/-- What restates a value of the form in the role is of the form, for the same value. -/
def Role.Keeps {α : Type} (p : Role) (form : Json → α → Prop) : Prop :=
  ∀ j j' a, Restates p j j' → j.DistinctNames → j'.DistinctNames → form j a → form j' a

/-- What is restated by a value of the form is of the form, for the same value. -/
def Role.Shows {α : Type} (p : Role) (form : Json → α → Prop) : Prop :=
  ∀ j j' a, Restates p j j' → form j' a → form j a

section

variable {α : Type} {p q : Role} {form : Json → α → Prop}

theorem Restates.isByte_iff {j j' : Json} (h : Restates p j j') {b : UInt8} :
    IsByte j b ↔ IsByte j' b := by
  cases h <;> simp [IsByte, ofByte]

theorem Restates.isText_iff {j j' : Json} (h : Restates p j j') {s : String} :
    IsText j s ↔ IsText j' s := by
  cases h <;> simp [IsText]

theorem Restates.eq_null_iff {j j' : Json} (h : Restates p j j') : j = .null ↔ j' = .null := by
  cases h <;> simp

theorem Restates.isNullOrByte_iff {j j' : Json} (h : Restates p j j') {b? : Option UInt8} :
    IsNullOr IsByte j b? ↔ IsNullOr IsByte j' b? := by
  simp only [IsNullOr, h.eq_null_iff, h.isByte_iff]

theorem keeps_byte : p.Keeps IsByte := fun _ _ _ h _ _ => h.isByte_iff.1

theorem keeps_text : p.Keeps IsText := fun _ _ _ h _ _ => h.isText_iff.1

theorem keeps_nullOrByte : p.Keeps (IsNullOr IsByte) := fun _ _ _ h _ _ => h.isNullOrByte_iff.1

theorem shows_text : p.Shows IsText := fun _ _ _ h => h.isText_iff.2

theorem shows_nullOrByte : p.Shows (IsNullOr IsByte) := fun _ _ _ h => h.isNullOrByte_iff.2

theorem keeps_list (h : q.Keeps form) (hq : ∀ i, p.element i = q) : p.Keeps (IsList form) := by
  rintro j j' as hrestates hj hj' ⟨es, rfl, has⟩
  cases hrestates with
  | @array _ _ es' length elements =>
    refine ⟨es', rfl, List.forall₂_iff_get.2 ⟨length ▸ has.length_eq, fun i hi hi' => ?_⟩⟩
    have hes : i < es.length := length ▸ hi
    have hrestates := elements i es[i] es'[i] (List.getElem?_eq_getElem hes)
      (List.getElem?_eq_getElem hi)
    rw [hq] at hrestates
    have hform := (List.forall₂_iff_get.1 has).2 i hes hi'
    exact h _ _ _ hrestates (hj.elements _ (List.getElem_mem hes))
      (hj'.elements _ (List.getElem_mem hi)) hform

theorem exists_forall₂_of_forall_exists {β γ : Type} {R : β → γ → Prop} {cs : List γ} {bs : List β}
    (h : ∀ b ∈ bs, ∃ c ∈ cs, R b c) : ∃ ds, List.Forall₂ R bs ds ∧ ∀ d ∈ ds, d ∈ cs := by
  induction bs with
  | nil => exact ⟨[], .nil, List.forall_mem_nil _⟩
  | cons b bs ih =>
    obtain ⟨⟨c, hc, hbc⟩, hrest⟩ := List.forall_mem_cons.1 h
    obtain ⟨ds, hds, hmem⟩ := ih hrest
    exact ⟨c :: ds, .cons hbc hds, List.forall_mem_cons.2 ⟨hc, hmem⟩⟩

theorem exists_mem_of_forall₂ {β γ : Type} {R : β → γ → Prop} {bs : List β} {cs : List γ}
    (h : List.Forall₂ R bs cs) : ∀ b ∈ bs, ∃ c ∈ cs, R b c := by
  induction h with
  | nil => exact List.forall_mem_nil _
  | cons hbc _ ih =>
    refine List.forall_mem_cons.2 ⟨⟨_, List.mem_cons_self, hbc⟩, fun b hb => ?_⟩
    obtain ⟨c, hc, h⟩ := ih b hb
    exact ⟨c, List.mem_cons_of_mem _ hc, h⟩

theorem map_fst_eq_of_forall₂ {R : Json → α → Prop} {ms : List (String × Json)}
    {entries : List (String × α)}
    (h : List.Forall₂ (fun m e => m.1 = e.1 ∧ R m.2 e.2) ms entries) :
    ms.map Prod.fst = entries.map Prod.fst := by
  induction h with
  | nil => rfl
  | cons hme _ ih => rw [List.map_cons, List.map_cons, hme.1, ih]

theorem ofList_eq_of_subset {entries entries' : List (String × α)}
    (hnodup : (entries.map Prod.fst).Nodup) (hsub : ∀ e ∈ entries', e ∈ entries)
    (hnames : ∀ e ∈ entries, e.1 ∈ entries'.map Prod.fst) :
    Table.ofList entries' = Table.ofList entries := by
  have hagree : ∀ e ∈ entries, ∀ f ∈ entries, e.1 = f.1 → e.2 = f.2 := fun e he f hf hef =>
    congrArg Prod.snd (List.inj_on_of_nodup_map hnodup he hf hef)
  have hagree' : ∀ e ∈ entries', ∀ f ∈ entries', e.1 = f.1 → e.2 = f.2 := fun e he f hf =>
    hagree e (hsub e he) f (hsub f hf)
  refine Table.ext_get? fun k => Option.ext fun v => ?_
  rw [Table.get?_ofList_eq_some_iff hagree, Table.get?_ofList_eq_some_iff hagree']
  refine ⟨hsub (k, v), fun hmem => ?_⟩
  obtain ⟨⟨k', v'⟩, hmem', rfl⟩ := List.mem_map.1 (hnames (k, v) hmem)
  obtain rfl : v' = v := hagree _ (hsub _ hmem') _ hmem rfl
  exact hmem'

theorem keeps_table (h : Role.plain.Keeps form) : Role.plain.Keeps (IsTable form) := by
  rintro j j' t hrestates hj hj' ⟨ms, entries, rfl, hentries, rfl⟩
  obtain ⟨ms', rfl⟩ := hrestates.exists_object_right
  have hrestate := hrestates.object_members hj hj'
  have hfst := map_fst_eq_of_forall₂ hentries
  -- Every member of the second table has its entry among those of the first one.
  have hentry : ∀ m' ∈ ms', ∃ e ∈ entries, m'.1 = e.1 ∧ form m'.2 e.2 := by
    intro m' hm'
    obtain ⟨m, hm, hname⟩ := List.mem_map.1 (hrestates.mem_names_plain.2 (List.mem_map_of_mem hm'))
    obtain ⟨e, he, hme, hform⟩ := exists_mem_of_forall₂ hentries m hm
    have hvalue := hrestate.members m'.1 m.2 m'.2 (hname ▸ hm) hm'
    exact ⟨e, he, hname.symm.trans hme,
      h _ _ _ hvalue (hrestate.distinct m hm) (hrestate.distinct' m' hm') hform⟩
  obtain ⟨entries', hentries', hsub⟩ := exists_forall₂_of_forall_exists hentry
  have hfst' := map_fst_eq_of_forall₂ hentries'
  have hnodup : (entries.map Prod.fst).Nodup := hfst ▸ hrestate.nodup
  refine ⟨ms', entries', rfl, hentries', (ofList_eq_of_subset hnodup hsub fun e he => ?_).symm⟩
  rw [← hfst', ← hrestates.mem_names_plain, hfst]
  exact List.mem_map_of_mem he

end

namespace MembersRestate

variable {α : Type} {p : Role} {form : Json → α → Prop} {ms ms' : List (String × Json)}
  {name : String}

theorem one (h : MembersRestate p ms ms') (hkeeps : (p.member name).Keeps form)
    (hdefault : ∀ v, (name, v) ∈ p.defaults → ∀ a, ¬ form v a) {a : α}
    (hone : One form name ms a) : One form name ms' a := by
  obtain ⟨v, hv, ha⟩ := hone
  have hmem := (occurrences_eq_singleton_iff h.nodup).1 hv
  have hkept := (h.left _ hmem).resolve_right fun hmissing => hdefault v hmissing a ha
  obtain ⟨⟨_, v'⟩, hmem', rfl⟩ := List.mem_map.1 hkept
  refine ⟨v', (occurrences_eq_singleton_iff h.nodup').2 hmem', ?_⟩
  exact hkeeps _ _ _ (h.members _ v v' hmem hmem') (h.distinct _ hmem) (h.distinct' _ hmem') ha

theorem oneOr (h : MembersRestate p ms ms') (hkeeps : (p.member name).Keeps form)
    (hname : name ∈ knownNames) {missing : Json}
    (hmissing : ∀ v, (name, v) ∈ p.defaults → v = missing) {default a : α}
    (hdefault : ∀ a, form missing a → a = default) (hone : OneOr form default name ms a) :
    OneOr form default name ms' a := by
  rcases hone with ⟨hnone, rfl⟩ | ⟨v, hv, ha⟩
  · refine .inl ⟨occurrences_eq_nil_iff.2 fun hmem' => ?_, rfl⟩
    obtain ⟨m', hm', rfl⟩ := List.mem_map.1 hmem'
    exact occurrences_eq_nil_iff.1 hnone ((h.added m' hm').resolve_right fun hnot => hnot hname)
  · have hmem := (occurrences_eq_singleton_iff h.nodup).1 hv
    by_cases hleft : name ∈ ms'.map Prod.fst
    · obtain ⟨⟨_, v'⟩, hmem', rfl⟩ := List.mem_map.1 hleft
      refine .inr ⟨v', (occurrences_eq_singleton_iff h.nodup').2 hmem', ?_⟩
      exact hkeeps _ _ _ (h.members _ v v' hmem hmem') (h.distinct _ hmem) (h.distinct' _ hmem') ha
    · obtain rfl := hmissing v ((h.left _ hmem).resolve_left hleft)
      exact .inl ⟨occurrences_eq_nil_iff.2 hleft, hdefault a ha⟩

theorem one_of_restated (h : MembersRestate p ms ms')
    (hshows : (p.member name).Shows form) (hname : name ∈ knownNames) {a : α}
    (hone : One form name ms' a) : One form name ms a := by
  obtain ⟨v', hv', ha⟩ := hone
  have hmem' := (occurrences_eq_singleton_iff h.nodup').1 hv'
  obtain ⟨⟨_, v⟩, hmem, rfl⟩ :=
    List.mem_map.1 ((h.added _ hmem').resolve_right fun hnot => hnot hname)
  have hform := hshows _ _ _ (h.members _ v v' hmem hmem') ha
  exact ⟨v, (occurrences_eq_singleton_iff h.nodup).2 hmem, hform⟩

theorem oneOr_of_restated (h : MembersRestate p ms ms')
    (hshows : (p.member name).Shows form) (hname : name ∈ knownNames) {default : α}
    (hdefault : ∀ v, (name, v) ∈ p.defaults → form v default) {a : α}
    (hone : OneOr form default name ms' a) : OneOr form default name ms a := by
  rcases hone with ⟨hnone, rfl⟩ | hone
  · by_cases hpresent : name ∈ ms.map Prod.fst
    · obtain ⟨⟨_, v⟩, hmem, rfl⟩ := List.mem_map.1 hpresent
      have hmissing := (h.left _ hmem).resolve_left (occurrences_eq_nil_iff.1 hnone)
      exact .inr ⟨v, (occurrences_eq_singleton_iff h.nodup).2 hmem, hdefault v hmissing⟩
    · exact .inl ⟨occurrences_eq_nil_iff.2 hpresent, rfl⟩
  · exact .inr (h.one_of_restated hshows hname hone)

end MembersRestate

theorem isByte_zero (b : UInt8) (h : IsByte (.ofByte 0) b) : b = 0 := by
  have hbyte := congrArg Json.byte? h
  simpa [byte?_ofByte, eq_comm] using hbyte

theorem isList_nil {α : Type} {form : Json → α → Prop} (as : List α)
    (h : IsList form (.array []) as) : as = [] := by
  obtain ⟨es, hes, has⟩ := h
  cases hes
  exact List.forall₂_nil_left_iff.1 has

theorem isTable_nil {α : Type} {form : Json → α → Prop} (t : Table String α)
    (h : IsTable form (.object []) t) : t = .empty := by
  obtain ⟨ms, entries, hms, hentries, rfl⟩ := h
  cases hms
  rw [List.forall₂_nil_left_iff.1 hentries]
  rfl

theorem keeps_speed : Role.plain.Keeps Speed.Form := by
  rintro j j' v h hj hj' (rfl | rfl)
  · cases h
    exact .inl rfl
  · obtain ⟨ms', rfl⟩ := h.exists_object_right
    obtain ⟨-, hnodup, -, -, members, -, -⟩ := h.object_members hj hj'
    have hnames : ∀ name, name ∈ ms'.map Prod.fst ↔ name = v.name := fun name => by
      simp [← h.mem_names_plain]
    -- Members that all have one name, and each its own, are one member.
    rcases ms' with - | ⟨⟨name, w⟩, - | ⟨n, ms'⟩⟩
    · cases (hnames v.name).2 rfl
    · obtain rfl : name = v.name := (hnames name).1 (by simp)
      have hnull := members v.name .null w (by simp) (by simp)
      cases hnull
      exact .inr rfl
    · have hsame : name = n.1 := ((hnames name).1 (by simp)).trans ((hnames n.1).1 (by simp)).symm
      simp [hsame] at hnodup

theorem isNullOrByte_null (b? : Option UInt8) (h : IsNullOr IsByte .null b?) : b? = none := by
  rcases h with ⟨-, rfl⟩ | ⟨b, hb, -⟩
  · rfl
  · cases hb

theorem form_unknown (v : Speed) (h : Speed.Form (.string "unknown") v) : v = .unknown := by
  rcases h with h | h
  · have hname := Speed.ofName?_eq_some_iff.2 (Json.string.inj h)
    exact (Option.some.inj hname).symm
  · cases h

theorem keeps_interface : Role.interface.Keeps Interface.Form := by
  rintro j j' i h hj hj' ⟨ms, hms, hclass, hsub, hprotocol⟩
  obtain ⟨ms', hms', hrestate⟩ := h.record hj hj' hms
  refine ⟨ms', hms', ?_, ?_, ?_⟩
  · exact hrestate.one keeps_byte (by simp [Role.defaults]) hclass
  · exact hrestate.oneOr keeps_byte (by decide) (by simp [Role.defaults]) isByte_zero hsub
  · exact hrestate.oneOr keeps_byte (by decide) (by simp [Role.defaults]) isByte_zero hprotocol

theorem keeps_configuration : Role.configuration.Keeps Configuration.Form := by
  rintro j j' c h hj hj' ⟨ms, hms, hnumber, hinterfaces⟩
  obtain ⟨ms', hms', hrestate⟩ := h.record hj hj' hms
  have hlist : (Role.configuration.member "interfaces").Keeps (IsList Interface.Form) :=
    keeps_list keeps_interface fun _ => rfl
  refine ⟨ms', hms', ?_, ?_⟩
  · exact hrestate.oneOr keeps_byte (by decide) (by simp [Role.defaults]) isByte_zero hnumber
  · exact hrestate.oneOr hlist (by decide) (by simp [Role.defaults]) isList_nil hinterfaces

theorem keeps_device : Role.entry.Keeps Device.Form := by
  rintro j j' d h hj hj' ⟨ms, hms, hbus, hports, haddress, hspeed, hconfigurations⟩
  obtain ⟨ms', hms', hrestate⟩ := h.record hj hj' hms
  have hlist : (Role.entry.member "configurations").Keeps (IsList Configuration.Form) :=
    keeps_list keeps_configuration fun _ => rfl
  have hbytes : (Role.entry.member "ports").Keeps (IsList IsByte) :=
    keeps_list keeps_byte fun _ => rfl
  have hchoice : (Role.entry.member "speed").Keeps Speed.Form := keeps_speed
  refine ⟨ms', hms', ?_, ?_, ?_, ?_, ?_⟩
  · exact hrestate.one keeps_byte (by simp [Role.defaults, IsByte, ofByte]) hbus
  · exact hrestate.oneOr hbytes (by decide) (by simp [Role.defaults]) isList_nil hports
  · exact hrestate.one keeps_byte (by simp [Role.defaults, IsByte, ofByte]) haddress
  · exact hrestate.oneOr hchoice (by decide) (by simp [Role.defaults]) form_unknown hspeed
  · exact hrestate.oneOr hlist (by decide) (by simp [Role.defaults]) isList_nil hconfigurations

theorem MembersRestate.failureGivenBy_iff {ms ms' : List (String × Json)}
    (h : MembersRestate .entry ms ms') {bus address : Option UInt8} {error : String} :
    Record.FailureGivenBy ms bus address error ↔ Record.FailureGivenBy ms' bus address error := by
  constructor
  · rintro ⟨hbus, haddress, herror⟩
    refine ⟨?_, ?_, ?_⟩
    · exact h.oneOr keeps_nullOrByte (by decide) (by simp [Role.defaults]) isNullOrByte_null hbus
    · exact h.oneOr keeps_nullOrByte (by decide) (by simp [Role.defaults]) isNullOrByte_null
        haddress
    · exact h.one keeps_text (by simp [Role.defaults]) herror
  · rintro ⟨hbus, haddress, herror⟩
    have hnull : IsNullOr IsByte .null none := .inl ⟨rfl, rfl⟩
    refine ⟨?_, ?_, ?_⟩
    · exact h.oneOr_of_restated shows_nullOrByte (by decide) (by simp [Role.defaults, hnull]) hbus
    · exact h.oneOr_of_restated shows_nullOrByte (by decide) (by simp [Role.defaults, hnull])
        haddress
    · exact h.one_of_restated shows_text (by decide) herror

theorem keeps_record : Role.entry.Keeps Record.Form := by
  intro j j' r h hj hj' hform
  cases r with
  | failed bus address error =>
    obtain ⟨ms, rfl, hgiven⟩ := hform
    obtain ⟨ms', rfl⟩ := h.exists_object_right
    exact ⟨ms', rfl, (h.object_members hj hj').failureGivenBy_iff.1 hgiven⟩
  | device d =>
    obtain ⟨hnot, hdevice⟩ := hform
    refine ⟨?_, keeps_device _ _ _ h hj hj' hdevice⟩
    rintro ms' rfl bus address error hgiven
    obtain ⟨ms, rfl⟩ := h.exists_object_left
    exact hnot ms rfl _ _ _ ((h.object_members hj hj').failureGivenBy_iff.2 hgiven)

theorem keeps_dump : Role.dump.Keeps Dump.Form := by
  rintro j j' d h hj hj' ⟨ms, hms, hdevices, hdrivers, hcounts⟩
  obtain ⟨ms', hms', hrestate⟩ := h.record hj hj' hms
  have hlist : (Role.dump.member "devices").Keeps (IsList Record.Form) :=
    keeps_list keeps_record fun _ => rfl
  have htexts : (Role.dump.member "drivers").Keeps (IsTable IsText) := keeps_table keeps_text
  have hbytes : (Role.dump.member "maxchild").Keeps (IsTable IsByte) := keeps_table keeps_byte
  refine ⟨ms', hms', ?_, ?_, ?_⟩
  · exact hrestate.one hlist (by simp [Role.defaults]) hdevices
  · exact hrestate.oneOr htexts (by decide) (by simp [Role.defaults]) isTable_nil hdrivers
  · exact hrestate.oneOr hbytes (by decide) (by simp [Role.defaults]) isTable_nil hcounts

namespace Dump

/-- Two texts of a dump that differ in their presentation are the same dump, and give the same trees
and the same capture. -/
theorem parse_restated {doc doc' : Document} {j j' : Json} {d : Dump}
    (hwithin : doc.root.Within maxDepth) (hwithin' : doc'.root.Within maxDepth)
    (hvalue : doc.root.value? = some j) (hvalue' : doc'.root.value? = some j')
    (hdistinct : j.DistinctNames) (hdistinct' : j'.DistinctNames)
    (hrestates : Restates .dump j j') (hparse : parse doc.text = .ok d) :
    parse doc'.text = .ok d ∧
      (∀ names, (parse doc'.text).map (fun d => (Source.ofDump d).tree names) =
        (parse doc.text).map fun d => (Source.ofDump d).tree names) ∧
      (parse doc'.text).map (fun d => (Source.ofDump d).dump) =
        (parse doc.text).map fun d => (Source.ofDump d).dump := by
  have hform : Form j d :=
    (map_parse_eq_ok_iff readsAs_shape plain_shape hwithin hvalue).1 hparse
  have hparse' : parse doc'.text = .ok d :=
    (map_parse_eq_ok_iff readsAs_shape plain_shape hwithin' hvalue').2
      (keeps_dump _ _ _ hrestates hdistinct hdistinct' hform)
  exact ⟨hparse', fun names => by rw [hparse, hparse'], by rw [hparse, hparse']⟩

/-- A device in a dump, with two members that hold defaults. -/
def fullDocument : Document where
  before := .none
  root := .object .none
    [.mk .none (glyphsOf "devices") .none .none
      (.array .none [.mk .none (.object .none
        [.mk .none (glyphsOf "address") .none .none (.number (.ofNat 2)) .none,
         .mk .none (glyphsOf "bus") .none .none (.number (.ofNat 1)) .none,
         .mk .none (glyphsOf "ports") .none .none (.array .none []) .none]) .none])
      .none,
     .mk .none (glyphsOf "drivers") .none .none (.object .none []) .none]
  after := .none

/-- The same dump without them, with another member and other blanks. -/
def spareDocument : Document where
  before := .space
  root := .object .space
    [.mk .none (glyphsOf "note") .none .space .null .none,
     .mk .space (glyphsOf "devices") .none .space
      (.array .none [.mk .space (.object .none
        [.mk .space (glyphsOf "bus") .none .space (.number (.ofNat 1)) .none,
         .mk .space (glyphsOf "address") .none .space (.number (.ofNat 2)) .space]) .space])
      .space]
  after := .space

def fullDevice : Json :=
  .object [("address", .ofByte 2), ("bus", .ofByte 1), ("ports", .array [])]

def spareDevice : Json := .object [("bus", .ofByte 1), ("address", .ofByte 2)]

theorem restates_spareDevice : Restates .entry fullDevice spareDevice := by
  refine .object ?_ ?_ ?_
  · simp only [List.mem_cons, Prod.mk.injEq, List.not_mem_nil, or_false]
    rintro name v v' (⟨rfl, rfl⟩ | ⟨rfl, rfl⟩ | ⟨rfl, rfl⟩) (⟨h, rfl⟩ | ⟨h, rfl⟩)
    · exact absurd h (by decide)
    · exact .number _
    · exact .number _
    · exact absurd h (by decide)
    · exact absurd h (by decide)
    · exact absurd h (by decide)
  · simp [Role.defaults]
  · simp

theorem form_fullDevice : Record.Form fullDevice (.device ⟨1, [], 2, .unknown, []⟩) := by
  refine ⟨?_, _, rfl, ⟨.ofByte 1, rfl, rfl⟩, .inr ⟨.array [], rfl, [], rfl, .nil⟩,
    ⟨.ofByte 2, rfl, rfl⟩, .inl ⟨rfl, rfl⟩, .inl ⟨rfl, rfl⟩⟩
  rintro ms hms bus address error ⟨-, -, j, hj, -⟩
  cases hms
  cases hj

theorem parse_spareDocument :
    parse spareDocument.text = .ok ⟨[.device ⟨1, [], 2, .unknown, []⟩], .empty, .empty⟩ := by
  have hwithin : fullDocument.root.Within maxDepth := by
    simp [fullDocument, Written.Within, maxDepth, Member.value, Element.value]
  have hwithin' : spareDocument.root.Within maxDepth := by
    simp [spareDocument, Written.Within, maxDepth, Member.value, Element.value]
  have hfull : (Json.object [("devices", .array [fullDevice]),
      ("drivers", .object [])]).DistinctNames := by
    refine .object (by decide) (List.forall_mem_cons.2 ⟨.array ?_, ?_⟩)
    · refine List.forall_mem_singleton.2 (.object (by decide) ?_)
      exact List.forall_mem_cons.2 ⟨.number _, List.forall_mem_cons.2
        ⟨.number _, List.forall_mem_singleton.2 (.array (List.forall_mem_nil _))⟩⟩
    · exact List.forall_mem_singleton.2 (.object List.nodup_nil (List.forall_mem_nil _))
  have hspare : (Json.object [("note", .null),
      ("devices", .array [spareDevice])]).DistinctNames := by
    refine .object (by decide) (List.forall_mem_cons.2 ⟨.null, ?_⟩)
    refine List.forall_mem_singleton.2 (.array (List.forall_mem_singleton.2 ?_))
    refine .object (by decide) (List.forall_mem_cons.2 ⟨.number _, ?_⟩)
    exact List.forall_mem_singleton.2 (.number _)
  have hrestates : Restates .dump
      (.object [("devices", .array [fullDevice]), ("drivers", .object [])])
      (.object [("note", .null), ("devices", .array [spareDevice])]) := by
    refine .object ?_ ?_ ?_
    · simp only [List.mem_cons, Prod.mk.injEq, List.not_mem_nil, or_false]
      rintro name v v' (⟨rfl, rfl⟩ | ⟨rfl, rfl⟩) (⟨h, rfl⟩ | ⟨h, rfl⟩)
      · exact absurd h (by decide)
      · refine .array rfl fun i e e' he he' => ?_
        cases i with
        | zero =>
          cases he
          cases he'
          exact restates_spareDevice
        | succ i => cases he
      · exact absurd h (by decide)
      · exact absurd h (by decide)
    · simp [Role.defaults]
    · simp [Role.isRecord, knownNames]
  have hform : Form (.object [("devices", .array [fullDevice]), ("drivers", .object [])])
      ⟨[.device ⟨1, [], 2, .unknown, []⟩], .empty, .empty⟩ :=
    ⟨_, rfl, ⟨.array [fullDevice], rfl, _, rfl, .cons form_fullDevice .nil⟩,
      .inr ⟨.object [], rfl, [], [], rfl, .nil, rfl⟩, .inl ⟨rfl, rfl⟩⟩
  have hparse : parse fullDocument.text =
      .ok ⟨[.device ⟨1, [], 2, .unknown, []⟩], .empty, .empty⟩ :=
    (map_parse_eq_ok_iff readsAs_shape plain_shape hwithin rfl).2 hform
  exact (parse_restated hwithin hwithin' rfl rfl hfull hspare hrestates hparse).1

end Dump

end UsbTopology
