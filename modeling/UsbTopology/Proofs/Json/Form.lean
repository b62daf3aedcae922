import Mathlib.Data.List.Forall2
import UsbTopology.Proofs.Json.Exactness
import UsbTopology.Table

set_option autoImplicit false

/-!
# Forms

A form relates JSON to the value that it is written for. What a shape admits, and what is made of
it, is a form (`Shape.ReadsAs`): a record has one member for each field that needs one and at most
one for each other field, and an array in place of a record holds the fields in their order.
-/
namespace UsbTopology.Json

section

variable {α : Type}

def IsByte (j : Json) (b : UInt8) : Prop := j = .ofByte b

def IsText (j : Json) (s : String) : Prop := j = .string s

def IsNullOr (form : Json → α → Prop) (j : Json) (a? : Option α) : Prop :=
  j = .null ∧ a? = none ∨ ∃ a, form j a ∧ a? = some a

def IsList (form : Json → α → Prop) (j : Json) (as : List α) : Prop :=
  ∃ es, j = .array es ∧ List.Forall₂ form es as

/-- Of members of one name the last one counts. -/
def IsTable (form : Json → α → Prop) (j : Json) (t : Table String α) : Prop :=
  ∃ ms entries, j = .object ms ∧
    List.Forall₂ (fun m e => m.1 = e.1 ∧ form m.2 e.2) ms entries ∧ t = .ofList entries

def One (form : Json → α → Prop) (name : String) (ms : List (String × Json)) (a : α) : Prop :=
  ∃ j, occurrences name ms = [j] ∧ form j a

/-- There is no member of the name and the value is the default, or there is one and it stands for
the value. -/
def OneOr (form : Json → α → Prop) (default : α) (name : String) (ms : List (String × Json))
    (a : α) : Prop :=
  occurrences name ms = [] ∧ a = default ∨ One form name ms a

/-- The members of a record; an array holds the fields, as far as it goes, in their order. -/
def recordMembers? (names : List String) : Json → Option (List (String × Json))
  | .object ms => some ms
  | .array es => if es.length ≤ names.length then some (names.zip es) else none
  | _ => none

/-- What the shape admits reads as the values of the form. -/
def Shape.ReadsAs (shape : Shape) (reads : Json → α) (form : Json → α → Prop) : Prop :=
  ∀ j a, (shape.admit? j).map reads = some a ↔ form j a

theorem byte?_eq_some_iff {j : Json} {b : UInt8} : j.byte? = some b ↔ j = .ofByte b := by
  constructor
  · intro h
    cases j with
    | number n =>
      cases n with
      | natural n =>
        simp only [byte?] at h
        split at h
        · next hn =>
          cases h
          rw [ofByte, UInt8.toNat_ofNat_of_lt' hn]
        · cases h
      | negative n => cases h
      | real minus x => cases h
    | null | bool | string | array | object => cases h
  · rintro rfl
    exact byte?_ofByte b

theorem text?_eq_some_iff {j : Json} {s : String} : j.text? = some s ↔ j = .string s := by
  cases j <;> simp [text?]

theorem readsAs_byte : Shape.byte.ReadsAs (fun j => j.byte?.getD 0) IsByte := by
  intro j b
  have hread : (Shape.byte.admit? j).map (fun j => j.byte?.getD 0) = j.byte? := by
    rw [Shape.admit?, Option.map_map]
    cases j.byte? with
    | none => rfl
    | some b => simp [byte?_ofByte]
  rw [hread, byte?_eq_some_iff, IsByte]

theorem readsAs_text (expected : String) :
    (Shape.text expected).ReadsAs (fun j => j.text?.getD "") IsText := by
  intro j s
  have hread : ((Shape.text expected).admit? j).map (fun j => j.text?.getD "") = j.text? := by
    rw [Shape.admit?, Option.map_map]
    cases j.text? with
    | none => rfl
    | some s => simp [text?]
  rw [hread, text?_eq_some_iff, IsText]

theorem readsAs_nullOrByte : (Shape.optional .byte).ReadsAs byte? (IsNullOr IsByte) := by
  intro j a?
  by_cases hnull : j = .null
  · subst hnull
    have hbyte : ∀ b, ¬ IsByte .null b := fun b h => by cases h
    simp [Shape.admit?, byte?, IsNullOr, hbyte, eq_comm]
  · have hread : (Shape.optional .byte).admit? j = Shape.byte.admit? j := by
      cases j with
      | null => exact absurd rfl hnull
      | bool | number | string | array | object => rfl
    rw [hread, Shape.admit?, IsNullOr]
    simp only [hnull, false_and, false_or, IsByte, ← byte?_eq_some_iff]
    cases j.byte? with
    | none => simp
    | some b => simp [byte?_ofByte, eq_comm]

theorem mapM_map_eq_some_iff {β γ δ : Type} {f : β → Option γ} {g : γ → δ} {form : β → δ → Prop}
    (h : ∀ b d, (f b).map g = some d ↔ form b d) {bs : List β} {ds : List δ} :
    (bs.mapM f).map (List.map g) = some ds ↔ List.Forall₂ form bs ds := by
  induction bs generalizing ds with
  | nil => simp [eq_comm]
  | cons b bs ih =>
    rw [List.forall₂_cons_left_iff, Option.map_eq_some_iff]
    constructor
    · rintro ⟨cs, hcs, rfl⟩
      obtain ⟨c, cs', hc, hcs', rfl⟩ := mapM_cons_eq_some_iff.1 hcs
      have hb : form b (g c) := (h b _).1 (by rw [hc]; rfl)
      have hbs : List.Forall₂ form bs (cs'.map g) := ih.1 (by rw [hcs']; rfl)
      exact ⟨g c, cs'.map g, hb, hbs, rfl⟩
    · rintro ⟨d, ds, hd, hds, rfl⟩
      obtain ⟨c, hc, rfl⟩ := Option.map_eq_some_iff.1 ((h b d).2 hd)
      obtain ⟨cs, hcs, rfl⟩ := Option.map_eq_some_iff.1 (ih.2 hds)
      exact ⟨c :: cs, mapM_cons_eq_some_iff.2 ⟨c, cs, hc, hcs, rfl⟩, rfl⟩

variable {shape : Shape} {reads : Json → α} {form : Json → α → Prop}

theorem readsAs_list (h : shape.ReadsAs reads form) :
    (Shape.list shape).ReadsAs (fun j => j.elements.map reads) (IsList form) := by
  intro j as
  cases j with
  | array es =>
    have hiff := @mapM_map_eq_some_iff _ _ _ _ _ _ h es as
    rw [Shape.admit?, Option.map_map]
    simp only [IsList, Json.array.injEq, exists_eq_left']
    exact hiff
  | null | bool | number | string | object => simp [Shape.admit?, IsList]

theorem readsAs_table (h : shape.ReadsAs reads form) :
    (Shape.table shape).ReadsAs
      (fun j => Table.ofList (j.members.map fun m => (m.1, reads m.2))) (IsTable form) := by
  intro j t
  cases j with
  | object ms =>
    have hmember : ∀ (m : String × Json) (e : String × α),
        ((shape.admit? m.2).map (Prod.mk m.1)).map (fun k => (k.1, reads k.2)) = some e ↔
          m.1 = e.1 ∧ form m.2 e.2 := by
      rintro ⟨name, j⟩ ⟨name', a⟩
      rw [Option.map_map, ← h, Option.map_eq_some_iff, Option.map_eq_some_iff]
      simp [and_left_comm]
    have hiff := fun entries => @mapM_map_eq_some_iff _ _ _ _ _ _ hmember ms entries
    rw [Shape.admit?, Option.map_map, Option.map_eq_some_iff]
    simp only [IsTable, Json.object.injEq]
    constructor
    · rintro ⟨ks, hks, rfl⟩
      exact ⟨ms, _, rfl, (hiff _).1 (by rw [hks]; rfl), rfl⟩
    · rintro ⟨_, entries, rfl, hentries, rfl⟩
      obtain ⟨ks, hks, rfl⟩ := Option.map_eq_some_iff.1 ((hiff entries).2 hentries)
      exact ⟨ks, hks, rfl⟩
  | null | bool | number | string | array => simp [Shape.admit?, IsTable]

namespace Field

variable {f : Field} {fields : List Field} {ms : List (String × Json)}

theorem suits_and_elim_eq_iff (h : f.shape.ReadsAs reads form) {default a : α} :
    (f.Suits ms ∧ (f.value? ms).elim default reads = a) ↔ OneOr form default f.name ms a := by
  rw [OneOr, One]
  constructor
  · rintro ⟨hnone | ⟨j, k, hone, hk⟩, hvalue⟩
    · rw [value?_of_nil hnone] at hvalue
      exact .inl ⟨hnone, hvalue.symm⟩
    · rw [value?_of_one hone, hk] at hvalue
      exact .inr ⟨j, hone, (h j a).1 (by rw [hk]; exact congrArg some hvalue)⟩
  · rintro (⟨hnone, rfl⟩ | ⟨j, hone, hj⟩)
    · exact ⟨.inl hnone, by rw [value?_of_nil hnone]; rfl⟩
    · obtain ⟨k, hk, rfl⟩ := Option.map_eq_some_iff.1 ((h j a).2 hj)
      exact ⟨.inr ⟨j, k, hone, hk⟩, by rw [value?_of_one hone, hk]; rfl⟩

theorem suits_and_isSome_and_elim_eq_iff (h : f.shape.ReadsAs reads form) {default a : α} :
    ((f.Suits ms ∧ (f.value? ms).isSome) ∧ (f.value? ms).elim default reads = a) ↔
      One form f.name ms a := by
  have hiff := @suits_and_elim_eq_iff _ _ _ f ms h default a
  rw [OneOr] at hiff
  constructor
  · rintro ⟨⟨hsuits, hsome⟩, hvalue⟩
    rcases hiff.1 ⟨hsuits, hvalue⟩ with ⟨hnone, -⟩ | hone
    · rw [value?_of_nil hnone] at hsome
      cases hsome
    · exact hone
  · intro hone
    obtain ⟨hsuits, hvalue⟩ := hiff.2 (.inr hone)
    refine ⟨⟨hsuits, ?_⟩, hvalue⟩
    obtain ⟨j, hj, hform⟩ := hone
    obtain ⟨k, hk, -⟩ := Option.map_eq_some_iff.1 ((h j a).2 hform)
    rw [value?_of_one hj, hk]
    rfl

theorem admitMembers?_eq_some_iff {ks : List (String × Json)} :
    admitMembers? fields ms = some ks ↔
      (∀ f ∈ fields, f.Suits ms ∧ (f.required → (f.value? ms).isSome)) ∧
        ks = fields.filterMap fun f => (f.value? ms).map (Prod.mk f.name) := by
  constructor
  · exact admitMembers?_eq_some
  · rintro ⟨hall, rfl⟩
    exact admitMembers?_of_suits hall

theorem admitMembers?_cons_of_ne {m : String × Json} (h : ∀ f ∈ fields, f.name ≠ m.1) :
    admitMembers? fields (m :: ms) = admitMembers? fields ms := by
  induction fields with
  | nil => rfl
  | cons f fields ih =>
    obtain ⟨hne, hrest⟩ := List.forall_mem_cons.1 h
    obtain ⟨name, required, shape⟩ := f
    have hother : occurrences name (m :: ms) = occurrences name ms :=
      occurrences_cons_of_ne (Ne.symm hne) ms
    rw [admitMembers?, admitMembers?, hother, ih hrest]

theorem occurrences_zip {name : String} {names : List String} (h : name ∉ names)
    (es : List Json) : occurrences name (names.zip es) = [] := by
  rw [occurrences, List.map_eq_nil_iff, List.filter_eq_nil_iff]
  intro m hm
  have hname : m.1 ≠ name := fun heq => h (heq ▸ (List.of_mem_zip hm).1)
  simpa using hname

theorem admitElements?_eq (hnodup : (fields.map Field.name).Nodup) (es : List Json) :
    admitElements? fields es =
      if es.length ≤ fields.length then
        admitMembers? fields ((fields.map Field.name).zip es)
      else none := by
  induction fields generalizing es with
  | nil => cases es <;> rfl
  | cons f fields ih =>
    obtain ⟨hnotMem, hrest⟩ := List.nodup_cons.1 hnodup
    obtain ⟨name, required, shape⟩ := f
    cases es with
    | nil =>
      have hnil := ih hrest []
      simp only [List.length_nil, Nat.zero_le, if_true, List.zip_nil_right] at hnil ⊢
      rw [admitElements?, admitMembers?, hnil]
      rfl
    | cons e es =>
      have hone : occurrences name ((name, e) :: (fields.map Field.name).zip es) = [e] := by
        rw [occurrences_cons_self]
        exact congrArg (List.cons e) (occurrences_zip hnotMem es)
      have hne : ∀ f ∈ fields, f.name ≠ name := fun f hf heq =>
        hnotMem (List.mem_map.2 ⟨f, hf, heq⟩)
      simp only [List.length_cons, Nat.add_le_add_iff_right, List.map_cons, List.zip_cons_cons]
      rw [admitElements?, admitMembers?, show Field.name (.mk name required shape) = name from rfl,
        hone, admitMembers?_cons_of_ne hne, ih hrest]
      split
      · rfl
      · cases shape.admit? e <;> rfl

end Field

section

variable {fields : List Field} (hnodup : (fields.map Field.name).Nodup)

def plainMembers (fields : List Field) (ms : List (String × Json)) : Json :=
  .object (fields.filterMap fun f => (f.value? ms).map (Prod.mk f.name))

theorem member?_plainMembers_eq_none {name : String} (h : ∀ f ∈ fields, f.name ≠ name)
    (ms : List (String × Json)) : (plainMembers fields ms).member? name = none := by
  rw [plainMembers, member?, members, List.lookup_eq_none_iff]
  intro m hm
  obtain ⟨f, hf, hfm⟩ := List.mem_filterMap.1 hm
  obtain ⟨k, -, rfl⟩ := Option.map_eq_some_iff.1 hfm
  exact bne_iff_ne.2 (Ne.symm (h f hf))

include hnodup in
theorem member?_plainMembers {f : Field} (hf : f ∈ fields) (ms : List (String × Json)) :
    (plainMembers fields ms).member? f.name = f.value? ms := by
  induction fields with
  | nil => cases hf
  | cons g fields ih =>
    obtain ⟨hnotMem, hrest⟩ := List.nodup_cons.1 hnodup
    have hlater : ∀ f ∈ fields, f.name ≠ g.name := fun f hf heq =>
      hnotMem (List.mem_map.2 ⟨f, hf, heq⟩)
    have hcons : ∀ name, (plainMembers (g :: fields) ms).member? name =
        if name = g.name then (g.value? ms).or ((plainMembers fields ms).member? name)
        else (plainMembers fields ms).member? name := by
      intro name
      simp only [plainMembers, member?, members]
      cases hvalue : g.value? ms with
      | none => rw [List.filterMap_cons_none (by rw [hvalue]; rfl)]; simp
      | some k =>
        rw [List.filterMap_cons_some (by rw [hvalue]; rfl), List.lookup_cons]
        by_cases hname : name = g.name <;> simp [hname, beq_false_of_ne]
    rw [hcons]
    rcases List.mem_cons.1 hf with rfl | hf
    · rw [if_pos rfl, member?_plainMembers_eq_none hlater, Option.or_none]
    · rw [if_neg (hlater f hf), ih hrest hf]

theorem map_admitMembers?_eq_some_iff {ms : List (String × Json)} {a : α} :
    ((Field.admitMembers? fields ms).map Json.object).map reads = some a ↔
      (∀ f ∈ fields, f.Suits ms ∧ (f.required → (f.value? ms).isSome)) ∧
        reads (plainMembers fields ms) = a := by
  rw [Option.map_map, Option.map_eq_some_iff]
  simp only [Field.admitMembers?_eq_some_iff]
  constructor
  · rintro ⟨_, ⟨hall, rfl⟩, ha⟩
    exact ⟨hall, ha⟩
  · rintro ⟨hall, ha⟩
    exact ⟨_, ⟨hall, rfl⟩, ha⟩

include hnodup in
theorem map_admit?_record_eq_some_iff {name : String} {j : Json} {a : α} :
    ((Shape.record name ⟨true, true⟩ fields).admit? j).map reads = some a ↔
      ∃ ms, recordMembers? (fields.map Field.name) j = some ms ∧
        (∀ f ∈ fields, f.Suits ms ∧ (f.required → (f.value? ms).isSome)) ∧
          reads (plainMembers fields ms) = a := by
  cases j with
  | object ms =>
    rw [Shape.admit?, Bool.true_or, if_pos rfl, map_admitMembers?_eq_some_iff]
    simp [recordMembers?]
  | array es =>
    rw [Shape.admit?, if_pos rfl, Field.admitElements?_eq hnodup]
    simp only [recordMembers?, List.length_map]
    split
    · simp only [map_admitMembers?_eq_some_iff, Option.some.injEq, exists_eq_left']
    · simp
  | null | bool | number | string => simp [Shape.admit?, recordMembers?]

variable {name : String} {ms : List (String × Json)} {a : α}

include hnodup in
theorem one_iff_plain (h : shape.ReadsAs reads form) (hf : .mk name true shape ∈ fields)
    (default : α) :
    One form name ms a ↔
      ((Field.mk name true shape).Suits ms ∧ ((Field.mk name true shape).value? ms).isSome) ∧
        ((plainMembers fields ms).member? name).elim default reads = a := by
  have hmember : (plainMembers fields ms).member? name = (Field.mk name true shape).value? ms :=
    member?_plainMembers hnodup hf ms
  rw [hmember]
  exact (@Field.suits_and_isSome_and_elim_eq_iff _ _ _ (.mk name true shape) ms h default a).symm

include hnodup in
theorem oneOr_iff_plain (h : shape.ReadsAs reads form) (hf : .mk name false shape ∈ fields)
    (default : α) :
    OneOr form default name ms a ↔ (Field.mk name false shape).Suits ms ∧
      ((plainMembers fields ms).member? name).elim default reads = a := by
  have hmember : (plainMembers fields ms).member? name = (Field.mk name false shape).value? ms :=
    member?_plainMembers hnodup hf ms
  rw [hmember]
  exact (@Field.suits_and_elim_eq_iff _ _ _ (.mk name false shape) ms h default a).symm

end

theorem map_parse_eq_ok_iff (h : shape.ReadsAs reads form) (hplain : shape.Plain) {doc : Document}
    {j : Json} {a : α} (hwithin : doc.root.Within maxDepth) (hvalue : doc.root.value? = some j) :
    (shape.parse doc.text).map reads = .ok a ↔ form j a := by
  have hparse := fun k => @parse_document shape hplain doc j k hwithin hvalue
  rw [← h]
  cases hresult : shape.parse doc.text with
  | error fault =>
    have hnone : shape.admit? j = none := by
      cases hadmits : shape.admit? j with
      | none => rfl
      | some k => cases hresult.symm.trans ((hparse k).2 hadmits)
    simp [Except.map, hnone]
  | ok k => simp [Except.map, (hparse k).1 hresult]

end

end UsbTopology.Json
