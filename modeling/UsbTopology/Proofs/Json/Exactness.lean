import UsbTopology.Proofs.Json.Reading
import UsbTopology.Proofs.Json.Shape

set_option autoImplicit false

/-!
# Reading for a shape is exact

A reader that succeeds for a shape on the text of a value gives what the shape admits of the value,
so that a well-formed text is parsed exactly when the shape admits its value (`parse_document`).
-/
namespace UsbTopology.Json

section

variable {κ α β : Type} {name : Cursor → Except Stop (κ × Cursor)}
  {read : Cursor → Except Stop (α × Cursor)} {read' : Cursor → Except Stop (β × Cursor)}
  {rounds : List Char} {first : Bool} {c c' c'' : Cursor}

/-- Where both readers succeed, `read'` gives the translation of what `read` gives. -/
def Reflects (read : Cursor → Except Stop (α × Cursor)) (read' : Cursor → Except Stop (β × Cursor))
    (f : α → Option β) : Prop :=
  ∀ c c' c'' a b, read c = .ok (a, c') → read' c = .ok (b, c'') → f a = some b ∧ c'' = c'

theorem readElements_reflects {f : α → Option β} (href : Reflects read read' f) {as : List α}
    {bs : List β} (h : readElements read rounds first c = .ok (as, c'))
    (h' : readElements read' rounds first c = .ok (bs, c'')) : as.mapM f = some bs ∧ c'' = c' := by
  induction as generalizing rounds first c bs with
  | nil =>
    have hseek := readElements_nil h
    cases bs with
    | nil =>
      have hsame := hseek.symm.trans (readElements_nil h')
      cases hsame
      exact ⟨rfl, rfl⟩
    | cons b bs =>
      obtain ⟨_, _, _, _, -, hseek', -⟩ := readElements_cons h'
      cases hseek.symm.trans hseek'
  | cons a as ih =>
    obtain ⟨ch, rounds, c₁, c₂, rfl, hseek, ha, htail⟩ := readElements_cons h
    cases bs with
    | nil => cases hseek.symm.trans (readElements_nil h')
    | cons b bs =>
      obtain ⟨_, _, d₁, d₂, hrounds, hseek', hb, htail'⟩ := readElements_cons h'
      cases hrounds
      cases hseek.symm.trans hseek'
      obtain ⟨hf, rfl⟩ := href _ _ _ _ _ ha hb
      obtain ⟨hfs, hc⟩ := ih htail htail'
      exact ⟨mapM_cons_eq_some_iff.2 ⟨b, bs, hf, hfs, rfl⟩, hc⟩

theorem readMembers_reflects {f : α → Option β} (href : Reflects read read' f)
    {as : List (κ × α)} {bs : List (κ × β)}
    (h : readMembers name read rounds first c = .ok (as, c'))
    (h' : readMembers name read' rounds first c = .ok (bs, c'')) :
    as.mapM (fun m => (f m.2).map (Prod.mk m.1)) = some bs ∧ c'' = c' := by
  induction as generalizing rounds first c bs with
  | nil =>
    have hseek := readMembers_nil h
    cases bs with
    | nil =>
      have hsame := hseek.symm.trans (readMembers_nil h')
      cases hsame
      exact ⟨rfl, rfl⟩
    | cons b bs =>
      obtain ⟨_, _, _, _, _, _, -, hseek', -⟩ := readMembers_cons h'
      cases hseek.symm.trans hseek'
  | cons a as ih =>
    obtain ⟨ch, rounds, c₁, c₂, c₃, c₄, rfl, hseek, hname, hcolon, ha, htail⟩ := readMembers_cons h
    cases bs with
    | nil => cases hseek.symm.trans (readMembers_nil h')
    | cons b bs =>
      obtain ⟨k, a⟩ := a
      obtain ⟨k', b⟩ := b
      obtain ⟨_, _, d₁, d₂, d₃, d₄, hrounds, hseek', hname', hcolon', hb, htail'⟩ :=
        readMembers_cons h'
      cases hrounds
      cases hseek.symm.trans hseek'
      cases hname.symm.trans hname'
      cases hcolon.symm.trans hcolon'
      obtain ⟨hf, rfl⟩ := href _ _ _ _ _ ha hb
      obtain ⟨hfs, hc⟩ := ih htail htail'
      refine ⟨mapM_cons_eq_some_iff.2 ⟨(k, b), bs, ?_, hfs, rfl⟩, hc⟩
      exact congrArg (Option.map (Prod.mk k)) hf

end

/-- Reading for the shape gives nothing that the shape does not admit. -/
def Shape.Exact (shape : Shape) : Prop :=
  ∀ depth, Reflects (readValue depth) (shape.read depth) shape.admit?

theorem mistype_ne_ok {α : Type} (expected : String) (c : Cursor) (a : α) :
    mistype expected c ≠ .ok a := by
  intro h
  obtain ⟨⟨found, c'⟩, -, hfail⟩ := bind_eq_ok_iff.1 h
  cases hfail

theorem exact_byte : Shape.byte.Exact := by
  intro depth c c' c'' j k hvalue hshape
  rw [Shape.read] at hshape
  obtain ⟨⟨b, c₁⟩, hbyte, hok⟩ := bind_eq_ok_iff.1 hshape
  cases hok
  unfold readByte at hbyte
  cases taken_of_readValue hvalue with
  | @number _ ch rest n _ hrest hch hnumber =>
    simp only [hrest, hch, if_true, readByteNumber, hnumber, ok_bind] at hbyte
    cases n with
    | natural n =>
      cases hb : (Json.number (.natural n)).byte? with
      | none => simp [hb, Cursor.fail] at hbyte
      | some b' =>
        simp only [hb] at hbyte
        cases hbyte
        exact ⟨by rw [Shape.admit?, hb]; rfl, rfl⟩
    | negative n => cases hbyte
    | real minus x => cases hbyte
  | null hrest | yes hrest | no hrest | text hrest | array hrest | object hrest =>
    simp only [hrest] at hbyte
    exact absurd hbyte (mistype_ne_ok _ _ _)

theorem exact_text (expected : String) : (Shape.text expected).Exact := by
  intro depth c c' c'' j k hvalue hshape
  rw [Shape.read] at hshape
  obtain ⟨⟨s, c₁⟩, htext, hok⟩ := bind_eq_ok_iff.1 hshape
  cases hok
  unfold readText at htext
  cases taken_of_readValue hvalue with
  | text hrest hname =>
    simp only [hrest] at htext
    cases hname.symm.trans htext
    exact ⟨rfl, rfl⟩
  | number hrest hch =>
    simp only [hrest] at htext
    split at htext
    · next heq =>
      cases heq
      exact absurd hch (by decide)
    · exact absurd htext (mistype_ne_ok _ _ _)
  | null hrest | yes hrest | no hrest | array hrest | object hrest =>
    simp only [hrest] at htext
    exact absurd htext (mistype_ne_ok _ _ _)

theorem readChoiceName_eq_ok {names : List String} {c c' : Cursor} {s : String}
    (h : readChoiceName names c = .ok (s, c')) : readName c = .ok (s, c') ∧ s ∈ names := by
  obtain ⟨⟨s', c₁⟩, hname, hmem⟩ := bind_eq_ok_iff.1 h
  simp only at hmem
  split at hmem
  · next hs =>
    cases hmem
    exact ⟨hname, hs⟩
  · cases hmem

theorem seekMember_of_seekChoiceName {c c' : Cursor} (h : seekChoiceName c = .ok c') :
    seekMember true c = .ok (true, c') := by
  unfold seekChoiceName at h
  unfold seekMember
  cases hrest : c.skipBlanks.rest with
  | nil => simp [hrest, Cursor.fail] at h
  | cons ch rest =>
    simp only [hrest, if_true] at h ⊢
    split at h
    · next hch =>
      cases h
      simp [hch]
    · split at h <;> cases h

theorem readUnit_eq_ok {depth : Nat} {c c' c'' : Cursor} {j : Json}
    (hvalue : readValue depth c = .ok (j, c')) (hunit : readUnit c = .ok c'') :
    j = .null ∧ c'' = c' := by
  unfold readUnit at hunit
  cases taken_of_readValue hvalue with
  | null hrest hnull =>
    simp only [hrest] at hunit
    exact ⟨rfl, Except.ok.inj (hunit.symm.trans hnull)⟩
  | number hrest hch =>
    simp only [hrest] at hunit
    split at hunit
    · next heq =>
      cases heq
      exact absurd hch (by decide)
    · exact absurd hunit (mistype_ne_ok _ _ _)
  | yes hrest | no hrest | text hrest | array hrest | object hrest =>
    simp only [hrest] at hunit
    exact absurd hunit (mistype_ne_ok _ _ _)

theorem seekMember_closing {c : Cursor} {rest : List Char} (h : c.skipBlanks.rest = '\x7d' :: rest)
    (first : Bool) : seekMember first c = .ok (false, c.skipBlanks) := by
  simp [seekMember, h]

theorem readChoice_reflects_object {names : List String} {depth : Nat} {c c' c'' : Cursor}
    {s : String} {ms : List (String × Json)} {rest : List Char}
    (hrest : c.skipBlanks.rest = '\x7b' :: rest)
    (hobject : readObject readName (readValue depth) c.skipBlanks = .ok (ms, c'))
    (hchoice : readChoice (depth + 1) names c = .ok (s, c'')) :
    ms = [(s, .null)] ∧ s ∈ names ∧ c'' = c' := by
  obtain ⟨c₁, hmembers, hclose⟩ := settle_eq_ok_iff.1 hobject
  simp only [readChoice, hrest, if_true] at hchoice
  obtain ⟨d₁, hfound, hchoice⟩ := bind_eq_ok_iff.1 hchoice
  obtain ⟨⟨s', d₂⟩, hname, hchoice⟩ := bind_eq_ok_iff.1 hchoice
  obtain ⟨d₃, hcolon, hchoice⟩ := bind_eq_ok_iff.1 hchoice
  obtain ⟨d₄, hunit, hchoice⟩ := bind_eq_ok_iff.1 hchoice
  obtain ⟨hread, hs⟩ := readChoiceName_eq_ok hname
  have hseek := seekMember_of_seekChoiceName hfound
  cases ms with
  | nil => cases (readMembers_nil hmembers).symm.trans hseek
  | cons m ms =>
    obtain ⟨n, j⟩ := m
    obtain ⟨_, _, c₂, c₃, c₄, c₅, -, hseek', hname', hcolon', hvalue, htail⟩ :=
      readMembers_cons hmembers
    cases hseek.symm.trans hseek'
    cases hread.symm.trans hname'
    cases hcolon.symm.trans hcolon'
    obtain ⟨rfl, rfl⟩ := readUnit_eq_ok hvalue hunit
    -- What follows the one member is the closing bracket for both.
    cases hend : d₄.skipBlanks.rest with
    | nil => simp [hend, Cursor.fail] at hchoice
    | cons ch rest' =>
      simp only [hend] at hchoice
      split at hchoice
      · next hch =>
        cases hchoice
        subst hch
        have hdone := seekMember_closing hend false
        cases ms with
        | nil =>
          cases hdone.symm.trans (readMembers_nil htail)
          rw [closeObject_done (skipBlanks_skipBlanks d₄) hend] at hclose
          exact ⟨rfl, hs, congrArg Prod.snd hclose⟩
        | cons m ms =>
          obtain ⟨_, _, _, _, _, _, -, hmore, -⟩ := readMembers_cons htail
          cases hdone.symm.trans hmore
      · cases hchoice

theorem exact_choice (names : List String) : (Shape.choice names).Exact := by
  intro depth c c' c'' j k hvalue hshape
  rw [Shape.read] at hshape
  obtain ⟨⟨s, c₁⟩, hchoice, hok⟩ := bind_eq_ok_iff.1 hshape
  cases hok
  cases taken_of_readValue hvalue with
  | @text _ _ t _ hrest hname =>
    have hname' : readChoiceName names c.skipBlanks = .ok (s, c'') := by
      simpa [readChoice, hrest] using hchoice
    obtain ⟨hread, hs⟩ := readChoiceName_eq_ok hname'
    cases hname.symm.trans hread
    exact ⟨by rw [Shape.admit?, if_pos hs], rfl⟩
  | @object depth rest ms _ hrest hobject =>
    obtain ⟨rfl, hs, rfl⟩ := readChoice_reflects_object hrest hobject hchoice
    exact ⟨by rw [Shape.admit?, if_pos hs], rfl⟩
  | @number _ ch rest n _ hrest hch =>
    have hopen : ch ≠ '\x7b' := by rintro rfl; exact absurd hch (by decide)
    have hquote : ch ≠ '"' := by rintro rfl; exact absurd hch (by decide)
    simp [readChoice, hrest, hopen, hquote, Cursor.refuse] at hchoice
  | null hrest | yes hrest | no hrest | array hrest =>
    simp [readChoice, hrest, Cursor.refuse] at hchoice

theorem exact_optional {shape : Shape} (h : shape.Exact) : (Shape.optional shape).Exact := by
  intro depth c c' c'' j k hvalue hshape
  have hskipped := (readValue_skipBlanks depth c).trans hvalue
  rw [Shape.read] at hshape
  cases taken_of_readValue hvalue with
  | null hrest hnull =>
    simp only [hrest, hnull, ok_bind] at hshape
    cases hshape
    exact ⟨by rw [Shape.admit?], rfl⟩
  | yes hrest | no hrest | text hrest | array hrest | object hrest =>
    simp only [hrest] at hshape
    exact h _ _ _ _ _ _ hskipped hshape
  | number hrest hch =>
    simp only [hrest] at hshape
    split at hshape
    · next heq =>
      cases heq
      exact absurd hch (by decide)
    · exact h _ _ _ _ _ _ hskipped hshape

theorem opens_of_rest {c : Cursor} {d ch : Char} {rest : List Char} (hrest : c.rest = d :: rest)
    (hne : d ≠ ch) : opens ch c = false := by
  simp [opens, hrest, hne]

theorem exact_list {shape : Shape} (h : shape.Exact) : (Shape.list shape).Exact := by
  intro depth c c' c'' j k hvalue hshape
  rw [Shape.read.eq_def] at hshape
  cases taken_of_readValue hvalue with
  | @array depth rest es _ hrest harray =>
    have hopens : opens '[' c.skipBlanks = true := by simp [opens, hrest]
    simp only [hopens, if_true] at hshape
    obtain ⟨⟨ks, d⟩, harray', hok⟩ := bind_eq_ok_iff.1 hshape
    cases hok
    obtain ⟨c₁, helements, hclose⟩ := settle_eq_ok_iff.1 harray
    obtain ⟨c₂, helements', hclose'⟩ := settle_eq_ok_iff.1 harray'
    obtain ⟨hks, rfl⟩ := readElements_reflects (h depth) helements helements'
    refine ⟨?_, congrArg Prod.snd (hclose'.symm.trans hclose)⟩
    rw [Shape.admit?, hks]
    rfl
  | number hrest hch =>
    have hopens := @opens_of_rest _ _ '[' _ hrest (by rintro rfl; exact absurd hch (by decide))
    simp only [hopens] at hshape
    exact absurd hshape (mistype_ne_ok _ _ _)
  | null hrest | yes hrest | no hrest | text hrest | object hrest =>
    simp only [@opens_of_rest _ _ '[' _ hrest (by decide)] at hshape
    exact absurd hshape (mistype_ne_ok _ _ _)

theorem exact_table {shape : Shape} (h : shape.Exact) : (Shape.table shape).Exact := by
  intro depth c c' c'' j k hvalue hshape
  rw [Shape.read.eq_def] at hshape
  cases taken_of_readValue hvalue with
  | @object depth rest ms _ hrest hobject =>
    have hopens : opens '\x7b' c.skipBlanks = true := by simp [opens, hrest]
    simp only [hopens, if_true] at hshape
    obtain ⟨⟨ks, d⟩, hobject', hok⟩ := bind_eq_ok_iff.1 hshape
    cases hok
    obtain ⟨c₁, hmembers, hclose⟩ := settle_eq_ok_iff.1 hobject
    obtain ⟨c₂, hmembers', hclose'⟩ := settle_eq_ok_iff.1 hobject'
    obtain ⟨hks, rfl⟩ := readMembers_reflects (h depth) hmembers hmembers'
    refine ⟨?_, congrArg Prod.snd (hclose'.symm.trans hclose)⟩
    rw [Shape.admit?, hks]
    rfl
  | number hrest hch =>
    have hopens := @opens_of_rest _ _ '\x7b' _ hrest (by rintro rfl; exact absurd hch (by decide))
    simp only [hopens] at hshape
    exact absurd hshape (mistype_ne_ok _ _ _)
  | null hrest | yes hrest | no hrest | text hrest | array hrest =>
    simp only [@opens_of_rest _ _ '\x7b' _ hrest (by decide)] at hshape
    exact absurd hshape (mistype_ne_ok _ _ _)

theorem exact_either (name : String) (alternatives : List Shape) :
    (Shape.either name alternatives).Exact := by
  intro depth c c' c'' j k hvalue hshape
  rw [Shape.read] at hshape
  simp only [hvalue, ok_bind] at hshape
  cases hadmits : Shape.admitFirst? alternatives j with
  | none => simp [hadmits] at hshape
  | some k' =>
    simp only [hadmits] at hshape
    cases hshape
    exact ⟨by rw [Shape.admit?, hadmits], rfl⟩

namespace Field

variable {f : Field} {fields : List Field} {seen : List String} {name : String} {j k : Json}
  {members : List (String × Json)}

theorem Awaits.cons_unknown (h : Awaits fields seen members) (hne : ∀ f ∈ fields, f.name ≠ name) :
    Awaits fields seen ((name, j) :: members) := by
  intro f hf
  have hother := @occurrences_cons_of_ne f.name (name, j) (Ne.symm (hne f hf)) members
  rw [Suits, hother]
  exact h f hf

theorem Awaits.cons_known (h : Awaits fields (f.name :: seen) members)
    (hnodup : (fields.map Field.name).Nodup) (hf : f ∈ fields) (hunseen : f.name ∉ seen)
    (hk : f.shape.admit? j = some k) : Awaits fields seen ((f.name, j) :: members) := by
  intro g hg
  by_cases hgf : g.name = f.name
  · obtain rfl := eq_of_name_eq hnodup hg hf hgf
    have hlast := (h g hg).2 List.mem_cons_self
    rw [Suits, occurrences_cons_self, hlast]
    exact ⟨.inr ⟨j, k, rfl, hk⟩, fun hmem => absurd hmem hunseen⟩
  · have hother := @occurrences_cons_of_ne g.name (f.name, j) (Ne.symm hgf) members
    rw [Suits, hother]
    exact ⟨(h g hg).1, fun hmem => (h g hg).2 (List.mem_cons_of_mem _ hmem)⟩

theorem value?_of_nil (h : occurrences f.name members = []) : f.value? members = none := by
  rw [value?, h]
  rfl

theorem value?_of_one (h : occurrences f.name members = [j]) :
    f.value? members = f.shape.admit? j := by
  rw [value?, h]
  rfl

theorem admitMembers?_of_suits
    (h : ∀ f ∈ fields, f.Suits members ∧ (f.required → (f.value? members).isSome)) :
    admitMembers? fields members =
      some (fields.filterMap fun f => (f.value? members).map (Prod.mk f.name)) := by
  induction fields with
  | nil => rfl
  | cons f fields ih =>
    obtain ⟨⟨hsuits, hrequired⟩, hrest⟩ := List.forall_mem_cons.1 h
    have hfields := ih hrest
    rcases hsuits with hnone | ⟨j, k, hone, hk⟩
    · have hvalue := value?_of_nil hnone
      obtain ⟨name, required, shape⟩ := f
      have hoptional : ¬ required = true := fun hr => by simpa [hvalue] using hrequired hr
      rw [admitMembers?, show occurrences name members = [] from hnone,
        List.filterMap_cons_none (by rw [hvalue]; rfl)]
      simpa [hoptional] using hfields
    · have hvalue := (value?_of_one hone).trans hk
      obtain ⟨name, required, shape⟩ := f
      rw [admitMembers?, show occurrences name members = [j] from hone,
        List.filterMap_cons_some (by rw [hvalue]; rfl)]
      simp [show shape.admit? j = some k from hk, hfields, Field.name]

end Field

section

variable {fields : List Field} (hnodup : (fields.map Field.name).Nodup)
  (hexact : ∀ f ∈ fields, f.shape.Exact)

include hnodup hexact in
theorem readFieldMembers_reflects {layout : Layout} {depth : Nat} {rounds : List Char}
    {first : Bool} {seen : List String} {c c' c'' : Cursor} {ms known : List (String × Json)}
    (hread : readMembers readName (readValue depth) rounds first c = .ok (ms, c'))
    (hrun : readFieldMembers layout (Field.readers fields depth) rounds first seen c =
      .ok (known, c'')) :
    (layout.extensible = true ∨ ∀ m ∈ ms, ∃ f ∈ fields, f.name = m.1) ∧
      Field.Awaits fields seen ms ∧ (∀ f ∈ fields, known.lookup f.name = f.value? ms) ∧
      c'' = c' := by
  induction ms generalizing rounds first seen c known with
  | nil =>
    cases rounds with
    | nil => cases hread
    | cons ch rounds =>
      rw [readFieldMembers, readMembers_nil hread, ok_bind] at hrun
      cases hrun
      exact ⟨.inr (List.forall_mem_nil _), fun f _ => ⟨.inl rfl, fun _ => rfl⟩, fun f _ => rfl,
        rfl⟩
  | cons m ms ih =>
    obtain ⟨name, j⟩ := m
    obtain ⟨ch, rounds, c₁, c₂, c₃, c₄, rfl, hseek, hname, hcolon, hvalue, htail⟩ :=
      readMembers_cons hread
    rw [readFieldMembers] at hrun
    simp only [hseek, ok_bind, hname, find?_readers] at hrun
    cases hfind : fields.find? fun f => f.name = name with
    | none =>
      have hne : ∀ f ∈ fields, f.name ≠ name := fun f hf => by
        simpa using List.find?_eq_none.1 hfind f hf
      simp only [hfind, Option.map_none] at hrun
      split at hrun
      · next hopen =>
        simp only [hcolon, ok_bind, skipValue_of_readValue hvalue] at hrun
        obtain ⟨-, hawaits, hlookup, hc⟩ := ih htail hrun
        refine ⟨.inl hopen, hawaits.cons_unknown hne, fun f hf => ?_, hc⟩
        rw [Field.value?_cons_of_ne (hne f hf)]
        exact hlookup f hf
      · cases hrun
    | some f =>
      have hf : f ∈ fields := List.mem_of_find?_eq_some hfind
      have hfn : f.name = name := by simpa using List.find?_some hfind
      subst hfn
      simp only [hfind, Option.map_some] at hrun
      split at hrun
      · cases hrun
      · next hunseen =>
        rw [hcolon, ok_bind] at hrun
        obtain ⟨⟨k, d⟩, hshape, hrun⟩ := bind_eq_ok_iff.1 hrun
        obtain ⟨⟨rest, d'⟩, hrest, hok⟩ := bind_eq_ok_iff.1 hrun
        cases hok
        obtain ⟨hk, rfl⟩ := hexact f hf depth _ _ _ _ _ hvalue hshape
        obtain ⟨hknown, hawaits, hlookup, hc⟩ := ih htail hrest
        refine ⟨?_, hawaits.cons_known hnodup hf hunseen hk, fun g hg => ?_, hc⟩
        · exact hknown.imp_right fun h => List.forall_mem_cons.2 ⟨⟨f, hf, rfl⟩, h⟩
        · by_cases hgf : g.name = f.name
          · obtain rfl := eq_of_name_eq hnodup hg hf hgf
            rw [List.lookup_cons_self, Field.value?_cons_self, hk]
          · rw [List.lookup_cons, beq_false_of_ne hgf, Field.value?_cons_of_ne hgf]
            exact hlookup g hg

theorem arrange_readers_eq_ok {depth : Nat} {known ms ks : List (String × Json)} {c c' : Cursor}
    (hknown : ∀ f ∈ fields, known.lookup f.name = f.value? ms)
    (h : arrange (Field.readers fields depth) known c = .ok (ks, c')) :
    (∀ f ∈ fields, f.required → (f.value? ms).isSome) ∧
      ks = fields.filterMap (fun f => (f.value? ms).map (Prod.mk f.name)) ∧ c' = c := by
  unfold arrange at h
  split at h
  · cases h
  · next hfind =>
    obtain ⟨hks, rfl⟩ := Prod.mk.inj (Except.ok.inj h)
    rw [readers_eq_map] at hfind hks
    rw [List.filterMap_map] at hks
    refine ⟨fun f hf hrequired => ?_, hks ▸ List.filterMap_congr fun f hf => ?_, rfl⟩
    · have hpresent := List.find?_eq_none.1 hfind _ (List.mem_map_of_mem hf)
      rw [← hknown f hf]
      simpa [hrequired] using hpresent
    · simp [hknown f hf]

theorem closeArray_of_seekElement {first : Bool} {c c' d : Cursor}
    (hseek : seekElement first c = .ok (true, c')) : closeArray c ≠ (.ok (), d) := by
  unfold seekElement at hseek
  unfold closeArray
  cases hrest : c.skipBlanks.rest with
  | nil => simp [hrest, Cursor.fail] at hseek
  | cons ch rest =>
    simp only [hrest] at hseek ⊢
    have hne : ch ≠ ']' := by
      rintro rfl
      simp at hseek
    rw [if_neg hne]
    split
    · split <;> simp [Cursor.refuse]
    · simp [Cursor.refuse]

include hexact in
theorem readFieldElements_reflects {record : String} {count index depth : Nat}
    {rounds : List Char} {c c' c'' d : Cursor} {es : List Json} {ks : List (String × Json)}
    (hread : readElements (readValue depth) rounds (index == 0) c = .ok (es, c'))
    (hrun : readFieldElements record count (Field.readers fields depth) index c = .ok (ks, c''))
    (hclose : closeArray c'' = (.ok (), d)) :
    Field.admitElements? fields es = some ks ∧ closeArray c' = (.ok (), d) := by
  induction fields generalizing rounds index c es ks with
  | nil =>
    cases hrun
    cases es with
    | nil =>
      obtain ⟨hskip, -⟩ := seekElement_done (readElements_nil hread)
      rw [← closeArray_skipBlanks, hskip] at hclose
      exact ⟨rfl, hclose⟩
    | cons e es =>
      obtain ⟨_, _, _, _, -, hseek, -⟩ := readElements_cons hread
      exact absurd hclose (closeArray_of_seekElement hseek)
  | cons f fields ih =>
    obtain ⟨name, required, shape⟩ := f
    have hfields := fun f hf => hexact f (List.mem_cons_of_mem _ hf)
    have hlater : (index + 1 == 0) = false := rfl
    rw [Field.readers, readFieldElements] at hrun
    cases es with
    | nil =>
      have hseek := readElements_nil hread
      simp only [hseek, ok_bind] at hrun
      split at hrun
      · cases hrun
      · next hrequired =>
        -- At the closing bracket the remaining fields all find the bracket again.
        obtain ⟨hskip, rest, hrest⟩ := seekElement_done hseek
        have hagain : readElements (readValue depth) [' '] (index + 1 == 0) c' = .ok ([], c') := by
          have hdouble : c'.skipBlanks = c' := hskip ▸ skipBlanks_skipBlanks c
          simp [readElements, seekElement, hdouble, hrest, ok_bind]
        obtain ⟨hadmits, hc⟩ := ih hfields hagain hrun
        exact ⟨by rw [Field.admitElements?, if_neg hrequired, hadmits], hc⟩
    | cons e es =>
      obtain ⟨ch, rounds, c₂, c₃, rfl, hseek, he, htail⟩ := readElements_cons hread
      simp only [hseek, ok_bind] at hrun
      obtain ⟨⟨k, d₁⟩, hshape, hrun⟩ := bind_eq_ok_iff.1 hrun
      obtain ⟨⟨rest, d₂⟩, hrest, hok⟩ := bind_eq_ok_iff.1 hrun
      cases hok
      obtain ⟨hk, rfl⟩ :=
        hexact (.mk name required shape) List.mem_cons_self depth _ _ _ _ _ he hshape
      rw [← hlater] at htail
      obtain ⟨hadmits, hc⟩ := ih hfields htail hrest
      refine ⟨?_, hc⟩
      rw [Field.admitElements?, show shape.admit? e = some k from hk, hadmits]
      rfl

include hnodup hexact in
theorem exact_record (name : String) (layout : Layout) :
    (Shape.record name layout fields).Exact := by
  intro depth c c' c'' j k hvalue hshape
  rw [Shape.read.eq_def] at hshape
  cases taken_of_readValue hvalue with
  | @object depth rest ms _ hrest hobject =>
    have hopens : opens '\x7b' c.skipBlanks = true := by simp [opens, hrest]
    simp only [hopens, Bool.true_or, if_true, readRecord, hrest] at hshape
    obtain ⟨⟨ks, d⟩, hsettle, hok⟩ := bind_eq_ok_iff.1 hshape
    cases hok
    obtain ⟨c₁, hmembers, hclose⟩ := settle_eq_ok_iff.1 hobject
    obtain ⟨c₂, hfields, hclose'⟩ := settle_eq_ok_iff.1 hsettle
    obtain ⟨⟨known, c₃⟩, hrun, harrange⟩ := bind_eq_ok_iff.1 hfields
    rw [hrest] at hmembers
    obtain ⟨hknown, hawaits, hlookup, rfl⟩ :=
      readFieldMembers_reflects hnodup hexact hmembers hrun
    obtain ⟨hrequired, rfl, rfl⟩ := arrange_readers_eq_ok hlookup harrange
    have hadmits := Field.admitMembers?_of_suits fun f hf => ⟨(hawaits f hf).1, hrequired f hf⟩
    have hlayout : layout.extensible = true ∨
        (ms.all fun m => fields.any fun f => f.name = m.1) = true := by
      simpa using hknown
    refine ⟨?_, congrArg Prod.snd (hclose'.symm.trans hclose)⟩
    rw [Shape.admit?, if_pos (Bool.or_eq_true_iff.2 hlayout), hadmits]
    rfl
  | @array depth rest es _ hrest harray =>
    have hobject : opens '\x7b' c.skipBlanks = false := by simp [opens, hrest]
    have harray' : opens '[' c.skipBlanks = true := by simp [opens, hrest]
    simp only [hobject, harray', Bool.false_or, Bool.and_true, readRecord, hrest] at hshape
    split at hshape
    · next hpositional =>
      obtain ⟨⟨ks, d⟩, hsettle, hok⟩ := bind_eq_ok_iff.1 hshape
      cases hok
      obtain ⟨c₁, helements, hclose⟩ := settle_eq_ok_iff.1 harray
      obtain ⟨c₂, hrun, hclose'⟩ := settle_eq_ok_iff.1 hsettle
      obtain ⟨hadmits, hclosing⟩ := readFieldElements_reflects hexact helements hrun hclose'
      refine ⟨?_, congrArg Prod.snd (hclosing.symm.trans hclose)⟩
      rw [Shape.admit?, if_pos hpositional, hadmits]
      rfl
    · exact absurd hshape (mistype_ne_ok _ _ _)
  | number hrest hch =>
    have hobject := @opens_of_rest _ _ '\x7b' _ hrest (by rintro rfl; exact absurd hch (by decide))
    have harray := @opens_of_rest _ _ '[' _ hrest (by rintro rfl; exact absurd hch (by decide))
    simp only [hobject, harray, Bool.and_false, Bool.or_false] at hshape
    exact absurd hshape (mistype_ne_ok _ _ _)
  | null hrest | yes hrest | no hrest | text hrest =>
    have hobject := @opens_of_rest _ _ '\x7b' _ hrest (by decide)
    have harray := @opens_of_rest _ _ '[' _ hrest (by decide)
    simp only [hobject, harray, Bool.and_false, Bool.or_false] at hshape
    exact absurd hshape (mistype_ne_ok _ _ _)

end

mutual

theorem exact_of_plain : ∀ shape : Shape, shape.Plain → shape.Exact
  | .byte, _ => exact_byte
  | .text expected, _ => exact_text expected
  | .choice names, _ => exact_choice names
  | .optional value, h => exact_optional (exact_of_plain value h)
  | .list element, h => exact_list (exact_of_plain element h)
  | .table value, h => exact_table (exact_of_plain value h)
  | .byteTable _, h => False.elim h
  | .record name layout fields, h =>
    exact_record h.1 (exact_of_allPlain fields h.2) name layout
  | .either name alternatives, _ => exact_either name alternatives

theorem exact_of_allPlain : ∀ fields : List Field, Field.AllPlain fields →
    ∀ f ∈ fields, f.shape.Exact
  | [], _ => nofun
  | .mk name required shape :: fields, h => by
    intro f hf
    rcases List.mem_cons.1 hf with rfl | hf
    · exact exact_of_plain shape h.1
    · exact exact_of_allPlain fields h.2 f hf

end

theorem Shape.read_skipBlanks (shape : Shape) (depth : Nat) (c : Cursor) :
    shape.read depth c.skipBlanks = shape.read depth c := by
  cases shape <;> rw [Shape.read.eq_def, Shape.read.eq_def _ depth c] <;>
    simp only [readByte, readText, readChoice, readValue_skipBlanks, skipBlanks_skipBlanks]

/-- A reader for a shape takes from the text of a value what the shape admits of the value. -/
theorem decides_of_plain {shape : Shape} (hplain : shape.Plain) {depth : Nat} {w : Written}
    {j : Json} (hwithin : w.Within depth) (hvalue : w.value? = some j) :
    Decides (shape.read depth) w.chars (shape.admit? j) := by
  intro p rest hrest
  have hyields := readValue_chars hwithin p rest hrest
  rw [hvalue] at hyields
  obtain ⟨q, hread⟩ := hyields
  cases hadmits : shape.admit? j with
  | some k => exact ⟨q, straight_of_plain shape hplain depth _ _ _ _ hread hadmits⟩
  | none =>
    rintro ⟨k, c⟩ hshape
    obtain ⟨hk, -⟩ := exact_of_plain shape hplain depth _ _ _ _ _ hread hshape
    cases hadmits.symm.trans hk

theorem parse_of_decides {shape : Shape} {doc : Document} {k? : Option Json}
    (h : Decides (shape.read maxDepth) doc.root.chars k?) {k : Json} :
    shape.parse doc.text = .ok k ↔ k? = some k := by
  have hends : Ends doc.after.chars := by
    have h := ends_gap doc.after.blank ends_nil
    rwa [List.append_nil] at h
  obtain ⟨p, hlead⟩ := doc.root.skipBlanks_chars doc.before ⟨1, 0⟩ doc.after.chars
  have hyields := h p _ hends
  have hstart : Cursor.start doc.text.toList =
      ⟨⟨1, 0⟩, doc.before.chars ++ (doc.root.chars ++ doc.after.chars)⟩ := by
    rw [Document.text, String.toList_ofList]
    rfl
  rw [← hlead, Shape.read_skipBlanks] at hyields
  rw [Shape.parse, hstart]
  cases k? with
  | none =>
    refine ⟨fun hok => ?_, fun h => absurd h.symm (Option.some_ne_none k)⟩
    split at hok
    · cases hok
    · next k' c hread => exact absurd hread (hyields _)
  | some k' =>
    obtain ⟨q, hread⟩ := hyields
    obtain ⟨r, hskip⟩ := @skipBlanks_append doc.after.chars [] doc.after.blank (by simp) q
    rw [List.append_nil] at hskip
    simp [hread, hskip]

/-- A well-formed text is parsed exactly if the shape admits its value. -/
theorem parse_document {shape : Shape} (hplain : shape.Plain) {doc : Document} {j k : Json}
    (hwithin : doc.root.Within maxDepth) (hvalue : doc.root.value? = some j) :
    shape.parse doc.text = .ok k ↔ shape.admit? j = some k :=
  parse_of_decides (decides_of_plain hplain hwithin hvalue)

end UsbTopology.Json
