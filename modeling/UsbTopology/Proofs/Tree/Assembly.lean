import UsbTopology.Proofs.Tree.Reordering

set_option autoImplicit false

/-!
# Assembled trees

Entries have one arrangement: the order of location and index, in which entries that agree in both
stay as they came. A tree holds this arrangement, and whatever it is shown or written as is made of
the texts in this order (`ofEntries_arranged`).
-/
namespace UsbTopology

namespace Text

theorem encode_append (s t : String) : encode (s ++ t) = encode s ++ encode t := by
  rw [encode, String.toList_append, List.flatMap_append]
  rfl

end Text

namespace Entry

/-- The entries by location and index, with entries that agree in both in the order they came in. -/
structure IsArrangement (entries arranged : List Entry) : Prop where
  perm : arranged.Perm entries
  sorted : arranged.Pairwise fun a b =>
    a.location.value < b.location.value ∨ a.location = b.location ∧ a.index ≤ b.index
  stable : ∀ r, arranged.filter (fun e => e.rank = r) = entries.filter fun e => e.rank = r

theorem precedes_of_rank_eq {a b : Entry} (h : a.rank = b.rank) : precedes a b = true := by
  obtain ⟨hlocation, hindex⟩ := Prod.ext_iff.1 h
  exact precedes_iff.2 (.inr ⟨congrArg Location.value hlocation, Nat.le_of_eq hindex⟩)

theorem isArrangement_arrange (entries : List Entry) : IsArrangement entries (arrange entries) where
  perm := arrange_perm entries
  sorted := by
    refine (arrange_pairwise entries).imp fun {a b} hab => ?_
    exact (precedes_iff.1 hab).imp_right fun h => ⟨Location.eq_of_value_eq h.1, h.2⟩
  stable r := by
    apply filter_mergeSort precedes_trans precedes_total
    refine List.pairwise_of_forall_mem_list fun a ha b hb => precedes_of_rank_eq ?_
    have har : a.rank = r := of_decide_eq_true (List.mem_filter.1 ha).2
    have hbr : b.rank = r := of_decide_eq_true (List.mem_filter.1 hb).2
    rw [har, hbr]

theorem IsArrangement.unique {entries arranged other : List Entry}
    (h : IsArrangement entries arranged) (h' : IsArrangement entries other) : arranged = other := by
  refine @eq_of_filter_eq Entry (Location × Nat) _ Entry.rank
    (fun r s => r.1.value < s.1.value ∨ r.1 = s.1 ∧ r.2 ≤ s.2) ?_ _ _ h.sorted h'.sorted fun r => ?_
  · rintro ⟨l, i⟩ ⟨m, j⟩ hlm hml
    rcases hlm with hlt | ⟨rfl, hij⟩
    · rcases hml with hgt | ⟨hloc, -⟩
      · exact absurd hgt (Nat.lt_asymm hlt)
      · exact absurd (congrArg Location.value hloc.symm) (Nat.ne_of_lt hlt)
    · rcases hml with hgt | ⟨-, hji⟩
      · exact absurd hgt (Nat.lt_irrefl _)
      · exact congrArg (Prod.mk l) (Nat.le_antisymm hij hji)
  · rw [h.stable, h'.stable]

theorem arrange_arrange (entries : List Entry) : arrange (arrange entries) = arrange entries :=
  List.mergeSort_of_pairwise (arrange_pairwise entries)

end Entry

namespace Tree

/-- A place where pieces can be written one by one or all at once. -/
structure Sequential {m : Type → Type} [Monad m] (write : List UInt8 → m Unit) : Prop where
  nil : write [] = pure ()
  append : ∀ a b, write (a ++ b) = write a >>= fun _ => write b

theorem Sequential.forM_texts {m : Type → Type} [Monad m] [LawfulMonad m]
    {write : List UInt8 → m Unit} (h : Sequential write) (entries : List Entry) :
    (entries.forM fun e => write (Text.encode e.text)) =
      write (Text.encode (String.join (entries.map Entry.text))) := by
  induction entries with
  | nil => exact h.nil.symm
  | cons e entries ih =>
    rw [List.forM, ih, List.map_cons, String.join_cons, Text.encode_append, h.append]

theorem writeTo_eq {m : Type → Type} [Monad m] [LawfulMonad m] {write : List UInt8 → m Unit}
    (h : Sequential write) (flush : m Unit) (t : Tree) :
    t.writeTo write flush = write (Text.encode t.text) >>= fun _ => flush := by
  rw [writeTo, h.forM_texts, text]

theorem written_eq (t : Tree) : t.written = Text.encode t.text := by
  have hbuffer : Sequential fun bytes : List UInt8 =>
      (modify (· ++ bytes) : StateM (List UInt8) Unit) := by
    constructor
    · funext before
      exact congrArg (Prod.mk ()) (List.append_nil before)
    · intro a b
      funext before
      exact congrArg (Prod.mk ()) (List.append_assoc before a b).symm
  have h := congrArg (fun writing => (writing.run []).2) (writeTo_eq hbuffer (pure ()) t)
  exact h

/-- A tree of entries is their one arrangement. It is shown and written as the texts in this order,
assembling it once more changes nothing, and where no two entries have the same rank it does not
depend on the order they came in. -/
theorem ofEntries_arranged (entries : List Entry) :
    (∀ arranged, Entry.IsArrangement entries arranged ↔
      arranged = (ofEntries entries).entries) ∧
    Entry.assemble entries = (ofEntries entries).entries.map Entry.text ∧
    (ofEntries entries).text = String.join (Entry.assemble entries) ∧
    (ofEntries entries).written = Text.encode (String.join (Entry.assemble entries)) ∧
    ofEntries (ofEntries entries).entries = ofEntries entries ∧
    ((entries.map Entry.rank).Nodup → ∀ reordered, reordered.Perm entries →
      ofEntries reordered = ofEntries entries ∧
        Entry.assemble reordered = Entry.assemble entries) := by
  have harranged := Entry.isArrangement_arrange entries
  refine ⟨fun arranged => ⟨fun h => h.unique harranged, ?_⟩, rfl, rfl,
    written_eq (ofEntries entries), ?_, ?_⟩
  · rintro rfl
    exact harranged
  · exact congrArg (Tree.mk · []) (Entry.arrange_arrange entries)
  · intro hrank reordered hperm
    have hsame : Entry.arrange entries = Entry.arrange reordered :=
      Entry.arrange_eq_of_rank ((Entry.arrange_perm reordered).trans hperm)
        (Entry.arrange_pairwise reordered) hrank
    exact ⟨congrArg (Tree.mk · []) hsame.symm, congrArg (List.map Entry.text) hsame.symm⟩

/-- Two entries of one location and one that comes first and belongs behind them. -/
def siblingEntries : List Entry :=
  [⟨.encode 1 [3], 0, "third\n"⟩, ⟨.encode 1 [2], 1, "first\n"⟩, ⟨.encode 1 [2], 2, "second\n"⟩]

theorem ofEntries_arranged_siblingEntries :
    (siblingEntries.map Entry.rank).Nodup ∧ siblingEntries.reverse.Perm siblingEntries ∧
      ofEntries siblingEntries.reverse = ofEntries siblingEntries ∧
      Entry.assemble siblingEntries.reverse = Entry.assemble siblingEntries := by
  have hrank : (siblingEntries.map Entry.rank).Nodup := by decide
  have hperm : siblingEntries.reverse.Perm siblingEntries := List.reverse_perm siblingEntries
  obtain ⟨-, -, -, -, -, hsame⟩ := ofEntries_arranged siblingEntries
  exact ⟨hrank, hperm, hsame hrank siblingEntries.reverse hperm⟩

end Tree

end UsbTopology
