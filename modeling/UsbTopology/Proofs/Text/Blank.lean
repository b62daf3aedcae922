import Mathlib.Data.List.DropRight
import UsbTopology.Text.Blank

set_option autoImplicit false

/-!
# Texts within blanks

Trimming takes away blanks at both ends and nothing else: a text that neither begins nor ends with
a blank is what remains of it between any blanks.
-/
namespace UsbTopology.Text

theorem rdropWhile_append_of_pos {α : Type} {p : α → Bool} (l : List α) {more : List α}
    (h : ∀ a ∈ more, p a = true) : (l ++ more).rdropWhile p = l.rdropWhile p := by
  rw [List.rdropWhile, List.reverse_append, List.dropWhile_append_of_pos, List.rdropWhile]
  intro a ha
  exact h a (List.mem_reverse.1 ha)

/-- The text with nothing but blanks before and behind it. -/
def Within (core cs : List Char) : Prop :=
  ∃ before after, cs = before ++ (core ++ after) ∧ (∀ c ∈ before, isBlank c = true) ∧
    ∀ c ∈ after, isBlank c = true

theorem trim_eq (cs : List Char) : trim cs = (cs.dropWhile isBlank).rdropWhile isBlank := rfl

theorem within_trim (cs : List Char) : Within (trim cs) cs := by
  refine ⟨cs.takeWhile isBlank, (cs.dropWhile isBlank).rtakeWhile isBlank, ?_,
    fun c => List.mem_takeWhile_imp, fun c => List.mem_rtakeWhile_imp⟩
  rw [trim_eq, List.rdropWhile_append_rtakeWhile, List.takeWhile_append_dropWhile]

theorem trim_of_within {core cs : List Char} (h : Within core cs)
    (hhead : ∀ c ∈ core.head?, isBlank c = false)
    (hlast : ∀ c ∈ core.getLast?, isBlank c = false) : trim cs = core := by
  obtain ⟨before, after, rfl, hbefore, hafter⟩ := h
  rw [trim_eq, List.dropWhile_append_of_pos hbefore]
  cases core with
  | nil =>
    rw [List.nil_append, List.dropWhile_eq_nil_iff.2 hafter]
    rfl
  | cons c core =>
    have hc : ¬ isBlank c = true := by simp [hhead c rfl]
    rw [List.cons_append, List.dropWhile_cons_of_neg hc, ← List.cons_append,
      rdropWhile_append_of_pos _ hafter, List.rdropWhile_eq_self_iff]
    intro hne
    have hend := hlast _ (List.getLast?_eq_getLast_of_ne_nil hne)
    simp [hend]

end UsbTopology.Text
