import UsbTopology.Text.Line

set_option autoImplicit false

/-!
# Texts of whole lines

The lines of a text that is put together from terminated lines are these lines, and any text that
leaves no line open has as many lines as line feeds.
-/
namespace UsbTopology.Text

/-- A single line with its line feed, and no carriage return that the line feed would take along. -/
def Terminated (text : String) : Prop :=
  ∃ line, text.toList = line ++ ['\n'] ∧ '\n' ∉ line ∧ line.getLast? ≠ some '\r'

def chomp (text : String) : String := String.ofList text.toList.dropLast

theorem linesAfter_append {line : List Char} (unfinished rest : List Char) (h : '\n' ∉ line) :
    linesAfter unfinished (line ++ '\n' :: rest) =
      dropReturn (unfinished.reverse ++ line) :: linesAfter [] rest := by
  induction line generalizing unfinished with
  | nil => simp [linesAfter]
  | cons c line ih =>
    have hc : c ≠ '\n' := fun hc => h (hc ▸ List.mem_cons_self)
    have hline : '\n' ∉ line := fun hl => h (List.mem_cons_of_mem c hl)
    rw [List.cons_append, linesAfter, if_neg hc, ih (c :: unfinished) hline]
    simp

theorem lines_append {text : String} (rest : String) (h : Terminated text) :
    lines (text ++ rest) = chomp text :: lines rest := by
  obtain ⟨line, htext, hfeed, hreturn⟩ := h
  have hlines : linesAfter [] (text ++ rest).toList = line :: linesAfter [] rest.toList := by
    rw [String.toList_append, htext, List.append_assoc]
    change linesAfter [] (line ++ '\n' :: rest.toList) = _
    rw [linesAfter_append [] _ hfeed, List.reverse_nil, List.nil_append, dropReturn, if_neg hreturn]
  rw [lines, hlines, List.map_cons, chomp, htext, List.dropLast_concat]
  rfl

theorem lines_join {texts : List String} (h : ∀ t ∈ texts, Terminated t) :
    lines (String.join texts) = texts.map chomp := by
  induction texts with
  | nil => rfl
  | cons t texts ih =>
    rw [String.join_cons, lines_append _ (h t (by simp)), ih fun u hu => h u (by simp [hu]),
      List.map_cons]

theorem chomp_append_feed {text : String} (h : Terminated text) : chomp text ++ "\n" = text := by
  obtain ⟨line, htext, -, -⟩ := h
  apply String.toList_inj.1
  rw [String.toList_append, chomp, htext, List.dropLast_concat, String.toList_ofList]
  rfl

theorem join_flatMap {α : Type} (f : α → List String) (xs : List α) :
    String.join (xs.flatMap f) = String.join (xs.map fun x => String.join (f x)) := by
  induction xs with
  | nil => rfl
  | cons x xs ih => rw [List.flatMap_cons, String.join_append, ih, List.map_cons, String.join_cons]

def feeds (text : String) : Nat := text.toList.count '\n'

def Closed (text : String) : Prop := text = "" ∨ text.toList.getLast? = some '\n'

theorem feeds_append (s t : String) : feeds (s ++ t) = feeds s + feeds t := by
  rw [feeds, String.toList_append, List.count_append]
  rfl

theorem feeds_join_perm {texts reordered : List String} (h : texts.Perm reordered) :
    feeds (String.join texts) = feeds (String.join reordered) := by
  rw [feeds, feeds, String.toList_join, String.toList_join]
  exact (h.flatMap_right String.toList).count_eq '\n'

theorem feeds_join_eq_zero_iff {texts : List String} :
    feeds (String.join texts) = 0 ↔ ∀ t ∈ texts, '\n' ∉ t.toList := by
  rw [feeds, String.toList_join, List.count_eq_zero, List.mem_flatMap]
  simp

theorem length_linesAfter {s : List Char} (unfinished : List Char) (h : s.getLast? = some '\n') :
    (linesAfter unfinished s).length = s.count '\n' := by
  induction s generalizing unfinished with
  | nil => simp at h
  | cons c s ih =>
    cases s with
    | nil =>
      obtain rfl : c = '\n' := by simpa using h
      simp [linesAfter]
    | cons d s =>
      have hrest : (d :: s).getLast? = some '\n' := by rwa [List.getLast?_cons_cons] at h
      rw [linesAfter]
      split
      · next hc => rw [List.length_cons, ih [] hrest, hc, List.count_cons_self]
      · next hc => rw [ih (c :: unfinished) hrest, List.count_cons_of_ne hc]

theorem length_lines {text : String} (h : Closed text) : (lines text).length = feeds text := by
  rcases h with rfl | h
  · rfl
  · rw [lines, List.length_map, length_linesAfter [] h, feeds]

theorem length_flatMap_lines {texts : List String} (h : ∀ t ∈ texts, Closed t) :
    (texts.flatMap lines).length = feeds (String.join texts) := by
  induction texts with
  | nil => rfl
  | cons t texts ih =>
    rw [List.flatMap_cons, List.length_append, length_lines (h t (by simp)),
      ih fun u hu => h u (by simp [hu]), String.join_cons, feeds_append]

theorem closed_join {texts : List String} (h : ∀ t ∈ texts, Closed t) :
    Closed (String.join texts) := by
  induction texts with
  | nil => exact .inl rfl
  | cons t texts ih =>
    rw [String.join_cons]
    rcases ih fun u hu => h u (by simp [hu]) with hrest | hrest
    · rw [hrest, String.append_empty]
      exact h t (by simp)
    · refine .inr ?_
      rw [String.toList_append, List.getLast?_append, hrest]
      rfl

end UsbTopology.Text
