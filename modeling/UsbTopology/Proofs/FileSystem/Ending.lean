import UsbTopology.Proofs.FileSystem.Path
import UsbTopology.Proofs.Text.Blank

set_option autoImplicit false

/-!
# The end of a path

The name that a path ends in and the directory above it, said by the text of the path: slashes at
its end and lone dots behind them are passed over, what stands before the name may be any text, and
the directory ends where the slashes and lone dots before the name begin.
-/
namespace UsbTopology.Path

def slashed (pieces : List FileName) : List UInt8 := pieces.flatMap (slash :: ·)

theorem slashed_append (pieces more : List FileName) :
    slashed (pieces ++ more) = slashed pieces ++ slashed more :=
  List.flatMap_append

theorem slashed_cons (piece : FileName) (pieces : List FileName) :
    slashed (piece :: pieces) = slash :: (piece ++ slashed pieces) := rfl

theorem append_slashed_splitSlashes (bytes : List UInt8) :
    (splitSlashes bytes).1 ++ slashed (splitSlashes bytes).2 = bytes := by
  induction bytes with
  | nil => rfl
  | cons b rest ih =>
    rw [splitSlashes]
    split
    · next hb => rw [List.nil_append, slashed_cons, ih, hb]
    · rw [List.cons_append, ih]

theorem slash_notMem_splitSlashes (bytes : List UInt8) :
    slash ∉ (splitSlashes bytes).1 ∧ ∀ piece ∈ (splitSlashes bytes).2, slash ∉ piece := by
  induction bytes with
  | nil => simp [splitSlashes]
  | cons b rest ih =>
    rw [splitSlashes]
    split
    · exact ⟨List.not_mem_nil, List.forall_mem_cons.2 ih⟩
    · next hb => exact ⟨List.not_mem_cons_of_ne_of_not_mem (Ne.symm hb) ih.1, ih.2⟩

theorem splitSlashes_append_slashed (front : List UInt8) {pieces : List FileName}
    (h : ∀ piece ∈ pieces, slash ∉ piece) : splitSlashes (front ++ slashed pieces) =
      ((splitSlashes front).1, (splitSlashes front).2 ++ pieces) := by
  induction pieces generalizing front with
  | nil => simp [slashed]
  | cons piece pieces ih =>
    obtain ⟨hpiece, hpieces⟩ := List.forall_mem_cons.1 h
    have hrest := ih piece hpieces
    rw [splitSlashes_of_notMem hpiece, List.nil_append] at hrest
    rw [slashed_cons, splitSlashes_append, hrest]

theorem isBlank_iff {piece : FileName} : isBlank piece = true ↔ piece = [] ∨ piece = dot := by
  simp [isBlank]

theorem slash_notMem_of_isBlank {piece : FileName} (h : isBlank piece = true) : slash ∉ piece := by
  rcases isBlank_iff.1 h with rfl | rfl <;> decide

/-- What is passed over at the end of a path: slashes, and dots that stand alone behind one. -/
inductive Passed : List UInt8 → Prop where
  | nil : Passed []
  | slash {rest : List UInt8} (h : Passed rest) : Passed (slash :: rest)
  | slashDot {rest : List UInt8} (h : Passed rest) : Passed (slash :: (dot ++ rest))

theorem passed_slashed {blanks : List FileName} (h : ∀ piece ∈ blanks, isBlank piece = true) :
    Passed (slashed blanks) := by
  induction blanks with
  | nil => exact .nil
  | cons piece blanks ih =>
    obtain ⟨hpiece, hblanks⟩ := List.forall_mem_cons.1 h
    rcases isBlank_iff.1 hpiece with rfl | rfl
    · exact .slash (ih hblanks)
    · exact .slashDot (ih hblanks)

theorem Passed.exists_slashed {tail : List UInt8} (h : Passed tail) :
    ∃ blanks, (∀ piece ∈ blanks, isBlank piece = true) ∧ tail = slashed blanks := by
  induction h with
  | nil => exact ⟨[], List.forall_mem_nil _, rfl⟩
  | slash h ih =>
    obtain ⟨blanks, hblanks, rfl⟩ := ih
    exact ⟨[] :: blanks, List.forall_mem_cons.2 ⟨rfl, hblanks⟩, rfl⟩
  | slashDot h ih =>
    obtain ⟨blanks, hblanks, rfl⟩ := ih
    exact ⟨dot :: blanks, List.forall_mem_cons.2 ⟨rfl, hblanks⟩, rfl⟩

section

variable {piece : FileName} {blanks : List FileName} (hslash : slash ∉ piece)
  (hblanks : ∀ blank ∈ blanks, isBlank blank = true)

include hslash hblanks

theorem splitSlashes_single : splitSlashes (piece ++ slashed blanks) = (piece, blanks) := by
  have hslashes := fun blank h => slash_notMem_of_isBlank (hblanks blank h)
  rw [splitSlashes_append_slashed piece hslashes, splitSlashes_of_notMem hslash, List.nil_append]

theorem splitSlashes_inner (above : List UInt8) :
    splitSlashes (above ++ slash :: (piece ++ slashed blanks)) =
      ((splitSlashes above).1, (splitSlashes above).2 ++ piece :: blanks) := by
  have hslashes := fun blank h => slash_notMem_of_isBlank (hblanks blank h)
  rw [← slashed_cons]
  exact splitSlashes_append_slashed above (List.forall_mem_cons.2 ⟨hslash, hslashes⟩)

end

theorem dropBlanks_eq (pieces : List FileName) : dropBlanks pieces = pieces.rdropWhile isBlank :=
  rfl

theorem dropBlanks_of_blank {blanks : List FileName} (h : ∀ piece ∈ blanks, isBlank piece = true) :
    dropBlanks blanks = [] := by
  rw [dropBlanks_eq, List.rdropWhile_eq_nil_iff]
  exact h

theorem dropBlanks_of_last (inner : List FileName) {last : FileName} {blanks : List FileName}
    (hlast : isBlank last = false) (h : ∀ piece ∈ blanks, isBlank piece = true) :
    dropBlanks (inner ++ last :: blanks) = inner ++ [last] := by
  have hconcat : inner ++ last :: blanks = inner ++ [last] ++ blanks := by simp
  have hnot : ¬ isBlank last = true := by simp [hlast]
  rw [dropBlanks_eq, hconcat, Text.rdropWhile_append_of_pos _ h,
    List.rdropWhile_concat_neg _ _ _ hnot]

theorem blank_or_last (pieces : List FileName) : (∀ piece ∈ pieces, isBlank piece = true) ∨
    ∃ inner last blanks, pieces = inner ++ last :: blanks ∧ isBlank last = false ∧
      ∀ piece ∈ blanks, isBlank piece = true := by
  induction pieces with
  | nil => exact .inl (List.forall_mem_nil _)
  | cons piece pieces ih =>
    rcases ih with hblank | ⟨inner, last, blanks, rfl, hlast, hblanks⟩
    · cases hpiece : isBlank piece with
      | true => exact .inl (List.forall_mem_cons.2 ⟨hpiece, hblank⟩)
      | false => exact .inr ⟨[], piece, pieces, rfl, hpiece, hblank⟩
    · exact .inr ⟨piece :: inner, last, blanks, rfl, hlast, hblanks⟩

/-- The path ends in a name, but for what is passed over; any text may stand before it. -/
structure EndsIn (p : Path) (name : FileName) : Prop where
  text : ∃ front tail, p.bytes = front ++ (name ++ tail) ∧
    (front = [] ∨ front.getLast? = some slash) ∧ Passed tail
  slash : slash ∉ name
  ne_empty : name ≠ []
  ne_dot : name ≠ dot
  ne_dotDot : name ≠ dotDot

section

variable {p : Path} {first last : FileName} {inner blanks : List FileName}

theorem fileName?_of_blank (hsplit : splitSlashes p.bytes = (first, blanks))
    (hblanks : ∀ piece ∈ blanks, isBlank piece = true) :
    p.fileName? = if isBlank first || first = dotDot then none else some first := by
  rw [fileName?, hsplit]
  simp only [dropBlanks_of_blank hblanks]
  rfl

theorem fileName?_of_last (hsplit : splitSlashes p.bytes = (first, inner ++ last :: blanks))
    (hlast : isBlank last = false) (hblanks : ∀ piece ∈ blanks, isBlank piece = true) :
    p.fileName? = if isBlank last || last = dotDot then none else some last := by
  rw [fileName?, hsplit]
  simp only [dropBlanks_of_last inner hlast hblanks, List.getLast?_concat, Option.getD_some]

theorem parent?_of_blank (hsplit : splitSlashes p.bytes = (first, blanks))
    (hblanks : ∀ piece ∈ blanks, isBlank piece = true) :
    p.parent? = if first = [] then none else some ⟨[]⟩ := by
  rw [parent?, hsplit]
  simp only [dropBlanks_of_blank hblanks]
  rfl

theorem parent?_of_last (hsplit : splitSlashes p.bytes = (first, inner ++ last :: blanks))
    (hlast : isBlank last = false) (hblanks : ∀ piece ∈ blanks, isBlank piece = true) :
    p.parent? = some (ofPieces first (dropBlanks inner)) := by
  rw [parent?, hsplit]
  simp only [dropBlanks_of_last inner hlast hblanks, List.dropLast_concat]
  rw [if_neg (by simp)]

end

theorem bytes_of_split {p : Path} {first : FileName} {rest : List FileName}
    (hsplit : splitSlashes p.bytes = (first, rest)) :
    p.bytes = first ++ slashed rest ∧ slash ∉ first ∧ ∀ piece ∈ rest, slash ∉ piece := by
  have hbytes := append_slashed_splitSlashes p.bytes
  have hslash := slash_notMem_splitSlashes p.bytes
  rw [hsplit] at hbytes hslash
  exact ⟨hbytes.symm, hslash⟩

theorem ite_name_eq_some_iff {piece name : FileName} :
    (if isBlank piece || piece = dotDot then none else some piece) = some name ↔
      piece = name ∧ name ≠ [] ∧ name ≠ dot ∧ name ≠ dotDot := by
  rw [Option.ite_none_left_eq_some]
  constructor
  · rintro ⟨h, hname⟩
    obtain rfl := Option.some.inj hname
    simpa [isBlank, and_assoc] using h
  · rintro ⟨rfl, h⟩
    exact ⟨by simpa [isBlank, and_assoc] using h, rfl⟩

theorem endsIn_of_fileName? {p : Path} {name : FileName} (h : p.fileName? = some name) :
    p.EndsIn name := by
  obtain ⟨first, rest, hsplit⟩ : ∃ first rest, splitSlashes p.bytes = (first, rest) := ⟨_, _, rfl⟩
  obtain ⟨hbytes, hfirst, hrest⟩ := bytes_of_split hsplit
  rcases blank_or_last rest with hblank | ⟨inner, last, blanks, rfl, hlast, hblanks⟩
  · rw [fileName?_of_blank hsplit hblank, ite_name_eq_some_iff] at h
    obtain ⟨rfl, hne, hdot, hdotDot⟩ := h
    exact ⟨⟨[], _, hbytes, .inl rfl, passed_slashed hblank⟩, hfirst, hne, hdot, hdotDot⟩
  · rw [fileName?_of_last hsplit hlast hblanks, ite_name_eq_some_iff] at h
    obtain ⟨rfl, hne, hdot, hdotDot⟩ := h
    refine ⟨⟨first ++ slashed inner ++ [slash], slashed blanks, ?_, .inr ?_,
      passed_slashed hblanks⟩, hrest last (by simp), hne, hdot, hdotDot⟩
    · simp [hbytes, slashed_append, slashed_cons]
    · rw [List.getLast?_concat]

theorem fileName?_of_endsIn {p : Path} {name : FileName} (h : p.EndsIn name) :
    p.fileName? = some name := by
  obtain ⟨⟨front, tail, hbytes, hfront, htail⟩, hslash, hne, hdot, hdotDot⟩ := h
  obtain ⟨blanks, hblanks, rfl⟩ := htail.exists_slashed
  have hname : (if isBlank name || name = dotDot then none else some name) = some name :=
    ite_name_eq_some_iff.2 ⟨rfl, hne, hdot, hdotDot⟩
  rcases List.eq_nil_or_concat front with rfl | ⟨above, b, rfl⟩
  · have hsplit := splitSlashes_single hslash hblanks
    rw [← List.nil_append (name ++ _), ← hbytes] at hsplit
    rw [fileName?_of_blank hsplit hblanks, hname]
  · obtain rfl : b = slash := by simpa using hfront
    have hsplit := splitSlashes_inner hslash hblanks above
    rw [← List.singleton_append, ← List.append_assoc, ← List.concat_eq_append, ← hbytes] at hsplit
    have hblank : isBlank name = false := by simp [isBlank, hne, hdot]
    rw [fileName?_of_last hsplit hblank hblanks, hname]

theorem fileName?_eq_some_iff {p : Path} {name : FileName} :
    p.fileName? = some name ↔ p.EndsIn name :=
  ⟨endsIn_of_fileName?, fileName?_of_endsIn⟩

/-- A text that ends neither in a slash nor in a lone dot behind one. -/
def Settled (front : List UInt8) : Prop := ¬ [slash] <:+ front ∧ ¬ slash :: dot <:+ front

theorem splitSlashes_concat (front : List UInt8) {piece : FileName} (h : slash ∉ piece) :
    splitSlashes (front ++ slash :: piece) =
      ((splitSlashes front).1, (splitSlashes front).2 ++ [piece]) := by
  rw [splitSlashes_append, splitSlashes_of_notMem h]

theorem settled_iff {front : List UInt8} : Settled front ↔
    dropBlanks (splitSlashes front).2 = (splitSlashes front).2 := by
  rw [dropBlanks_eq, List.rdropWhile_eq_self_iff]
  constructor
  · rintro ⟨hslash, hdot⟩ hne hblank
    have hfront := append_slashed_splitSlashes front
    rw [← List.dropLast_append_getLast hne, slashed_append, ← List.append_assoc] at hfront
    rcases isBlank_iff.1 hblank with hlast | hlast
    · rw [hlast] at hfront
      exact hslash ⟨_, hfront⟩
    · rw [hlast] at hfront
      exact hdot ⟨_, hfront⟩
  · intro h
    have hends : ∀ {piece}, isBlank piece = true → ¬ slash :: piece <:+ front := by
      rintro piece hpiece ⟨above, rfl⟩
      have hsplit := splitSlashes_concat above (slash_notMem_of_isBlank hpiece)
      simp [hsplit, hpiece] at h
    exact ⟨hends rfl, hends rfl⟩

theorem ofPieces_eq (first : FileName) (rest : List FileName) : ofPieces first rest =
    if first ++ slashed rest = [] then ⟨[slash]⟩ else ⟨first ++ slashed rest⟩ := by
  cases rest with
  | nil => cases first <;> simp [ofPieces, slashed]
  | cons piece rest => simp [ofPieces, slashed]

/-- The path without its last piece and what is passed over on both sides of it. A single piece
stands in the empty path, and what stands behind nothing but slashes stands in the root. -/
inductive HasParent (p : Path) : Path → Prop where
  | single {piece tail : List UInt8} (text : p.bytes = piece ++ tail) (slash : slash ∉ piece)
    (ne_empty : piece ≠ []) (passed : Passed tail) : HasParent p ⟨[]⟩
  | inner {front gap piece tail : List UInt8}
    (text : p.bytes = front ++ (gap ++ Path.slash :: (piece ++ tail))) (settled : Settled front)
    (gap_passed : Passed gap) (slash : Path.slash ∉ piece) (ne_empty : piece ≠ [])
    (ne_dot : piece ≠ dot) (passed : Passed tail) :
    HasParent p (if front = [] then ⟨[Path.slash]⟩ else ⟨front⟩)

theorem hasParent_of_parent? {p c : Path} (h : p.parent? = some c) : p.HasParent c := by
  obtain ⟨first, rest, hsplit⟩ : ∃ first rest, splitSlashes p.bytes = (first, rest) := ⟨_, _, rfl⟩
  obtain ⟨hbytes, hfirst, hrest⟩ := bytes_of_split hsplit
  rcases blank_or_last rest with hblank | ⟨inner, last, blanks, rfl, hlast, hblanks⟩
  · rw [parent?_of_blank hsplit hblank, Option.ite_none_left_eq_some] at h
    obtain ⟨hne, hc⟩ := h
    obtain rfl := Option.some.inj hc
    exact .single hbytes hfirst hne (passed_slashed hblank)
  · rw [parent?_of_last hsplit hlast hblanks] at h
    obtain rfl := Option.some.inj h
    have hinner : dropBlanks inner ++ inner.rtakeWhile isBlank = inner :=
      List.rdropWhile_append_rtakeWhile
    have hkept : ∀ piece ∈ dropBlanks inner, slash ∉ piece := by
      intro piece hpiece
      exact hrest piece (by rw [← hinner]; simp [hpiece])
    obtain ⟨hne, hdot⟩ : last ≠ [] ∧ last ≠ dot := by simpa [isBlank] using hlast
    -- The gap is what was dropped in front of the last piece.
    rw [ofPieces_eq]
    refine @HasParent.inner p _ (slashed (inner.rtakeWhile isBlank)) last (slashed blanks) ?_ ?_
      (passed_slashed fun piece => List.mem_rtakeWhile_imp) (hrest last (by simp)) hne hdot
      (passed_slashed hblanks)
    · rw [hbytes, slashed_append, slashed_cons, ← hinner, slashed_append, hinner]
      simp
    · rw [settled_iff, splitSlashes_append_slashed first hkept, splitSlashes_of_notMem hfirst,
        List.nil_append, dropBlanks_eq, dropBlanks_eq]
      exact List.rdropWhile_idempotent _ _

theorem parent?_of_hasParent {p c : Path} (h : p.HasParent c) : p.parent? = some c := by
  cases h with
  | @single piece tail htext hslash hne htail =>
    obtain ⟨blanks, hblanks, rfl⟩ := htail.exists_slashed
    have hsplit := splitSlashes_single hslash hblanks
    rw [← htext] at hsplit
    rw [parent?_of_blank hsplit hblanks, if_neg hne]
  | @inner front gap piece tail htext hfront hgap hslash hne hdot htail =>
    obtain ⟨gaps, hgaps, rfl⟩ := hgap.exists_slashed
    obtain ⟨blanks, hblanks, rfl⟩ := htail.exists_slashed
    have hsplit := splitSlashes_inner hslash hblanks (front ++ slashed gaps)
    rw [List.append_assoc, ← htext, splitSlashes_append_slashed front fun q hq =>
      slash_notMem_of_isBlank (hgaps q hq)] at hsplit
    have hblank : isBlank piece = false := by simp [isBlank, hne, hdot]
    have hkept : dropBlanks ((splitSlashes front).2 ++ gaps) = (splitSlashes front).2 := by
      rw [dropBlanks_eq, Text.rdropWhile_append_of_pos _ hgaps]
      exact settled_iff.1 hfront
    rw [parent?_of_last hsplit hblank hblanks, hkept, ofPieces_eq, append_slashed_splitSlashes]

theorem parent?_eq_some_iff {p c : Path} : p.parent? = some c ↔ p.HasParent c :=
  ⟨hasParent_of_parent?, parent?_of_hasParent⟩

end UsbTopology.Path
