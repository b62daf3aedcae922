import UsbTopology.FileSystem.Path

set_option autoImplicit false

/-!
# Paths below a directory

Of the pieces of a path, those that are blank are passed over when the path is followed. A name
without a slash that is joined to the path of a directory is one more piece at its end.
-/
namespace UsbTopology.Path

def steps (p : Path) : List FileName := p.pieces.filter fun piece => !isBlank piece

theorem splitSlashes_of_notMem {bytes : List UInt8} (h : slash ∉ bytes) :
    splitSlashes bytes = (bytes, []) := by
  induction bytes with
  | nil => rfl
  | cons b rest ih =>
    obtain ⟨hb, hrest⟩ := not_or.1 (mt List.mem_cons.2 h)
    rw [splitSlashes, ih hrest]
    exact if_neg (Ne.symm hb)

theorem splitSlashes_append (above below : List UInt8) :
    splitSlashes (above ++ slash :: below) =
      ((splitSlashes above).1,
        (splitSlashes above).2 ++ (splitSlashes below).1 :: (splitSlashes below).2) := by
  induction above with
  | nil => simp [splitSlashes]
  | cons b rest ih =>
    rw [List.cons_append, splitSlashes, ih, splitSlashes]
    by_cases hb : b = slash
    · simp [hb]
    · simp [hb]

theorem pieces_append (above below : List UInt8) :
    pieces ⟨above ++ slash :: below⟩ = pieces ⟨above⟩ ++ pieces ⟨below⟩ := by
  simp only [pieces, splitSlashes_append, List.cons_append]

theorem pieces_of_notMem {bytes : List UInt8} (h : slash ∉ bytes) : pieces ⟨bytes⟩ = [bytes] := by
  simp only [pieces, splitSlashes_of_notMem h]

theorem isAbsolute_of_notMem {bytes : List UInt8} (h : slash ∉ bytes) :
    isAbsolute ⟨bytes⟩ = false := by
  cases bytes with
  | nil => rfl
  | cons b rest =>
    have hb : b ≠ slash := fun hb => h (hb ▸ List.mem_cons_self)
    simpa [isAbsolute] using hb

theorem steps_append (above below : List UInt8) :
    steps ⟨above ++ slash :: below⟩ = steps ⟨above⟩ ++ steps ⟨below⟩ := by
  rw [steps, pieces_append, List.filter_append]
  rfl

theorem steps_join {directory : Path} {name : FileName} (hslash : slash ∉ name)
    (hblank : isBlank name = false) :
    (directory.join ⟨name⟩).steps = directory.steps ++ [name] := by
  have hname : steps ⟨name⟩ = [name] := by simp [steps, pieces_of_notMem hslash, hblank]
  have hempty : steps ⟨[]⟩ = [] := rfl
  obtain ⟨bytes⟩ := directory
  rw [join, isAbsolute_of_notMem hslash, if_neg (by decide), ← hname]
  split
  · next hend =>
    -- The slash between the directory and the name stands already, unless there is no directory.
    rcases List.eq_nil_or_concat bytes with rfl | ⟨above, last, rfl⟩
    · rw [hempty]
      rfl
    · obtain rfl : last = slash := by simpa using hend
      rw [List.concat_eq_append, List.append_assoc, List.singleton_append, steps_append,
        steps_append, hempty, List.append_nil]
  · exact steps_append bytes name

theorem isAbsolute_join {directory : Path} {name : FileName} (hslash : slash ∉ name) :
    (directory.join ⟨name⟩).isAbsolute = directory.isAbsolute := by
  obtain ⟨bytes⟩ := directory
  rw [join, isAbsolute_of_notMem hslash, if_neg (by decide)]
  cases bytes with
  | nil => exact isAbsolute_of_notMem hslash
  | cons b rest => split <;> rfl

end UsbTopology.Path
