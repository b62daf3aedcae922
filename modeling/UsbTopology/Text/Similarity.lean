import UsbTopology.Number.Binary64

set_option autoImplicit false

/-!
# Similarity of words

Two words are similar as far as their letters agree at nearby places and in the same order. The
measure is the mean of the matched part of either word and of the part of the matched letters that
stand in the same order. It is a double, rounded after each step, and so are the bounds that are set
on it.
-/
namespace UsbTopology.Text

def claimLetter (ch : Char) (low high : Nat) :
    Nat → List (Char × Bool) → Option (List (Char × Bool))
  | _, [] => none
  | j, (d, taken) :: rest =>
    if low ≤ j ∧ j < high ∧ taken = false ∧ d = ch then some ((d, true) :: rest)
    else (claimLetter ch low high (j + 1) rest).map ((d, taken) :: ·)

def matchLetters (reach : Nat) :
    Nat → List Char → List (Char × Bool) → List Char × List (Char × Bool)
  | _, [], other => ([], other)
  | i, ch :: rest, other =>
    match claimLetter ch (i - reach) (i + reach + 1) 0 other with
    | some other =>
      let r := matchLetters reach (i + 1) rest other
      (ch :: r.1, r.2)
    | none => matchLetters reach (i + 1) rest other

/-- The similarity of two words, or `none` if no letters of theirs agree. -/
def similarity (a b : List Char) : Option Binary64 :=
  let reach := max a.length b.length / 2 - 1
  let (left, marked) := matchLetters reach 0 a (b.map fun ch => (ch, false))
  let right := (marked.filter Prod.snd).map Prod.fst
  let m := left.length
  let swapped := ((left.zip right).countP fun p => p.1 ≠ p.2) / 2
  if m = 0 then none
  else do
    let inFirst ← Binary64.ofRatio? m a.length
    let inSecond ← Binary64.ofRatio? m b.length
    let inOrder ← Binary64.ofRatio? (m - swapped) m
    (← (← inFirst.add? inSecond).add? inOrder).div? (← Binary64.ofRatio? 3 1)

def isClose (s : Binary64) : Bool := (Binary64.ofRatio? 7 10).any fun bound => !s.atMost bound

/-- Of the candidates that are close to the word the most similar, the last one of several. -/
def mostSimilar (word : String) (candidates : List String) : Option String :=
  let close := candidates.filterMap fun candidate =>
    ((similarity word.toList candidate.toList).filter isClose).map fun s => (s, candidate)
  (close.foldl (fun best next =>
    if best.all fun b => b.1.atMost next.1 then some next else best) none).map Prod.snd

end UsbTopology.Text
