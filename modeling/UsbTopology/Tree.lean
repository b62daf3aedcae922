import UsbTopology.Log
import UsbTopology.Text.Line
import UsbTopology.Text.Utf8
import UsbTopology.Tree.Entry

set_option autoImplicit false

/-!
# Trees

A tree is a list of entries in the order of their locations; entries of one location stay in the
order of their enumeration. Devices that failed are no part of it and are kept as faults.
-/
namespace UsbTopology

namespace Entry

/-- Location first, place in the enumeration second. -/
def precedes (a b : Entry) : Bool :=
  a.location.value < b.location.value ||
    a.location.value == b.location.value && a.index ≤ b.index

def arrange (entries : List Entry) : List Entry := entries.mergeSort precedes

def assemble (entries : List Entry) : List String := (arrange entries).map Entry.text

def placementNote (e : Entry) : LogRecord where
  level := .trace
  source := .tree
  message := e.location.text ++ " (" ++ e.location.sortTag ++ ") #" ++ toString e.index

def arrangeLog (entries : List Entry) : List LogRecord := (arrange entries).map placementNote

end Entry

structure Tree where
  entries : List Entry
  faults : List Fault
deriving DecidableEq, Repr

namespace Tree

def ofEntries (entries : List Entry) : Tree := ⟨Entry.arrange entries, []⟩

def entriesOf (names : ClassNames) (side : SideData) (probes : List Probe) : List Entry :=
  probes.zipIdx.filterMap fun p => match p.1 with
    | .ok d => some (.ofDevice names side p.2 d)
    | .error _ => none

def faultsOf (probes : List Probe) : List Fault :=
  probes.filterMap fun p => match p with
    | .ok _ => none
    | .error f => some f

def build (names : ClassNames) (side : SideData) (probes : List Probe) : Tree :=
  { ofEntries (entriesOf names side probes) with faults := faultsOf probes }

def text (t : Tree) : String := String.join (t.entries.map Entry.text)

/-- Writes the entries one after the other and flushes at the end; the first failure ends it. -/
def writeTo {m : Type → Type} [Monad m] (write : List UInt8 → m Unit) (flush : m Unit)
    (t : Tree) : m Unit := do
  t.entries.forM fun e => write (Text.encode e.text)
  flush

def written (t : Tree) : List UInt8 :=
  let append (bytes : List UInt8) : StateM (List UInt8) Unit := modify (· ++ bytes)
  ((t.writeTo append (pure ())).run []).2

def lines (t : Tree) : List String := t.entries.flatMap fun e => Text.lines e.text

def skipNote (index : Nat) (f : Fault) : LogRecord where
  level := .warn
  source := .tree
  message := "Skipping device " ++ toString index ++ ": " ++ f.report

/-- What is noted when a tree is built: the answers that side data could not give, the devices that
are skipped, and the arranged entries. -/
def buildLog (note : SideQuery → List LogRecord) (names : ClassNames) (side : SideData)
    (probes : List Probe) : List LogRecord :=
  (probes.zipIdx.flatMap fun p => match p.1 with
    | .ok d => d.renderQueries.flatMap note
    | .error f => [skipNote p.2 f]) ++
  Entry.arrangeLog (entriesOf names side probes)

end Tree

end UsbTopology
