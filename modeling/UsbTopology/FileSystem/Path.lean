import UsbTopology.Text.Quoted

set_option autoImplicit false

/-!
# Paths

A path is a byte text whose pieces are separated by slashes. An empty piece or a dot behind the
first piece names nothing, so `fileName?` and `parent?` pass over such pieces at the end.
-/
namespace UsbTopology

abbrev FileName := List UInt8

structure Path where
  bytes : List UInt8
deriving DecidableEq, Repr

namespace Path

def slash : UInt8 := 0x2f

def ofString (s : String) : Path := ⟨Text.encode s⟩

def splitSlashes : List UInt8 → FileName × List FileName
  | [] => ([], [])
  | b :: rest =>
    let r := splitSlashes rest
    if b = slash then ([], r.1 :: r.2) else (b :: r.1, r.2)

/-- The pieces of the path, of which the first is empty in an absolute path. -/
def pieces (p : Path) : List FileName :=
  let s := splitSlashes p.bytes
  s.1 :: s.2

def dot : FileName := [0x2e]

def dotDot : FileName := [0x2e, 0x2e]

def isBlank (piece : FileName) : Bool := piece = [] || piece = dot

def dropBlanks (pieces : List FileName) : List FileName :=
  (pieces.reverse.dropWhile isBlank).reverse

def isAbsolute (p : Path) : Bool := p.bytes.head? = some slash

/-- The path seen from a directory; an absolute path stays as it is. -/
def join (directory p : Path) : Path :=
  if p.isAbsolute then p
  else if directory.bytes.getLast?.all (· = slash) then ⟨directory.bytes ++ p.bytes⟩
  else ⟨directory.bytes ++ slash :: p.bytes⟩

def fileName? (p : Path) : Option FileName :=
  let s := splitSlashes p.bytes
  let name := (dropBlanks s.2).getLast?.getD s.1
  if isBlank name || name = dotDot then none else some name

def ofPieces (first : FileName) (rest : List FileName) : Path :=
  if first = [] && rest.isEmpty then ⟨[slash]⟩
  else ⟨first ++ rest.flatMap (slash :: ·)⟩

/-- The path without its last piece; neither the empty path nor the root has one. -/
def parent? (p : Path) : Option Path :=
  let s := splitSlashes p.bytes
  let rest := dropBlanks s.2
  if rest.isEmpty then
    if s.1 = [] then none else some ⟨[]⟩
  else some (ofPieces s.1 (dropBlanks rest.dropLast))

def quoted (p : Path) : String := Text.quotePath p.bytes

end Path

end UsbTopology
