import UsbTopology.Fault
import UsbTopology.FileSystem.Path

set_option autoImplicit false

/-!
# File systems

A file system is a list of files, links and directories by their place below the root, with a
current directory. A path is resolved piece by piece; a link is replaced by its target, and a parent
is taken after that.
-/
namespace UsbTopology

/-- A place: the names of the directories from the root down, and the file's own name. -/
abbrev Place := List FileName

inductive IoFault where
  | noEntry
  | notADirectory
  | isADirectory
  | notALink
  | nameTooLong
  | tooManyLinks
  | notUtf8
  | zeroByte
  | denied
  | other (message : String)
deriving DecidableEq, Repr

namespace IoFault

def message : IoFault → String
  | .noEntry => "No such file or directory (os error 2)"
  | .notADirectory => "Not a directory (os error 20)"
  | .isADirectory => "Is a directory (os error 21)"
  | .notALink => "Invalid argument (os error 22)"
  | .nameTooLong => "File name too long (os error 36)"
  | .tooManyLinks => "Too many levels of symbolic links (os error 40)"
  | .notUtf8 => "stream did not contain valid UTF-8"
  | .zeroByte => "file name contained an unexpected NUL byte"
  | .denied => "Permission denied (os error 13)"
  | .other message => message

def toFault (f : IoFault) : Fault := ⟨.io, f.message⟩

end IoFault

inductive Node where
  | file (bytes : List UInt8)
  | link (target : Path)
  | directory
  /-- A file that is there, but whose bytes cannot be had. -/
  | unreadable (fault : IoFault)
  /-- A directory that can be neither read nor searched. -/
  | sealed (fault : IoFault)
deriving DecidableEq, Repr

structure FileSystem where
  nodes : List (Place × Node)
  current : Place
deriving Repr

namespace FileSystem

def maxName : Nat := 255

def maxPath : Nat := 4095

def maxLinks : Nat := 40

/-- What is at a place; the root is always there. -/
def node? (fs : FileSystem) (place : Place) : Option Node :=
  if place = [] then some .directory else fs.nodes.lookup place

/-- Where the pieces of a path start: at the root if the first piece is empty. -/
def startOf (from_ : Place) (pieces : List FileName) : Place × List FileName :=
  match pieces with
  | [] :: rest => ([], rest)
  | _ => (from_, pieces)

/-- Resolves pieces from a place. Links are left to `follow`, which gets the directory of the link
and the pieces of its target with the remaining ones behind them. The last piece is only followed if
`followLast` says so. -/
def walkWith (fs : FileSystem) (followLast : Bool)
    (follow : Place → List FileName → Except IoFault Place) :
    Place → List FileName → Except IoFault Place
  | place, [] => .ok place
  | place, piece :: rest =>
    match fs.node? place with
    | some .directory =>
      if Path.isBlank piece then walkWith fs followLast follow place rest
      else if piece = Path.dotDot then walkWith fs followLast follow place.dropLast rest
      else if maxName < piece.length then .error .nameTooLong
      else
        match fs.node? (place ++ [piece]) with
        | none => .error .noEntry
        | some (.link target) =>
          if rest.isEmpty && !followLast then .ok (place ++ [piece])
          else
            let start := startOf place target.pieces
            follow start.1 (start.2 ++ rest)
        | some _ => walkWith fs followLast follow (place ++ [piece]) rest
    | some (.sealed fault) =>
      -- Slashes at the end of a path ask for nothing in the directory.
      if (piece :: rest).all List.isEmpty then .ok place else .error fault
    | _ => .error .notADirectory

def walk (fs : FileSystem) (followLast : Bool) :
    Nat → Place → List FileName → Except IoFault Place
  | 0 => walkWith fs followLast fun _ _ => .error .tooManyLinks
  | links + 1 => walkWith fs followLast (walk fs followLast links)

def resolve (fs : FileSystem) (followLast : Bool) (p : Path) : Except IoFault Place :=
  if 0 ∈ p.bytes then .error .zeroByte
  else if p.bytes = [] then .error .noEntry
  else if maxPath < p.bytes.length then .error .nameTooLong
  else
    let start := startOf fs.current p.pieces
    fs.walk followLast maxLinks start.1 start.2

def existsAt (fs : FileSystem) (p : Path) : Bool :=
  match fs.resolve true p with
  | .ok _ => true
  | .error _ => false

def readBytes (fs : FileSystem) (p : Path) : Except IoFault (List UInt8) := do
  match fs.node? (← fs.resolve true p) with
  | some (.file bytes) => .ok bytes
  | some .directory => .error .isADirectory
  | some (.unreadable fault) | some (.sealed fault) => .error fault
  | _ => .error .noEntry

def readText (fs : FileSystem) (p : Path) : Except IoFault String := do
  match Text.decode? (← fs.readBytes p) with
  | some s => .ok s
  | none => .error .notUtf8

/-- What the text of a file is parsed as. -/
def readAs {ε α : Type} (fs : FileSystem) (p : Path) (parse : String → Except ε α)
    (toFault : ε → Fault) : Except Fault α := do
  let text ← (fs.readText p).mapError IoFault.toFault
  (parse text).mapError toFault

section

variable {ε α : Type} {fs : FileSystem} {p : Path} {parse : String → Except ε α}
  {toFault : ε → Fault}

theorem readAs_of_ok {text : String} (h : fs.readText p = .ok text) :
    fs.readAs p parse toFault = (parse text).mapError toFault := by
  rw [readAs, h]
  rfl

theorem readAs_of_error {f : IoFault} (h : fs.readText p = .error f) :
    fs.readAs p parse toFault = .error f.toFault := by
  rw [readAs, h]
  rfl

end

def readLink (fs : FileSystem) (p : Path) : Except IoFault Path := do
  match fs.node? (← fs.resolve false p) with
  | some (.link target) => .ok target
  | _ => .error .notALink

end FileSystem

end UsbTopology
