import UsbTopology.FileSystem

set_option autoImplicit false

/-!
# Changing a file system

Files, links and directories are made together with the directories above them. A change that does
not fit what is there leaves the file system as it is.
-/
namespace UsbTopology

inductive Change where
  | directory (path : Path)
  | file (path : Path) (bytes : List UInt8)
  | unreadable (path : Path) (fault : IoFault)
  | link (path target : Path)
  | remove (path : Path)
deriving DecidableEq, Repr

namespace FileSystem

def ofCurrent (current : Place) : FileSystem where
  nodes := (List.range (current.length + 1)).map fun n => (current.take n, .directory)
  current

def putNode (fs : FileSystem) (place : Place) (n : Node) : FileSystem :=
  { fs with nodes := (place, n) :: fs.nodes.filter fun e => e.1 ≠ place }

def openDirectories (fs : FileSystem) (place : Place) : List FileName → FileSystem × Place
  | [] => (fs, place)
  | piece :: rest =>
    match fs.walk true maxLinks place [piece] with
    | .ok inner => openDirectories fs inner rest
    | .error _ => openDirectories (fs.putNode (place ++ [piece]) .directory) (place ++ [piece]) rest

/-- The directory above a path, made where it is missing, and the path's last name. -/
def openParent (fs : FileSystem) (p : Path) : FileSystem × Place × FileName :=
  let start := startOf fs.current p.pieces
  let names := Path.dropBlanks start.2
  let opened := fs.openDirectories start.1 names.dropLast
  (opened.1, opened.2, names.getLast?.getD [])

/-- The place of a file that is opened under a name in a directory: behind the links there, even if
the last of them leads nowhere yet. -/
def openedPlace? (fs : FileSystem) : Nat → Place → FileName → Option Place
  | links, directory, name =>
    if Path.isBlank name || name = Path.dotDot then none
    else
      match fs.node? (directory ++ [name]), links with
      | some .directory, _ | some (.sealed _), _ => none
      | some (.link _), 0 => none
      | some (.link target), links + 1 =>
        let start := startOf directory target.pieces
        match fs.walk true maxLinks start.1 start.2.dropLast with
        | .ok directory => fs.openedPlace? links directory (start.2.getLast?.getD [])
        | .error _ => none
      | _, _ => some (directory ++ [name])

def putFile (fs : FileSystem) (p : Path) (n : Node) : FileSystem :=
  let (fs, directory, name) := fs.openParent p
  (fs.openedPlace? maxLinks directory name).elim fs fun place => fs.putNode place n

def apply (fs : FileSystem) : Change → FileSystem
  | .directory p =>
    let start := startOf fs.current p.pieces
    (fs.openDirectories start.1 start.2).1
  | .file p bytes => fs.putFile p (.file bytes)
  | .unreadable p fault => fs.putFile p (.unreadable fault)
  | .link p target =>
    let (fs, directory, name) := fs.openParent p
    let place := directory ++ [name]
    if (fs.node? place).isSome then fs else fs.putNode place (.link target)
  | .remove p =>
    match fs.resolve false p with
    | .ok place => { fs with nodes := fs.nodes.filter fun e => !place.isPrefixOf e.1 }
    | .error _ => fs

end FileSystem

end UsbTopology
