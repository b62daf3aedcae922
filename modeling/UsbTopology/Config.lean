import UsbTopology.ClassNames
import UsbTopology.Json.Printer
import UsbTopology.Json.Shape
import UsbTopology.Sysfs

set_option autoImplicit false

/-!
# Configurations

A configuration says where the nodes of the devices are and which names a user gives to classes. It
is read from a file that the user names, or else from `usbtree/usbtree.json` in the user's
configuration directory, if that exists. A member of any other name is refused.
-/
namespace UsbTopology

open Json (Shape)

structure Config where
  sysfsRoot : Option String
  classNames : Table UInt8 String
deriving DecidableEq

structure Environment where
  home? : Option Path
  configHome? : Option Path
  logLevel? : Option String
  /-- The home directory of the user's account. -/
  accountHome? : Option Path
deriving DecidableEq, Repr

namespace Config

def empty : Config := ⟨none, .empty⟩

def sample : Config := ⟨none, Table.empty.insert 0xe0 "Wireless"⟩

def shape : Shape :=
  .record "Config" ⟨true, false⟩
    [.mk "sysfs-root" false (.optional (.text "path string")),
      .mk "class-names" false (.byteTable (.text "a string"))]

def toJson (c : Config) : Json :=
  .object [("sysfs-root", c.sysfsRoot.elim .null .string),
    ("class-names", .object (c.classNames.entries.map fun e => (byteText e.1, .string e.2)))]

def ofJson (j : Json) : Config where
  sysfsRoot := (j.member? "sysfs-root").bind Json.text?
  classNames := .ofList (((j.member? "class-names").elim [] Json.members).map fun m =>
    ((Json.byteOfName? m.1).getD 0, m.2.text?.getD ""))

def parse (text : String) : Except Json.Fault Config := (shape.parse text).map ofJson

def details (c : Config) : String :=
  "Config \x7b sysfs_root: " ++
    c.sysfsRoot.elim "None" (fun root => "Some(" ++ (Path.ofString root).quoted ++ ")") ++
    ", class_names: \x7b" ++
    ", ".intercalate (c.classNames.entries.map fun e => byteText e.1 ++ ": " ++ Text.quote e.2) ++
    "\x7d \x7d"

def names (c : Config) (registered : ClassNames) : ClassNames :=
  registered.withOverrides c.classNames

def root (c : Config) : String := c.sysfsRoot.getD Sysfs.defaultRoot

def ofFile (fs : FileSystem) (path : Path) : Except Fault Config :=
  fs.readAs path parse fun f =>
    ⟨.config, "Failed to parse config at " ++ path.quoted ++ "; Error(" ++ f.message ++ ")"⟩

/-- The environment's home directory, or else the account's; an empty path is none. -/
def homeDirectory? (env : Environment) : Option Path :=
  (env.home?.filter fun p => p.bytes ≠ []).or (env.accountHome?.filter fun p => p.bytes ≠ [])

/-- The user's configuration directory: an absolute one of the environment, or `.config` at home. -/
def userDirectory? (env : Environment) : Option Path :=
  (env.configHome?.filter Path.isAbsolute).or
    ((homeDirectory? env).map fun home => home.join (.ofString ".config"))

def userPath? (env : Environment) : Option Path :=
  (userDirectory? env).map fun d => (d.join (.ofString "usbtree")).join (.ofString "usbtree.json")

def foundPath? (fs : FileSystem) (env : Environment) : Option Path :=
  (userPath? env).filter fs.existsAt

def ofUser (fs : FileSystem) (env : Environment) : Except Fault Config :=
  (foundPath? fs env).elim (.ok empty) (ofFile fs)

def userNote (fs : FileSystem) (env : Environment) : LogRecord :=
  match foundPath? fs env with
  | some path => ⟨.info, .config, "Loading config from " ++ path.quoted⟩
  | none => ⟨.debug, .config, "No system config, using default"⟩

end Config

end UsbTopology
