import UsbTopology.ClassNames
import UsbTopology.Device
import UsbTopology.SideData

set_option autoImplicit false

/-!
# Entries of a tree

A device is rendered to an entry: the text of its lines and the location that places them. A root
hub has one line, any other device a line for each interface of each configuration.
-/
namespace UsbTopology

structure Entry where
  location : Location
  index : Nat
  text : String
deriving DecidableEq, Repr

namespace Location

def branch (l : Location) : String :=
  if l.depth = 0 then "/:  "
  else String.ofList (List.replicate (4 * l.depth) ' ') ++ "|__ "

/-- The port as a hexadecimal digit; a root hub counts as port 1. -/
def portDigit (l : Location) : String :=
  String.singleton (Text.hexDigit ((l.port?.getD 1).toNat))

end Location

def twoDigits (b : UInt8) : String := if b < 10 then "0" ++ byteText b else byteText b

namespace Device

def unknownDriver : String := "Unknown"

def lineEnd (d : Device) (middle driver : String) : String :=
  "Dev " ++ byteText d.address ++ ", " ++ middle ++ ", Driver=" ++ driver ++ ", " ++
    d.speed.rate ++ "M\n"

def withPorts (driver : String) (count? : Option UInt8) : String :=
  driver ++ "/" ++ byteText (count?.getD 0) ++ "p"

def rootHubLine (side : SideData) (d : Device) : String :=
  let l := d.location
  l.branch ++ "Bus " ++ twoDigits d.bus ++ ".Port " ++ l.portDigit ++ ": " ++
    d.lineEnd "Class=root_hub"
      (withPorts ((side.driver l 0).getD unknownDriver) (side.portCount l))

def interfaceLine (names : ClassNames) (side : SideData) (d : Device) (number : UInt8)
    (i : Interface) : String :=
  let l := d.location
  let driver := (side.driver l number).getD unknownDriver
  l.branch ++ "Port " ++ l.portDigit ++ ": " ++
    d.lineEnd ("If " ++ byteText number ++ ", Class=" ++ (names i.baseClass).getD "")
      (if i.classCode.isHub then withPorts driver (side.portCount l) else driver)

/-- The interfaces with their numbers, which start anew in each configuration and stop at 255. -/
def numberedInterfaces (d : Device) : List (UInt8 × Interface) :=
  d.configurations.flatMap fun c =>
    c.interfaces.zipIdx.map fun i => (UInt8.ofNat (min i.2 255), i.1)

def render (names : ClassNames) (side : SideData) (d : Device) : String :=
  if d.location.depth = 0 then d.rootHubLine side
  else String.join (d.numberedInterfaces.map fun i => d.interfaceLine names side i.1 i.2)

def renderQueries (d : Device) : List SideQuery :=
  let l := d.location
  if l.depth = 0 then [.driver l 0, .portCount l]
  else d.numberedInterfaces.flatMap fun i =>
    .driver l i.1 :: if i.2.classCode.isHub then [.portCount l] else []

end Device

def Entry.ofDevice (names : ClassNames) (side : SideData) (index : Nat) (d : Device) : Entry where
  location := d.location
  index
  text := d.render names side

end UsbTopology
