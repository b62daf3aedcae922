import UsbTopology.ClassCode
import UsbTopology.Fault
import UsbTopology.Speed

set_option autoImplicit false

/-!
# Devices

A device as it was enumerated, and the check that its port path is one that a tree can place: at
most seven ports, each from 1 to 15.
-/
namespace UsbTopology

structure Interface where
  baseClass : UInt8
  subClass : UInt8
  protocol : UInt8
deriving DecidableEq, Repr, Inhabited

namespace Interface

def classCode (i : Interface) : ClassCode := .ofId i.baseClass

end Interface

structure Configuration where
  number : UInt8
  interfaces : List Interface
deriving DecidableEq, Repr, Inhabited

structure Device where
  bus : UInt8
  ports : List UInt8
  address : UInt8
  speed : Speed
  configurations : List Configuration
deriving DecidableEq, Repr, Inhabited

namespace Device

def location (d : Device) : Location := .encode d.bus d.ports

def isRootHub (d : Device) : Bool := d.location.isRootHub

def maxPorts : Nat := 7

inductive Misplacement where
  | tooDeep
  | portOutOfRange (port : UInt8)
deriving DecidableEq, Repr

def misplacement? (d : Device) : Option Misplacement :=
  if d.ports.length > maxPorts then some .tooDeep
  else (d.ports.find? fun p => p = 0 || p > 15).map .portOutOfRange

def bytesText (bytes : List UInt8) : String := "[" ++ ", ".intercalate (bytes.map byteText) ++ "]"

def Misplacement.message (d : Device) : Misplacement → String
  | .tooDeep => "Port path " ++ bytesText d.ports ++ " of bus " ++ byteText d.bus ++ " device " ++
      byteText d.address ++ " is deeper than " ++ toString maxPorts ++ " levels"
  | .portOutOfRange p => "Port " ++ byteText p ++ " of bus " ++ byteText d.bus ++ " device " ++
      byteText d.address ++ " is not in 1..=15"

def validate (d : Device) : Except Fault Device :=
  match d.misplacement? with
  | none => .ok d
  | some m => .error ⟨.invalidArgument, m.message d⟩

end Device

/-- The result of asking one device for its descriptors. -/
abbrev Probe := Except Fault Device

end UsbTopology
