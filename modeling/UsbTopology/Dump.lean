import UsbTopology.Device
import UsbTopology.SideData

set_option autoImplicit false

/-!
# Dumps

A dump keeps the devices of a system in the order of their enumeration, the failed ones among them,
together with tables of the side data seen at the time.
-/
namespace UsbTopology

inductive Record where
  | failed (bus address : Option UInt8) (error : String)
  | device (device : Device)
deriving DecidableEq, Repr

structure Dump where
  devices : List Record
  drivers : Table String String
  portCounts : Table String UInt8
deriving DecidableEq

namespace Record

def knownByte (b? : Option UInt8) : String := b?.elim "?" byteText

def failureMessage (bus address : Option UInt8) (error : String) : String :=
  if bus.isNone ∧ address.isNone then error
  else "Failed to get device descriptor for bus " ++ knownByte bus ++ " device " ++
    knownByte address ++ ": " ++ error

/-- The probe that the record stands for; a device has to be one that can be placed. -/
def probe : Record → Probe
  | .device d => d.validate
  | .failed bus address error => .error ⟨.opening, failureMessage bus address error⟩

/-- The record of a probe; of a failure only the message is kept. -/
def ofProbe : Probe → Record
  | .ok d => .device d
  | .error f => .failed none none f.message

end Record

namespace Dump

def empty : Dump := ⟨[], .empty, .empty⟩

instance : Inhabited Dump := ⟨empty⟩

def probes (d : Dump) : List Probe := d.devices.map Record.probe

def sideData (d : Dump) : SideData := .ofTables d.drivers d.portCounts

end Dump

end UsbTopology
