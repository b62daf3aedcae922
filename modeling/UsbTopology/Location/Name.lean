import UsbTopology.Location

set_option autoImplicit false

/-!
# Node names

The names under which the kernel lists a device and its interfaces: `usb1` for a root hub, `1-3.2`
for the device behind port 2 of the hub at port 3, and `1-3.2:1.0` for interface 0 of its
configuration 1.
-/
namespace UsbTopology

def byteText (b : UInt8) : String := toString b.toNat

def portPath (bus : UInt8) (ports : List UInt8) : String :=
  byteText bus ++ "-" ++ ".".intercalate (ports.map byteText)

/-- The name of a device node; a root hub is named by its bus. -/
def deviceName (bus : UInt8) (ports : List UInt8) : String :=
  if ports.isEmpty then "usb" ++ byteText bus else portPath bus ports

def interfaceName (bus : UInt8) (ports : List UInt8) (configuration interface : UInt8) : String :=
  portPath bus ports ++ ":" ++ byteText configuration ++ "." ++ byteText interface

namespace Location

def deviceName (l : Location) : String := UsbTopology.deviceName l.bus l.ports

def interfaceName (l : Location) (configuration interface : UInt8) : String :=
  UsbTopology.interfaceName l.bus l.ports configuration interface

/-- The node that carries the driver link: the controller for a root hub, else an interface of
configuration 1. -/
def driverNode (l : Location) (interface : UInt8) : String :=
  if l.isRootHub then l.deviceName else l.interfaceName 1 interface

end Location

end UsbTopology
