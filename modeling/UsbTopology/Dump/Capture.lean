import UsbTopology.Dump

set_option autoImplicit false

/-!
# Capturing a dump

A dump of probe results keeps every probe in order, and the side data of the devices among them. Of
a device the interface numbers from zero are asked for, as many as its largest configuration has and
at least one; of a root hub only the controller's driver.
-/
namespace UsbTopology

namespace Device

def interfaceCount (d : Device) : Nat :=
  d.configurations.foldl (fun n c => max n c.interfaces.length) 0

def capturedInterfaces (d : Device) : List UInt8 :=
  if d.isRootHub then [0]
  else (List.range (min (max d.interfaceCount 1) 255)).map UInt8.ofNat

def driverEntries (side : SideData) (d : Device) : List (String × String) :=
  d.capturedInterfaces.filterMap fun i =>
    (side.driver d.location i).map (Prod.mk (d.location.driverNode i))

def portCountEntries (side : SideData) (d : Device) : List (String × UInt8) :=
  ((side.portCount d.location).map (Prod.mk d.location.deviceName)).toList

/-- What is asked to capture the device, in order. -/
def captureQueries (d : Device) : List SideQuery :=
  .portCount d.location :: d.capturedInterfaces.map (.driver d.location)

end Device

def probedDevices (probes : List Probe) : List Device := probes.filterMap Except.toOption

namespace Dump

def capture (probes : List Probe) (side : SideData) : Dump where
  devices := probes.map .ofProbe
  drivers := .ofList ((probedDevices probes).flatMap (Device.driverEntries side))
  portCounts := .ofList ((probedDevices probes).flatMap (Device.portCountEntries side))

def captureQueries (probes : List Probe) : List SideQuery :=
  (probedDevices probes).flatMap Device.captureQueries

end Dump

end UsbTopology
