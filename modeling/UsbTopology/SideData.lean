import UsbTopology.Location.Name
import UsbTopology.Table

set_option autoImplicit false

/-!
# Side data

What a tree shows and the descriptors of a device do not tell: the driver bound to an interface and
the number of ports of a hub. It is asked for by location, so a recorded table can stand in for the
running system.
-/
namespace UsbTopology

structure SideData where
  /-- The driver bound to an interface; of a root hub the driver of its controller. -/
  driver : Location → UInt8 → Option String
  portCount : Location → Option UInt8

inductive SideQuery where
  | driver (location : Location) (interface : UInt8)
  | portCount (location : Location)
deriving DecidableEq, Repr

namespace SideData

def ofTables (drivers : Table String String) (portCounts : Table String UInt8) : SideData where
  driver l i := drivers.get? (l.driverNode i)
  portCount l := portCounts.get? l.deviceName

end SideData

end UsbTopology
