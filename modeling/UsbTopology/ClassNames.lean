import UsbTopology.Table

set_option autoImplicit false

/-!
# Names of base classes

A naming gives some base classes a name. `ClassNames.registered` holds the names that the USB
registry assigns; a table of a user's own names can stand before it or alone.
-/
namespace UsbTopology

abbrev ClassNames := UInt8 → Option String

namespace ClassNames

def registry : List (UInt8 × String) := [
  (0x00, "(Defined at Interface level)"), (0x01, "Audio"), (0x02, "Communications"),
  (0x03, "Human Interface Device"), (0x05, "Physical Interface Device"), (0x06, "Imaging"),
  (0x07, "Printer"), (0x08, "Mass Storage"), (0x09, "Hub"), (0x0a, "CDC Data"),
  (0x0b, "Chip/SmartCard"), (0x0d, "Content Security"), (0x0e, "Video"),
  (0x0f, "Personal Healthcare"), (0x10, "Audio/Video"), (0x11, "Billboard"),
  (0x12, "Type-C Bridge"), (0x13, "Bulk Display"), (0x14, "MCTCP over USB"), (0x3c, "I3C"),
  (0x58, "Xbox"), (0xdc, "Diagnostic"), (0xe0, "Wireless"), (0xef, "Miscellaneous Device"),
  (0xfe, "Application Specific Interface"), (0xff, "Vendor Specific Class")]

def registered : ClassNames := fun id => registry.lookup id

def ofTable (t : Table UInt8 String) : ClassNames := t.get?

def withOverrides (names : ClassNames) (overrides : Table UInt8 String) : ClassNames :=
  fun id => (overrides.get? id).or (names id)

end ClassNames

end UsbTopology
