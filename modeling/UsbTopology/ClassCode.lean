import UsbTopology.Location.Name

set_option autoImplicit false

/-!
# Base classes

A hub is the one base class that changes how a device is shown.
-/
namespace UsbTopology

inductive ClassCode where
  | hub
  | other (id : UInt8)
deriving DecidableEq, Repr

namespace ClassCode

def ofId (id : UInt8) : ClassCode := if id = 9 then .hub else .other id

def isHub : ClassCode → Bool
  | .hub => true
  | .other _ => false

def text : ClassCode → String
  | .hub => "Hub"
  | .other id => "Other(" ++ byteText id ++ ")"

theorem isHub_ofId (id : UInt8) : (ofId id).isHub = true ↔ id = 9 := by
  unfold ofId
  split <;> simp_all [isHub]

end ClassCode

end UsbTopology
