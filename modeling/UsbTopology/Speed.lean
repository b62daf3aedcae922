set_option autoImplicit false

/-!
# Speeds

The speeds that a device can be reported at. Anything faster than SuperSpeed counts as unknown.
-/
namespace UsbTopology

inductive Speed where
  | unknown
  | low
  | full
  | high
  | super
deriving DecidableEq, Repr, Inhabited

namespace Speed

def all : List Speed := [.unknown, .low, .full, .high, .super]

def name : Speed → String
  | .unknown => "unknown"
  | .low => "low_speed"
  | .full => "full_speed"
  | .high => "high_speed"
  | .super => "super_speed"

def ofName? (s : String) : Option Speed := all.find? fun v => v.name = s

/-- The rate in Mb/s as a tree line shows it. -/
def rate : Speed → String
  | .unknown => "Unknown"
  | .low => "1.5"
  | .full => "12"
  | .high => "480"
  | .super => "5000"

theorem ofName?_name (v : Speed) : ofName? v.name = some v := by
  cases v <;> decide

end Speed

end UsbTopology
