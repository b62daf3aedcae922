import UsbTopology.FileSystem
import UsbTopology.Log
import UsbTopology.SideData
import UsbTopology.Text.Blank

set_option autoImplicit false

/-!
# Side data of a running system

The kernel lists a node for each device and each interface in one directory. The port count of a hub
is the text of an attribute file, and the driver of an interface is the name that a link points to.
A root hub has no driver of its own: its node links into the directory of the host controller, and
the controller's driver is shown.
-/
namespace UsbTopology

structure Sysfs where
  files : FileSystem
  root : Path

inductive CountFault where
  | empty
  | notADigit
  | tooLarge
deriving DecidableEq, Repr

namespace CountFault

def message : CountFault → String
  | .empty => "cannot parse integer from empty string"
  | .notADigit => "invalid digit found in string"
  | .tooLarge => "number too large to fit in target type"

end CountFault

/-- Takes decimal digits into a number below 256; a character that is no digit is reported before a
number that has grown too large by its place. -/
def countOfDigits : Nat → List Char → Except CountFault UInt8
  | n, [] => .ok (UInt8.ofNat n)
  | n, c :: rest =>
    if '0' ≤ c ∧ c ≤ '9' then
      let m := 10 * n + (c.toNat - 48)
      if m < 256 then countOfDigits m rest else .error .tooLarge
    else .error .notADigit

def countOfText : List Char → Except CountFault UInt8
  | [] => .error .empty
  | ['+'] => .error .notADigit
  | '+' :: digits => countOfDigits 0 digits
  | digits => countOfDigits 0 digits

inductive SysfsFault where
  | io (fault : IoFault)
  | badCount (text : String) (path : Path) (fault : CountFault)
  /-- A link whose target ends with no name. -/
  | noFileName (link : Path)
  /-- A root hub's link whose target has no directory. -/
  | noController (target : Path)
deriving DecidableEq, Repr

namespace SysfsFault

def toFault : SysfsFault → Fault
  | .io fault => fault.toFault
  | .badCount text path fault =>
    ⟨.parsing, "Invalid maxchild " ++ Text.quote text ++ " at " ++ path.quoted ++ ": " ++
      fault.message⟩
  | .noFileName link => ⟨.notFound, "Link " ++ link.quoted ++ " has no file name"⟩
  | .noController target => ⟨.notFound, "No host controller above " ++ target.quoted⟩

end SysfsFault

namespace Sysfs

def defaultRoot : String := "/sys/bus/usb/devices/"

def nodeFile (s : Sysfs) (node name : String) : Path :=
  (s.root.join (.ofString node)).join (.ofString name)

def readPortCount (s : Sysfs) (l : Location) : Except SysfsFault UInt8 := do
  let path := s.nodeFile l.deviceName "maxchild"
  let text ← (s.files.readText path).mapError SysfsFault.io
  let trimmed := Text.trim text.toList
  (countOfText trimmed).mapError (.badCount (String.ofList trimmed) path)

def linkName (files : FileSystem) (link : Path) : Except SysfsFault String := do
  let target ← (files.readLink link).mapError SysfsFault.io
  match target.fileName?.bind Text.decode? with
  | some name => .ok name
  | none => .error (.noFileName link)

def readDriver (s : Sysfs) (l : Location) (interface : UInt8) : Except SysfsFault String := do
  if l.isRootHub then
    let target ← (s.files.readLink (s.root.join (.ofString l.deviceName))).mapError SysfsFault.io
    match target.parent? with
    | some controller => linkName s.files ((s.root.join controller).join (.ofString "driver"))
    | none => .error (.noController target)
  else linkName s.files (s.nodeFile (l.driverNode interface) "driver")

def sideData (s : Sysfs) : SideData where
  driver l i := (s.readDriver l i).toOption
  portCount l := (s.readPortCount l).toOption

def note (s : Sysfs) : SideQuery → List LogRecord
  | .driver l i =>
    match s.readDriver l i with
    | .ok _ => []
    | .error f =>
      [⟨.debug, .sysfs, "No driver for " ++ l.text ++ " interface " ++ byteText i ++ ": " ++
        f.toFault.report⟩]
  | .portCount l =>
    match s.readPortCount l with
    | .ok _ => []
    | .error f =>
      [⟨.debug, .sysfs, "No maxchild for " ++ l.text ++ ": " ++ f.toFault.report⟩]

end Sysfs

end UsbTopology
