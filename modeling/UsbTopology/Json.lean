import UsbTopology.Number.Shortest

set_option autoImplicit false

/-!
# JSON values

Objects keep their members as they stand: in order, and with repeated names. A number without sign,
fraction and exponent that fits a word is natural; a number with a minus sign that fits a signed
word is negative; every other number, `-0` among them, is a double.
-/
namespace UsbTopology

inductive Json.Number where
  | natural (n : Nat)
  | negative (magnitude : Nat)
  | real (minus : Bool) (magnitude : Binary64)
deriving DecidableEq, Repr

inductive Json where
  | null
  | bool (b : Bool)
  | number (n : Json.Number)
  | string (s : String)
  | array (elements : List Json)
  | object (members : List (String × Json))
deriving Repr

namespace Json

instance : Inhabited Json := ⟨.null⟩

/-- A double is written positionally from `1e-5` up to `1e16`. -/
def Number.layout : Binary64.Layout := ⟨-5, 16⟩

def Number.text : Number → String
  | .natural n => toString n
  | .negative n => "-" ++ toString n
  | .real minus x => if minus then "-" ++ x.text layout else x.text layout

def ofByte (b : UInt8) : Json := .number (.natural b.toNat)

def byte? : Json → Option UInt8
  | .number (.natural n) => if n < 256 then some (UInt8.ofNat n) else none
  | _ => none

def text? : Json → Option String
  | .string s => some s
  | _ => none

def elements : Json → List Json
  | .array elements => elements
  | _ => []

def members : Json → List (String × Json)
  | .object members => members
  | _ => []

def member? (j : Json) (name : String) : Option Json := j.members.lookup name

theorem byte?_ofByte (b : UInt8) : (ofByte b).byte? = some b := by
  simp [ofByte, byte?, b.toNat_lt]

end Json

end UsbTopology
