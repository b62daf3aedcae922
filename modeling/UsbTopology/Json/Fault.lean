import UsbTopology.Json.Cursor
import UsbTopology.Text.Quoted

set_option autoImplicit false

/-!
# Faults of a reading

A fault of the text itself has a place as soon as it is met. A value that does not suit the record
it is read for is a misfit: its place is only known once the enclosing bracket has been looked for.
-/
namespace UsbTopology.Json

inductive Found where
  | null
  | bool (b : Bool)
  | number (n : Number)
  | string (s : String)
  | array
  | object
deriving DecidableEq, Repr

inductive Cause where
  | endInList
  | endInObject
  | endInString
  | endInValue
  | expectedColon
  | expectedListCommaOrEnd
  | expectedObjectCommaOrEnd
  | expectedWord
  | expectedValue
  | expectedQuote
  | invalidEscape
  | invalidNumber
  | numberOutOfRange
  | controlCharacter
  | keyNotText
  | keyNotNumber
  | loneSurrogate
  | trailingComma
  | trailingCharacters
  | brokenSurrogatePair
  | tooDeep
  | wrongType (found : Found) (expected : String)
  | notAByte (n : Number)
  | missingField (name : String)
  | duplicateField (name : String)
  | unknownField (name : String) (known : List String)
  | unknownChoice (name : String) (known : List String)
  /-- An array that ends before the fields of a record do. -/
  | tooShort (length : Nat) (record : String) (fields : Nat)
  | noAlternative (name : String)
deriving DecidableEq, Repr

structure Fault where
  cause : Cause
  place? : Option Position
deriving DecidableEq, Repr

inductive Stop where
  | fault (cause : Cause) (place : Position)
  | misfit (cause : Cause) (at_ : Cursor)
deriving DecidableEq, Repr

/-- A fault at a byte that was looked at and not taken. -/
def Cursor.refuse {α : Type} (c : Cursor) (cause : Cause) : Except Stop α :=
  .error (.fault cause c.peeked)

/-- A fault behind the bytes taken so far. -/
def Cursor.fail {α : Type} (c : Cursor) (cause : Cause) : Except Stop α :=
  .error (.fault cause c.place)

def Found.text : Found → String
  | .null => "null"
  | .bool true => "boolean `true`"
  | .bool false => "boolean `false`"
  | .number (.real minus x) => "floating point `" ++ (Number.real minus x).text ++ "`"
  | .number n => "integer `" ++ n.text ++ "`"
  | .string s => "string " ++ Text.quote s
  | .array => "sequence"
  | .object => "map"

def ticked (name : String) : String := "`" ++ name ++ "`"

def oneOf : List String → String
  | [a] => ticked a
  | [a, b] => ticked a ++ " or " ++ ticked b
  | names => "one of " ++ ", ".intercalate (names.map ticked)

def Cause.message : Cause → String
  | .endInList => "EOF while parsing a list"
  | .endInObject => "EOF while parsing an object"
  | .endInString => "EOF while parsing a string"
  | .endInValue => "EOF while parsing a value"
  | .expectedColon => "expected `:`"
  | .expectedListCommaOrEnd => "expected `,` or `]`"
  | .expectedObjectCommaOrEnd => "expected `,` or `\x7d`"
  | .expectedWord => "expected ident"
  | .expectedValue => "expected value"
  | .expectedQuote => "expected `\"`"
  | .invalidEscape => "invalid escape"
  | .invalidNumber => "invalid number"
  | .numberOutOfRange => "number out of range"
  | .controlCharacter =>
    "control character (\\u0000-\\u001F) found while parsing a string"
  | .keyNotText => "key must be a string"
  | .keyNotNumber => "invalid value: expected key to be a number in quotes"
  | .loneSurrogate => "lone leading surrogate in hex escape"
  | .trailingComma => "trailing comma"
  | .trailingCharacters => "trailing characters"
  | .brokenSurrogatePair => "unexpected end of hex escape"
  | .tooDeep => "recursion limit exceeded"
  | .wrongType found expected => "invalid type: " ++ found.text ++ ", expected " ++ expected
  | .notAByte n => "invalid value: " ++ (Found.number n).text ++ ", expected u8"
  | .missingField name => "missing field " ++ ticked name
  | .duplicateField name => "duplicate field " ++ ticked name
  | .unknownField name known => "unknown field " ++ ticked name ++ ", expected " ++ oneOf known
  | .unknownChoice name known =>
    "unknown variant " ++ ticked name ++ ", expected " ++ oneOf known
  | .tooShort length record fields =>
    "invalid length " ++ toString length ++ ", expected struct " ++ record ++ " with " ++
      toString fields ++ " elements"
  | .noAlternative name => "data did not match any variant of untagged enum " ++ name

def Fault.message (f : Fault) : String :=
  match f.place? with
  | none => f.cause.message
  | some p => f.cause.message ++ " at line " ++ toString p.line ++ " column " ++ toString p.column

def Stop.toFault : Stop → Fault
  | .fault cause place => ⟨cause, some place⟩
  | .misfit cause _ => ⟨cause, none⟩

end UsbTopology.Json
