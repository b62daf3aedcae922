import UsbTopology.Json.Container
import UsbTopology.Json.Numeral

set_option autoImplicit false

/-!
# Whole values

`readValue` reads any value whole, brackets nested no deeper than a bound.
-/
namespace UsbTopology.Json

/-- A value, with the number of brackets that may still be opened. -/
def readValue (depth : Nat) (c : Cursor) : Except Stop (Json × Cursor) :=
  let c := c.skipBlanks
  match c.rest with
  | [] => c.fail .endInValue
  | ch :: _ =>
    if ch = 'n' then do .ok (.null, ← readNull c)
    else if ch = 't' then do .ok (.bool true, ← readTrue c)
    else if ch = 'f' then do .ok (.bool false, ← readFalse c)
    else if ch = '-' || isDigit ch then do
      let (n, c) ← readNumber c
      .ok (.number n, c)
    else if ch = '"' then do
      let (s, c) ← readName c
      .ok (.string s, c)
    else if ch = '[' then
      match depth with
      | 0 => c.refuse .tooDeep
      | depth + 1 => do
        let (elements, c) ← readArray (readValue depth) c
        .ok (.array elements, c)
    else if ch = '\x7b' then
      match depth with
      | 0 => c.refuse .tooDeep
      | depth + 1 => do
        let (members, c) ← readObject readName (readValue depth) c
        .ok (.object members, c)
    else c.refuse .expectedValue

end UsbTopology.Json
