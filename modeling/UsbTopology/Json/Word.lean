import UsbTopology.Json.Fault

set_option autoImplicit false

/-!
# Words

`null`, `true` and `false` are recognised by their first letter; the letters after it are checked
one by one.
-/
namespace UsbTopology.Json

def readLetters : List Char → Cursor → Except Stop Cursor
  | [], c => .ok c
  | expected :: letters, c =>
    match c.rest with
    | [] => c.fail .endInValue
    | ch :: _ => if ch = expected then readLetters letters c.next else c.refuse .expectedWord

def readNull (c : Cursor) : Except Stop Cursor := readLetters ['u', 'l', 'l'] c.next

def readTrue (c : Cursor) : Except Stop Cursor := readLetters ['r', 'u', 'e'] c.next

def readFalse (c : Cursor) : Except Stop Cursor := readLetters ['a', 'l', 's', 'e'] c.next

end UsbTopology.Json
