import UsbTopology.Json
import UsbTopology.Text.Hex

set_option autoImplicit false

/-!
# Written JSON

`Json.compact` writes a value without blanks. `Json.pretty` writes each element and member on a line
of its own, two spaces deeper than its container, and an empty container without a break. A text
keeps every character but the quote, the backslash and the control characters below the space.
-/
namespace UsbTopology.Json

def escapeChar (c : Char) : List Char :=
  if c = '"' then ['\\', '"']
  else if c = '\\' then ['\\', '\\']
  else if c = '\x08' then ['\\', 'b']
  else if c = '\x0c' then ['\\', 'f']
  else if c = '\n' then ['\\', 'n']
  else if c = '\r' then ['\\', 'r']
  else if c = '\t' then ['\\', 't']
  else if c.toNat < 0x20 then '\\' :: 'u' :: Text.hexFixed 4 c.toNat
  else [c]

def writeText (s : String) : List Char := '"' :: (s.toList.flatMap escapeChar ++ ['"'])

mutual

def write : Json → List Char
  | .null => ['n', 'u', 'l', 'l']
  | .bool true => ['t', 'r', 'u', 'e']
  | .bool false => ['f', 'a', 'l', 's', 'e']
  | .number n => n.text.toList
  | .string s => writeText s
  | .array [] => ['[', ']']
  | .array (e :: rest) => '[' :: (write e ++ writeElements rest)
  | .object [] => ['\x7b', '\x7d']
  | .object ((name, v) :: rest) =>
    '\x7b' :: (writeText name ++ ':' :: (write v ++ writeMembers rest))

def writeElements : List Json → List Char
  | [] => [']']
  | e :: rest => ',' :: (write e ++ writeElements rest)

def writeMembers : List (String × Json) → List Char
  | [] => ['\x7d']
  | (name, v) :: rest => ',' :: (writeText name ++ ':' :: (write v ++ writeMembers rest))

end

def breakLine (level : Nat) : List Char := '\n' :: List.replicate (2 * level) ' '

mutual

/-- A value whose container stands at the level before. -/
def writePretty (level : Nat) : Json → List Char
  | .null => ['n', 'u', 'l', 'l']
  | .bool true => ['t', 'r', 'u', 'e']
  | .bool false => ['f', 'a', 'l', 's', 'e']
  | .number n => n.text.toList
  | .string s => writeText s
  | .array [] => ['[', ']']
  | .array (e :: rest) =>
    '[' :: (breakLine (level + 1) ++ writePretty (level + 1) e ++ writePrettyElements level rest)
  | .object [] => ['\x7b', '\x7d']
  | .object ((name, v) :: rest) =>
    '\x7b' :: (breakLine (level + 1) ++ writeText name ++ ':' :: ' ' ::
      (writePretty (level + 1) v ++ writePrettyMembers level rest))

def writePrettyElements (level : Nat) : List Json → List Char
  | [] => breakLine level ++ [']']
  | e :: rest =>
    ',' :: (breakLine (level + 1) ++ writePretty (level + 1) e ++ writePrettyElements level rest)

def writePrettyMembers (level : Nat) : List (String × Json) → List Char
  | [] => breakLine level ++ ['\x7d']
  | (name, v) :: rest =>
    ',' :: (breakLine (level + 1) ++ writeText name ++ ':' :: ' ' ::
      (writePretty (level + 1) v ++ writePrettyMembers level rest))

end

def compact (j : Json) : String := String.ofList j.write

def pretty (j : Json) : String := String.ofList (j.writePretty 0)

end UsbTopology.Json
