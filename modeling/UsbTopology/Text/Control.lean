import UsbTopology.Text.Utf8

set_option autoImplicit false

/-!
# Control sequences

A control sequence starts at an escape character and tells a terminal what to do. `shown` is what is
left of a text once its control sequences and its other control characters are gone. A line break or
a tab inside a sequence is shown, and so is what stands between it and the next control character,
from which the sequence goes on.
-/
namespace UsbTopology.Text

inductive Control where
  | outside
  | escape
  | intermediate
  | command
  | device
  | deviceParameter
  | deviceIntermediate
  /-- A text for the device, up to a string terminator. -/
  | string
  /-- A text for the system around the terminal, which the bell ends too. -/
  | title
deriving DecidableEq, Repr

def isLayout (c : Char) : Bool := c = '\t' || c = '\n' || c = '\x0c' || c = '\r'

def isBetween (low high c : Char) : Bool := low ≤ c && c ≤ high

/-- The one-byte string terminator, of which a character of more bytes may hold a copy. -/
def endsString (c : Char) : Bool := decide (0x9c ∈ encode c.toString)

namespace Control

def shows : Control → Char → Bool
  | .outside, c => isLayout c || ' ' ≤ c && c ≠ '\x7f'
  | .escape, c | .intermediate, c | .command, c => isLayout c
  | _, _ => false

def after (s : Control) (c : Char) : Control :=
  if c = '\x1b' then .escape
  else if c = '\x18' || c = '\x1a' then .outside
  else
    match s with
    | .outside => .outside
    | .escape =>
      if isBetween ' ' '/' c then .intermediate
      else if c = '[' then .command
      else if c = ']' then .title
      else if c = 'P' then .device
      else if c = 'X' || c = '^' || c = '_' then .string
      else if isBetween '0' '~' c then .outside
      else .escape
    | .intermediate => if isBetween '0' '~' c then .outside else .intermediate
    | .command => if isBetween '@' '~' c then .outside else .command
    | .device =>
      if isBetween ' ' '/' c then .deviceIntermediate
      else if isBetween '0' '?' c then .deviceParameter
      else if isBetween '@' '~' c then .string
      else .device
    | .deviceParameter =>
      if isBetween ' ' '/' c then .deviceIntermediate
      else if isBetween '<' '~' c then .string
      else .deviceParameter
    | .deviceIntermediate => if isBetween '0' '~' c then .string else .deviceIntermediate
    | .string => if endsString c then .outside else .string
    | .title => if c = '\x07' then .outside else .title

end Control

/-- What is shown of a text, given where it starts and whether the sequence there is interrupted. -/
def shownFrom : Control → Bool → List Char → List Char
  | _, _, [] => []
  | s, interrupted, c :: rest =>
    if (if interrupted then .outside else s).shows c then
      c :: shownFrom (if c.toNat < 0x80 then s else .outside) true rest
    else shownFrom (s.after c) false rest

def shown (s : String) : String := String.ofList (shownFrom .outside false s.toList)

end UsbTopology.Text
