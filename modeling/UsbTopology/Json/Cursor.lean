import UsbTopology.Json

set_option autoImplicit false

/-!
# Reading positions

A cursor is a place in a text together with what is left of the text from there. A place is a line
and the number of bytes read on that line.
-/
namespace UsbTopology.Json

structure Position where
  line : Nat
  column : Nat
deriving DecidableEq, Repr

namespace Position

def after (p : Position) (c : Char) : Position :=
  if c = '\n' then ⟨p.line + 1, 0⟩ else ⟨p.line, p.column + c.utf8Size⟩

/-- The place behind a number of bytes of a text, which may be inside a character. -/
def afterBytes (p : Position) : Nat → List Char → Position
  | _, [] => p
  | n, c :: rest =>
    if n = 0 then p
    else if c.utf8Size ≤ n then afterBytes (p.after c) (n - c.utf8Size) rest
    else ⟨p.line, p.column + n⟩

end Position

structure Cursor where
  place : Position
  rest : List Char
deriving DecidableEq, Repr

namespace Cursor

def start (text : List Char) : Cursor := ⟨⟨1, 0⟩, text⟩

def next (c : Cursor) : Cursor :=
  match c.rest with
  | [] => c
  | ch :: rest => ⟨c.place.after ch, rest⟩

/-- The place behind the next byte, where a fault of a byte not yet taken is reported. -/
def peeked (c : Cursor) : Position := c.place.afterBytes 1 c.rest

def isBlank (ch : Char) : Bool := ch = ' ' || ch = '\n' || ch = '\t' || ch = '\r'

def skipBlanksFrom (p : Position) : List Char → Cursor
  | [] => ⟨p, []⟩
  | ch :: rest => if isBlank ch then skipBlanksFrom (p.after ch) rest else ⟨p, ch :: rest⟩

def skipBlanks (c : Cursor) : Cursor := skipBlanksFrom c.place c.rest

theorem rest_skipBlanks (c : Cursor) : c.skipBlanks.rest = c.rest.dropWhile isBlank := by
  obtain ⟨p, rest⟩ := c
  show (skipBlanksFrom p rest).rest = rest.dropWhile isBlank
  induction rest generalizing p with
  | nil => rfl
  | cons ch rest ih =>
    unfold skipBlanksFrom
    split
    · next h => rw [ih, List.dropWhile_cons_of_pos h]
    · next h => rw [List.dropWhile_cons_of_neg h]

end Cursor

end UsbTopology.Json
