set_option autoImplicit false

/-!
# Lines

A line ends with a line feed, and a carriage return before the line feed belongs to the line end.
A text that ends with a line feed has no further empty line.
-/
namespace UsbTopology.Text

/-- The line without the carriage return that its line end took along. -/
def dropReturn (line : List Char) : List Char :=
  if line.getLast? = some '\r' then line.dropLast else line

/-- The lines of the characters after an unfinished line, which is given in reverse. -/
def linesAfter : List Char → List Char → List (List Char)
  | [], [] => []
  | unfinished, [] => [unfinished.reverse]
  | unfinished, c :: rest =>
    if c = '\n' then dropReturn unfinished.reverse :: linesAfter [] rest
    else linesAfter (c :: unfinished) rest

def lines (s : String) : List String := (linesAfter [] s.toList).map String.ofList

end UsbTopology.Text
