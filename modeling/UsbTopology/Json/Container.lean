import UsbTopology.Json.Quotation
import UsbTopology.Json.Word

set_option autoImplicit false

/-!
# Arrays and objects

What is between two elements, between two members and between a name and its value. A container is
read in two parts: its contents, and its closing bracket, which is looked for even when the contents
turned out to be a misfit, because the misfit is reported behind it.
-/
namespace UsbTopology.Json

def maxDepth : Nat := 127

/-- The cursor at the next element, with `true`, or at the closing bracket, with `false`. -/
def seekElement (first : Bool) (c : Cursor) : Except Stop (Bool × Cursor) :=
  let c := c.skipBlanks
  match c.rest with
  | [] => c.fail .endInList
  | ch :: _ =>
    if ch = ']' then .ok (false, c)
    else if first then .ok (true, c)
    else if ch = ',' then
      let c := c.next.skipBlanks
      match c.rest with
      | [] => c.fail .endInValue
      | ch :: _ => if ch = ']' then c.refuse .trailingComma else .ok (true, c)
    else c.refuse .expectedListCommaOrEnd

def seekMember (first : Bool) (c : Cursor) : Except Stop (Bool × Cursor) :=
  let c := c.skipBlanks
  match c.rest with
  | [] => c.fail .endInObject
  | ch :: _ =>
    if ch = '\x7d' then .ok (false, c)
    else if first then
      if ch = '"' then .ok (true, c) else c.refuse .keyNotText
    else if ch = ',' then
      let c := c.next.skipBlanks
      match c.rest with
      | [] => c.fail .endInValue
      | ch :: _ =>
        if ch = '"' then .ok (true, c)
        else if ch = '\x7d' then c.refuse .trailingComma
        else c.refuse .keyNotText
    else c.refuse .expectedObjectCommaOrEnd

def readColon (c : Cursor) : Except Stop Cursor :=
  let c := c.skipBlanks
  match c.rest with
  | [] => c.fail .endInObject
  | ch :: _ => if ch = ':' then .ok c.next else c.refuse .expectedColon

/-- The closing bracket of an array: a fault, if it is missing, and the cursor behind what was taken
in search of it. -/
def closeArray (c : Cursor) : Except Stop Unit × Cursor :=
  let c := c.skipBlanks
  match c.rest with
  | [] => (c.fail .endInList, c)
  | ch :: _ =>
    if ch = ']' then (.ok (), c.next)
    else if ch = ',' then
      let c := c.next.skipBlanks
      match c.rest with
      | ']' :: _ => (c.refuse .trailingComma, c)
      | _ => (c.refuse .trailingCharacters, c)
    else (c.refuse .trailingCharacters, c)

def closeObject (c : Cursor) : Except Stop Unit × Cursor :=
  let c := c.skipBlanks
  match c.rest with
  | [] => (c.fail .endInObject, c)
  | ch :: _ =>
    if ch = '\x7d' then (.ok (), c.next)
    else if ch = ',' then (c.refuse .trailingComma, c)
    else (c.refuse .trailingCharacters, c)

/-- Ends a container: contents that could be read need their closing bracket, and a misfit is placed
behind the search for it. -/
def settle {α : Type} (contents : Except Stop (α × Cursor))
    (close : Cursor → Except Stop Unit × Cursor) : Except Stop (α × Cursor) :=
  match contents with
  | .ok (a, c) =>
    match close c with
    | (.ok _, c) => .ok (a, c)
    | (.error stop, _) => .error stop
  | .error (.misfit cause c) => .error (.fault cause (close c).2.place)
  | .error stop => .error stop

/-- The elements up to the closing bracket. Every element takes a character, so the characters of
the container bound the rounds. -/
def readElements {α : Type} (element : Cursor → Except Stop (α × Cursor)) :
    List Char → Bool → Cursor → Except Stop (List α × Cursor)
  | [], _, c => c.fail .endInList
  | _ :: rounds, first, c => do
    match ← seekElement first c with
    | (false, c) => .ok ([], c)
    | (true, c) =>
      let (a, c) ← element c
      let (rest, c) ← readElements element rounds false c
      .ok (a :: rest, c)

def readMembers {κ α : Type} (name : Cursor → Except Stop (κ × Cursor))
    (value : Cursor → Except Stop (α × Cursor)) :
    List Char → Bool → Cursor → Except Stop (List (κ × α) × Cursor)
  | [], _, c => c.fail .endInObject
  | _ :: rounds, first, c => do
    match ← seekMember first c with
    | (false, c) => .ok ([], c)
    | (true, c) =>
      let (k, c) ← name c
      let c ← readColon c
      let (a, c) ← value c
      let (rest, c) ← readMembers name value rounds false c
      .ok ((k, a) :: rest, c)

def readArray {α : Type} (element : Cursor → Except Stop (α × Cursor)) (c : Cursor) :
    Except Stop (List α × Cursor) :=
  settle (readElements element c.rest true c.next) closeArray

def readObject {κ α : Type} (name : Cursor → Except Stop (κ × Cursor))
    (value : Cursor → Except Stop (α × Cursor)) (c : Cursor) :
    Except Stop (List (κ × α) × Cursor) :=
  settle (readMembers name value c.rest true c.next) closeObject

def readName (c : Cursor) : Except Stop (String × Cursor) := readQuotation c.next

end UsbTopology.Json
