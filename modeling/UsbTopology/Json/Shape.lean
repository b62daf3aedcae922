import UsbTopology.Json.Skip
import UsbTopology.Json.Value
import UsbTopology.Location.Name

set_option autoImplicit false

/-!
# Shapes

A shape says which values a kind of record is written as. `Shape.admit?` decides it on a whole value
and gives the value in its plain form: of an object the known members in the order of the fields, of
an array in place of an object the fields by name, of a choice its name. `Shape.read` reads a text
straight for a shape, and so knows at which place a value stops to suit it.
-/
namespace UsbTopology.Json

structure Layout where
  positional : Bool
  /-- Members with other names than the fields. -/
  extensible : Bool
deriving DecidableEq, Repr

mutual

inductive Shape where
  | byte
  | text (expected : String)
  /-- One of some names, or an object of that one name with the value null. -/
  | choice (names : List String)
  | optional (value : Shape)
  | list (element : Shape)
  | table (value : Shape)
  /-- An object with decimal bytes for names. -/
  | byteTable (value : Shape)
  | record (name : String) (layout : Layout) (fields : List Field)
  /-- The first of some shapes that admits the value. -/
  | either (name : String) (alternatives : List Shape)

inductive Field where
  | mk (name : String) (required : Bool) (shape : Shape)

end

namespace Field

def name : Field → String
  | .mk name _ _ => name

def required : Field → Bool
  | .mk _ required _ => required

end Field

def byteOfName? (s : String) : Option UInt8 :=
  ((List.range 256).find? fun n => toString n = s).map UInt8.ofNat

def occurrences (name : String) (members : List (String × Json)) : List Json :=
  (members.filter fun m => m.1 = name).map Prod.snd

mutual

def Shape.admit? : Shape → Json → Option Json
  | .byte, j => j.byte?.map ofByte
  | .text _, j => j.text?.map .string
  | .choice names, .string s => if s ∈ names then some (.string s) else none
  | .choice names, .object [(s, .null)] => if s ∈ names then some (.string s) else none
  | .choice _, _ => none
  | .optional _, .null => some .null
  | .optional shape, j => shape.admit? j
  | .list shape, .array elements => (elements.mapM fun j => shape.admit? j).map .array
  | .list _, _ => none
  | .table shape, .object members =>
    (members.mapM fun m => (shape.admit? m.2).map (Prod.mk m.1)).map .object
  | .table _, _ => none
  | .byteTable shape, .object members =>
    (members.mapM fun m =>
      if (byteOfName? m.1).isSome then (shape.admit? m.2).map (Prod.mk m.1) else none).map .object
  | .byteTable _, _ => none
  | .record _ layout fields, .object members =>
    if layout.extensible || members.all fun m => fields.any fun f => f.name = m.1 then
      (Field.admitMembers? fields members).map .object
    else none
  | .record _ layout fields, .array elements =>
    if layout.positional then (Field.admitElements? fields elements).map .object else none
  | .record _ _ _, _ => none
  | .either _ alternatives, j => Shape.admitFirst? alternatives j

def Shape.admitFirst? : List Shape → Json → Option Json
  | [], _ => none
  | shape :: rest, j => (shape.admit? j).or (Shape.admitFirst? rest j)

def Field.admitMembers? : List Field → List (String × Json) → Option (List (String × Json))
  | [], _ => some []
  | .mk name required shape :: fields, members =>
    match occurrences name members with
    | [] => if required then none else Field.admitMembers? fields members
    | [j] => do
      let j ← shape.admit? j
      return (name, j) :: (← Field.admitMembers? fields members)
    | _ => none

def Field.admitElements? : List Field → List Json → Option (List (String × Json))
  | [], [] => some []
  | [], _ :: _ => none
  | .mk _ required _ :: fields, [] => if required then none else Field.admitElements? fields []
  | .mk name _ shape :: fields, j :: elements => do
    let j ← shape.admit? j
    return (name, j) :: (← Field.admitElements? fields elements)

end

def readFound (c : Cursor) : Except Stop (Found × Cursor) :=
  match c.rest with
  | [] => c.fail .endInValue
  | ch :: _ =>
    if ch = 'n' then do .ok (.null, ← readNull c)
    else if ch = 't' then do .ok (.bool true, ← readTrue c)
    else if ch = 'f' then do .ok (.bool false, ← readFalse c)
    else if ch = '-' || isDigit ch then do
      let (n, c) ← readNumber c
      .ok (.number n, c)
    else if ch = '"' then do
      let (s, c) ← readName c
      .ok (.string s, c)
    else if ch = '[' then .ok (.array, c)
    else if ch = '\x7b' then .ok (.object, c)
    else c.refuse .expectedValue

def mistype {α : Type} (expected : String) (c : Cursor) : Except Stop α := do
  let (found, c) ← readFound c
  c.fail (.wrongType found expected)

def readByteNumber (c : Cursor) : Except Stop (UInt8 × Cursor) := do
  let (n, c) ← readNumber c
  match n with
  | .real .. => c.fail (.wrongType (.number n) "u8")
  | _ =>
    match (Json.number n).byte? with
    | some b => .ok (b, c)
    | none => c.fail (.notAByte n)

def readByte (c : Cursor) : Except Stop (UInt8 × Cursor) :=
  let c := c.skipBlanks
  match c.rest with
  | ch :: _ => if ch = '-' || isDigit ch then readByteNumber c else mistype "u8" c
  | [] => mistype "u8" c

def readText (expected : String) (c : Cursor) : Except Stop (String × Cursor) :=
  let c := c.skipBlanks
  match c.rest with
  | '"' :: _ => readName c
  | _ => mistype expected c

/-- A name in quotes that has to be a byte; no escape may stand in it. -/
def readByteName (c : Cursor) : Except Stop (String × Cursor) :=
  let c := c.next
  match c.rest with
  | ch :: _ =>
    if ch = '-' || isDigit ch then do
      let (b, c) ← readByteNumber c
      match c.rest with
      | '"' :: _ => .ok (byteText b, c.next)
      | _ => c.refuse .expectedQuote
    else c.fail .keyNotNumber
  | [] => c.fail .keyNotNumber

def readChoiceName (names : List String) (c : Cursor) : Except Stop (String × Cursor) := do
  let (s, c) ← readName c
  if s ∈ names then .ok (s, c) else c.fail (.unknownChoice s names)

def readUnit (c : Cursor) : Except Stop Cursor :=
  let c := c.skipBlanks
  match c.rest with
  | 'n' :: _ => readNull c
  | _ => mistype "unit" c

def seekChoiceName (c : Cursor) : Except Stop Cursor :=
  let c := c.skipBlanks
  match c.rest with
  | [] => c.fail .endInObject
  | ch :: _ =>
    if ch = '"' then .ok c
    else if ch = '\x7d' then c.refuse .expectedValue
    else c.refuse .keyNotText

def readChoice (depth : Nat) (names : List String) (c : Cursor) : Except Stop (String × Cursor) :=
  let c := c.skipBlanks
  match c.rest with
  | [] => c.fail .endInValue
  | ch :: _ =>
    if ch = '\x7b' then
      match depth with
      | 0 => c.refuse .tooDeep
      | _ + 1 => do
        let (s, c) ← readChoiceName names (← seekChoiceName c.next)
        let c ← readUnit (← readColon c)
        let c := c.skipBlanks
        match c.rest with
        | [] => c.fail .endInObject
        | ch :: _ => if ch = '\x7d' then .ok (s, c.next) else c.fail .expectedValue
    else if ch = '"' then readChoiceName names c
    else c.refuse .expectedValue

structure FieldReader where
  name : String
  required : Bool
  read : Cursor → Except Stop (Json × Cursor)

/-- The members of an object up to its closing bracket: those of known names, each at most once, and
without the others unless the layout forbids them. -/
def readFieldMembers (layout : Layout) (fields : List FieldReader) :
    List Char → Bool → List String → Cursor → Except Stop (List (String × Json) × Cursor)
  | [], _, _, c => c.fail .endInObject
  | _ :: rounds, first, seen, c => do
    match ← seekMember first c with
    | (false, c) => .ok ([], c)
    | (true, c) =>
      let (name, c) ← readName c
      match fields.find? fun f => f.name = name with
      | some f =>
        if name ∈ seen then .error (.misfit (.duplicateField name) c)
        else
          let (j, c) ← f.read (← readColon c)
          let (rest, c) ← readFieldMembers layout fields rounds false (name :: seen) c
          .ok ((name, j) :: rest, c)
      | none =>
        if layout.extensible then
          let c ← skipValue (← readColon c)
          readFieldMembers layout fields rounds false seen c
        else .error (.misfit (.unknownField name (fields.map FieldReader.name)) c)

def arrange (fields : List FieldReader) (members : List (String × Json)) (c : Cursor) :
    Except Stop (List (String × Json) × Cursor) :=
  match fields.find? fun f => f.required && (members.lookup f.name).isNone with
  | some f => .error (.misfit (.missingField f.name) c)
  | none => .ok (fields.filterMap fun f => (members.lookup f.name).map (Prod.mk f.name), c)

def readFieldElements (record : String) (count : Nat) :
    List FieldReader → Nat → Cursor → Except Stop (List (String × Json) × Cursor)
  | [], _, c => .ok ([], c)
  | f :: fields, index, c => do
    match ← seekElement (index == 0) c with
    | (false, c) =>
      if f.required then .error (.misfit (.tooShort index record count) c)
      else readFieldElements record count fields (index + 1) c
    | (true, c) =>
      let (j, c) ← f.read c
      let (rest, c) ← readFieldElements record count fields (index + 1) c
      .ok ((f.name, j) :: rest, c)

def readRecord (name : String) (layout : Layout) (fields : List FieldReader) (c : Cursor) :
    Except Stop (Json × Cursor) := do
  let (members, c) ← match c.rest with
    | '[' :: _ => settle (readFieldElements name fields.length fields 0 c.next) closeArray
    | _ =>
      settle (do
        let (members, c) ← readFieldMembers layout fields c.rest true [] c.next
        arrange fields members c) closeObject
  .ok (.object members, c)

def opens (ch : Char) (c : Cursor) : Bool := c.rest.head? == some ch

mutual

/-- A value of the shape in its plain form, with the number of brackets that may still be opened. -/
def Shape.read : Shape → Nat → Cursor → Except Stop (Json × Cursor)
  | .byte, _, c => do
    let (b, c) ← readByte c
    .ok (ofByte b, c)
  | .text expected, _, c => do
    let (s, c) ← readText expected c
    .ok (.string s, c)
  | .choice names, depth, c => do
    let (s, c) ← readChoice depth names c
    .ok (.string s, c)
  | .optional shape, depth, c =>
    let c := c.skipBlanks
    match c.rest with
    | 'n' :: _ => do .ok (.null, ← readNull c)
    | _ => shape.read depth c
  | .list shape, depth, c => do
    let c := c.skipBlanks
    if opens '[' c then
      match depth with
      | 0 => c.refuse .tooDeep
      | depth + 1 =>
        let (elements, c) ← readArray (fun c => shape.read depth c) c
        .ok (.array elements, c)
    else mistype "a sequence" c
  | .table shape, depth, c => do
    let c := c.skipBlanks
    if opens '\x7b' c then
      match depth with
      | 0 => c.refuse .tooDeep
      | depth + 1 =>
        let (members, c) ← readObject readName (fun c => shape.read depth c) c
        .ok (.object members, c)
    else mistype "a map" c
  | .byteTable shape, depth, c => do
    let c := c.skipBlanks
    if opens '\x7b' c then
      match depth with
      | 0 => c.refuse .tooDeep
      | depth + 1 =>
        let (members, c) ← readObject readByteName (fun c => shape.read depth c) c
        .ok (.object members, c)
    else mistype "a map" c
  | .record name layout fields, depth, c =>
    let c := c.skipBlanks
    if opens '\x7b' c || layout.positional && opens '[' c then
      match depth with
      | 0 => c.refuse .tooDeep
      | depth + 1 => readRecord name layout (Field.readers fields depth) c
    else mistype ("struct " ++ name) c
  | .either name alternatives, depth, c => do
    let (j, c) ← readValue depth c
    match Shape.admitFirst? alternatives j with
    | some j => .ok (j, c)
    | none => .error (.misfit (.noAlternative name) c)

def Field.readers : List Field → Nat → List FieldReader
  | [], _ => []
  | .mk name required shape :: fields, depth =>
    ⟨name, required, fun c => shape.read depth c⟩ :: Field.readers fields depth

end

def Shape.parse (shape : Shape) (text : String) : Except Fault Json :=
  match shape.read maxDepth (.start text.toList) with
  | .error stop => .error stop.toFault
  | .ok (j, c) =>
    let c := c.skipBlanks
    if c.rest.isEmpty then .ok j else .error ⟨.trailingCharacters, some c.peeked⟩

end UsbTopology.Json
