import UsbTopology.Json.Numeral
import UsbTopology.Json.Quotation
import UsbTopology.Proofs.Json.Container
import UsbTopology.Text.Hex

set_option autoImplicit false

/-!
# Well-formed JSON

A JSON value as it is written, with its blanks, its escapes and the digits of its numbers. Every
value of this type is well formed, and `Written.chars` is its text. `Written.value?` is the value
that it stands for, unless a number is past the largest double, and `Written.Within` bounds the
nesting of its brackets.
-/
namespace UsbTopology.Json

structure Gap where
  chars : List Char
  blank : ∀ ch ∈ chars, Cursor.isBlank ch = true

def Gap.none : Gap := ⟨[], List.forall_mem_nil _⟩

def Gap.space : Gap := ⟨[' '], List.forall_mem_singleton.2 rfl⟩

def letterEscapes : List (Char × Char) :=
  [('"', '"'), ('\\', '\\'), ('/', '/'), ('b', '\x08'), ('f', '\x0c'), ('n', '\n'), ('r', '\r'),
    ('t', '\t')]

/-- Four hexadecimal digits and their number. -/
structure Unit16 where
  first : Char
  second : Char
  third : Char
  fourth : Char
  number : Nat
  value : hexUnit? first second third fourth = some number

def Unit16.chars (u : Unit16) : List Char := ['\\', 'u', u.first, u.second, u.third, u.fourth]

/-- One character of a text as it is written. -/
inductive Glyph where
  | plain (c : Char) (quote : c ≠ '"') (backslash : c ≠ '\\') (control : ¬ c.toNat < 0x20)
  | letter (e : Char) (c : Char) (escape : (e, c) ∈ letterEscapes)
  | unit (u : Unit16) (leading : isLeadingSurrogate u.number = false)
    (trailing : isTrailingSurrogate u.number = false)
  | pair (u v : Unit16) (leading : isLeadingSurrogate u.number = true)
    (trailing : isTrailingSurrogate v.number = true)

namespace Glyph

def chars : Glyph → List Char
  | .plain c _ _ _ => [c]
  | .letter e _ _ => ['\\', e]
  | .unit u _ _ => u.chars
  | .pair u v _ _ => u.chars ++ v.chars

def char : Glyph → Char
  | .plain c _ _ _ => c
  | .letter _ c _ => c
  | .unit u _ _ => Char.ofNat u.number
  | .pair u v _ _ => pairChar u.number v.number

end Glyph

/-- What stands between the quotes. -/
def rawChars (glyphs : List Glyph) : List Char := glyphs.flatMap Glyph.chars

def quotedChars (glyphs : List Glyph) : List Char := '"' :: (rawChars glyphs ++ ['"'])

def decoded (glyphs : List Glyph) : String := String.ofList (glyphs.map Glyph.char)

theorem hexUnit?_hexFixed : ∀ n < 32, hexUnit? (Text.hexDigit (n / 16 / 16 / 16 % 16))
    (Text.hexDigit (n / 16 / 16 % 16)) (Text.hexDigit (n / 16 % 16)) (Text.hexDigit (n % 16)) =
      some n := by
  decide

def Unit16.ofControl (n : Nat) (h : n < 0x20) : Unit16 where
  first := Text.hexDigit (n / 16 / 16 / 16 % 16)
  second := Text.hexDigit (n / 16 / 16 % 16)
  third := Text.hexDigit (n / 16 % 16)
  fourth := Text.hexDigit (n % 16)
  number := n
  value := hexUnit?_hexFixed n h

theorem no_surrogate_of_control {n : Nat} (h : n < 0x20) :
    isLeadingSurrogate n = false ∧ isTrailingSurrogate n = false := by
  have hleading : ¬ 0xd800 ≤ n := by omega
  have htrailing : ¬ 0xdc00 ≤ n := by omega
  simp [isLeadingSurrogate, isTrailingSurrogate, hleading, htrailing]

def Glyph.ofChar (c : Char) : Glyph :=
  if hmark : c = '"' ∨ c = '\\' then
    .letter c c (by rcases hmark with rfl | rfl <;> simp [letterEscapes])
  else if hcontrol : c.toNat < 0x20 then
    .unit (.ofControl c.toNat hcontrol) (no_surrogate_of_control hcontrol).1
      (no_surrogate_of_control hcontrol).2
  else
    .plain c (fun h => hmark (.inl h)) (fun h => hmark (.inr h)) hcontrol

/-- A writing of a text. -/
def glyphsOf (s : String) : List Glyph := s.toList.map Glyph.ofChar

structure Digits where
  chars : List Char
  digits : ∀ ch ∈ chars, isDigit ch = true
  nonempty : chars ≠ []

structure Exponent where
  letter : Char
  sign : List Char
  magnitude : Digits
  letter_form : letter = 'e' ∨ letter = 'E'
  sign_form : sign = [] ∨ sign = ['+'] ∨ sign = ['-']

def Exponent.chars (e : Exponent) : List Char := e.letter :: (e.sign ++ e.magnitude.chars)

/-- A number as it is written; a zero before other digits is not allowed. -/
structure Figure where
  minus : Bool
  whole : Digits
  fraction? : Option Digits
  exponent? : Option Exponent
  leading : whole.chars = ['0'] ∨ whole.chars.head? ≠ some '0'

namespace Figure

def signChars (f : Figure) : List Char := if f.minus then ['-'] else []

def fractionChars (f : Figure) : List Char := f.fraction?.elim [] fun ds => '.' :: ds.chars

def exponentChars (f : Figure) : List Char := f.exponent?.elim [] Exponent.chars

def chars (f : Figure) : List Char :=
  f.signChars ++ (f.whole.chars ++ (f.fractionChars ++ f.exponentChars))

def numeral (f : Figure) : Numeral where
  minus := f.minus
  whole := f.whole.chars
  fraction? := f.fraction?.map Digits.chars
  exponent? := f.exponent?.map fun e => (e.sign == ['-'], e.magnitude.chars)

def value? (f : Figure) : Option Number := f.numeral.value?

end Figure

mutual

inductive Written where
  | null
  | bool (b : Bool)
  | number (figure : Figure)
  | text (glyphs : List Glyph)
  | array (gap : Gap) (elements : List Element)
  | object (gap : Gap) (members : List Member)

inductive Element where
  | mk (before : Gap) (value : Written) (after : Gap)

/-- A name with the gaps before and behind it, and a value with the gaps before and behind it. -/
inductive Member where
  | mk (before : Gap) (name : List Glyph) (colon space : Gap) (value : Written) (after : Gap)

end

namespace Element

def value : Element → Written
  | .mk _ value _ => value

end Element

namespace Member

def glyphs : Member → List Glyph
  | .mk _ name _ _ _ _ => name

def value : Member → Written
  | .mk _ _ _ _ value _ => value

def name (m : Member) : String := decoded m.glyphs

def rawName (m : Member) : List Char := rawChars m.glyphs

end Member

namespace Written

mutual

def chars : Written → List Char
  | .null => ['n', 'u', 'l', 'l']
  | .bool true => ['t', 'r', 'u', 'e']
  | .bool false => ['f', 'a', 'l', 's', 'e']
  | .number f => f.chars
  | .text glyphs => quotedChars glyphs
  | .array gap es => '[' :: (gap.chars ++ elementChars true es)
  | .object gap ms => '\x7b' :: (gap.chars ++ memberChars true ms)

/-- The elements up to the closing bracket, with a comma before each but the first. -/
def elementChars : Bool → List Element → List Char
  | _, [] => [']']
  | first, .mk before v after :: es =>
    comma first ++
      (before.chars ++ (chars v ++ (after.chars ++ elementChars false es)))

def memberChars : Bool → List Member → List Char
  | _, [] => ['\x7d']
  | first, .mk before name colon space v after :: ms =>
    comma first ++ (before.chars ++ (quotedChars name ++ (colon.chars ++
      ':' :: (space.chars ++ (chars v ++ (after.chars ++ memberChars false ms))))))

end

mutual

def value? : Written → Option Json
  | .null => some .null
  | .bool b => some (.bool b)
  | .number f => f.value?.map .number
  | .text glyphs => some (.string (decoded glyphs))
  | .array _ es => (elementValues? es).map .array
  | .object _ ms => (memberValues? ms).map .object

def elementValues? : List Element → Option (List Json)
  | [] => some []
  | .mk _ v _ :: es => do return (← value? v) :: (← elementValues? es)

def memberValues? : List Member → Option (List (String × Json))
  | [] => some []
  | .mk _ name _ _ v _ :: ms => do return (decoded name, ← value? v) :: (← memberValues? ms)

end

/-- Brackets are nested no deeper than a bound. -/
def Within : Nat → Written → Prop
  | _, .null | _, .bool _ | _, .number _ | _, .text _ => True
  | depth + 1, .array _ es => ∀ e ∈ es, Within depth e.value
  | depth + 1, .object _ ms => ∀ m ∈ ms, Within depth m.value
  | 0, .array _ _ | 0, .object _ _ => False

end Written

/-- A value with the blanks around it. -/
structure Document where
  before : Gap
  root : Written
  after : Gap

def Document.text (d : Document) : String :=
  String.ofList (d.before.chars ++ (d.root.chars ++ d.after.chars))

end UsbTopology.Json
