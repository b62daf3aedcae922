import UsbTopology.Json.Fault

set_option autoImplicit false

/-!
# Numerals

A numeral is an optional minus sign, digits without a leading zero, an optional fraction and an
optional exponent. `readNumeral` checks this form and `Numeral.value?` says which number it stands
for.
-/
namespace UsbTopology.Json

def isDigit (c : Char) : Bool := '0' ≤ c && c ≤ '9'

def digitValue (c : Char) : Nat := c.toNat - 48

structure Numeral where
  minus : Bool
  whole : List Char
  fraction? : Option (List Char)
  /-- Is the exponent below zero, and its digits. -/
  exponent? : Option (Bool × List Char)
deriving DecidableEq, Repr

namespace Numeral

/-- Takes digits into a number as long as it stays within a bound; also gives their count. -/
def absorb (bound : Nat) : Nat → List Char → Nat × Nat
  | n, [] => (n, 0)
  | n, c :: rest =>
    let m := 10 * n + digitValue c
    if bound < m then (n, 0)
    else
      let r := absorb bound m rest
      (r.1, r.2 + 1)

def maxSignificand : Nat := 0xffffffffffffffff

def maxNegative : Nat := 0x8000000000000000

def maxExponent : Nat := 0x7fffffff

/-- The significand and its power of ten: the digits that a word holds. Whole digits past them count
as powers of ten, digits of the fraction past them do not count. -/
def significand (whole fraction : List Char) : Nat × Int :=
  let w := absorb maxSignificand 0 whole
  let f := absorb maxSignificand w.1 fraction
  (f.1, (whole.length : Int) - w.2 - f.2)

def exponentOverflow? (digits : List Char) : Option Nat :=
  let taken := (absorb maxExponent 0 digits).2
  if taken < digits.length then some (taken + 1) else none

def real? (n : Numeral) : Option Binary64 :=
  let s := significand n.whole (n.fraction?.getD [])
  match n.exponent? with
  | none => Binary64.ofDecimal? s.1 s.2
  | some (below, digits) =>
    let e := absorb maxExponent 0 digits
    if e.2 < digits.length then
      if s.1 ≠ 0 ∧ below = false then none else some .zero
    else Binary64.ofDecimal? s.1 (if below then s.2 - e.1 else s.2 + e.1)

/-- The number that the numeral stands for, unless it is past the largest double. -/
def value? (n : Numeral) : Option Number :=
  let w := absorb maxSignificand 0 n.whole
  if n.fraction?.isNone ∧ n.exponent?.isNone ∧ w.2 = n.whole.length ∧
      (n.minus = false ∨ 0 < w.1 ∧ w.1 ≤ maxNegative) then
    some (if n.minus then .negative w.1 else .natural w.1)
  else n.real?.map (.real n.minus)

end Numeral

def readDigitsFrom (p : Position) : List Char → List Char × Cursor
  | [] => ([], ⟨p, []⟩)
  | ch :: rest =>
    if isDigit ch then
      let r := readDigitsFrom (p.after ch) rest
      (ch :: r.1, r.2)
    else ([], ⟨p, ch :: rest⟩)

def readDigits (c : Cursor) : List Char × Cursor := readDigitsFrom c.place c.rest

/-- The digits before a fraction; a zero stands alone. -/
def readWhole (c : Cursor) : Except Stop (List Char × Cursor) :=
  match c.rest with
  | [] => c.fail .endInValue
  | ch :: rest =>
    if ch = '0' then
      match rest with
      | d :: _ => if isDigit d then c.next.refuse .invalidNumber else .ok (['0'], c.next)
      | [] => .ok (['0'], c.next)
    else if isDigit ch then .ok (readDigits c)
    else c.refuse .invalidNumber

def readFraction (c : Cursor) : Except Stop (Option (List Char) × Cursor) :=
  match c.rest with
  | ch :: _ =>
    if ch = '.' then
      let d := readDigits c.next
      if d.1.isEmpty then
        if d.2.rest.isEmpty then d.2.fail .endInValue else d.2.refuse .invalidNumber
      else .ok (some d.1, d.2)
    else .ok (none, c)
  | [] => .ok (none, c)

def readExponentSign (c : Cursor) : Bool × Cursor :=
  match c.rest with
  | ch :: _ => if ch = '+' then (false, c.next) else if ch = '-' then (true, c.next) else (false, c)
  | [] => (false, c)

/-- The exponent at its letter, which has at least one digit; also gives the cursor before its
digits. -/
def readExponent (c : Cursor) : Except Stop ((Option (Bool × List Char) × Cursor) × Cursor) :=
  match c.rest with
  | ch :: _ =>
    if ch = 'e' ∨ ch = 'E' then
      let s := readExponentSign c.next
      match s.2.rest with
      | [] => s.2.fail .endInValue
      | d :: _ =>
        if isDigit d then
          let digits := readDigits s.2
          .ok ((some (s.1, digits.1), s.2), digits.2)
        else s.2.refuse .invalidNumber
    else .ok ((none, c), c)
  | [] => .ok ((none, c), c)

/-- The place where a numeral turns out to be too large: at the digit that makes its exponent too
large, else behind it. -/
def overflowPlace (exponent? : Option (Bool × List Char)) (digitsAt after : Cursor) : Position :=
  match exponent? with
  | none => after.place
  | some (_, digits) =>
    match Numeral.exponentOverflow? digits with
    | none => after.place
    | some n => ⟨digitsAt.place.line, digitsAt.place.column + n⟩

def readUnsigned (minus : Bool) (c : Cursor) : Except Stop (Number × Cursor) := do
  let (whole, c) ← readWhole c
  let (fraction?, c) ← readFraction c
  let ((exponent?, digitsAt), c) ← readExponent c
  match Numeral.value? ⟨minus, whole, fraction?, exponent?⟩ with
  | some n => .ok (n, c)
  | none => .error (.fault .numberOutOfRange (overflowPlace exponent? digitsAt c))

def readNumber (c : Cursor) : Except Stop (Number × Cursor) :=
  match c.rest with
  | '-' :: _ => readUnsigned true c.next
  | _ => readUnsigned false c

end UsbTopology.Json
