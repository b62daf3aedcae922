import UsbTopology.Json.Container
import UsbTopology.Json.Numeral

set_option autoImplicit false

/-!
# Skipped values

A member that a record does not know is passed over. Its form is checked, but not what its texts and
numerals stand for, and brackets may be nested to any depth.
-/
namespace UsbTopology.Json

def skipDigits (c : Cursor) : Cursor := (readDigits c).2

def skipWhole (c : Cursor) : Except Stop Cursor :=
  match c.rest with
  | [] => c.fail .invalidNumber
  | ch :: rest =>
    if ch = '0' then
      match rest with
      | d :: _ => if isDigit d then c.next.refuse .invalidNumber else .ok c.next
      | [] => .ok c.next
    else if isDigit ch then .ok (skipDigits c)
    else c.refuse .invalidNumber

def skipFraction (c : Cursor) : Except Stop Cursor :=
  match c.rest with
  | '.' :: _ =>
    let d := readDigits c.next
    if d.1.isEmpty then d.2.refuse .invalidNumber else .ok d.2
  | _ => .ok c

def skipExponent (c : Cursor) : Except Stop Cursor :=
  match c.rest with
  | ch :: _ =>
    if ch = 'e' ∨ ch = 'E' then
      let s := (readExponentSign c.next).2
      match s.rest with
      | d :: _ => if isDigit d then .ok (skipDigits s) else s.refuse .invalidNumber
      | [] => s.fail .invalidNumber
    else .ok c
  | [] => .ok c

def skipNumber (c : Cursor) : Except Stop Cursor := do
  let c := match c.rest with
    | '-' :: _ => c.next
    | _ => c
  skipExponent (← skipFraction (← skipWhole c))

/-- Passes over what is between two elements: `true` at an element, `false` behind the closing
bracket. -/
def passElement (first : Bool) (c : Cursor) : Except Stop (Bool × Cursor) :=
  let c := c.skipBlanks
  match c.rest with
  | [] => c.fail .endInList
  | ch :: _ =>
    if ch = ']' then .ok (false, c.next)
    else if first then .ok (true, c)
    else if ch = ',' then .ok (true, c.next)
    else c.refuse .expectedListCommaOrEnd

def passName (c : Cursor) : Except Stop Cursor :=
  let c := c.skipBlanks
  match c.rest with
  | [] => c.fail .endInObject
  | ch :: _ => if ch = '"' then do readColon (← skipQuotation c.next) else c.refuse .keyNotText

def passMember (first : Bool) (c : Cursor) : Except Stop (Bool × Cursor) :=
  let c := c.skipBlanks
  match c.rest with
  | [] => c.fail .endInObject
  | ch :: _ =>
    if ch = '\x7d' then .ok (false, c.next)
    else if first then do .ok (true, ← passName c)
    else if ch = ',' then do .ok (true, ← passName c.next)
    else c.refuse .expectedObjectCommaOrEnd

/-- Passes over a value that is no container, or only over the opening bracket of a container, whose
kind is then given: `true` for an array. -/
def passScalar (c : Cursor) : Except Stop (Option Bool × Cursor) :=
  let c := c.skipBlanks
  match c.rest with
  | [] => c.fail .endInValue
  | ch :: _ =>
    if ch = 'n' then do .ok (none, ← readNull c)
    else if ch = 't' then do .ok (none, ← readTrue c)
    else if ch = 'f' then do .ok (none, ← readFalse c)
    else if ch = '-' || isDigit ch then do .ok (none, ← skipNumber c)
    else if ch = '"' then do .ok (none, ← skipQuotation c.next)
    else if ch = '[' then .ok (some true, c.next)
    else if ch = '\x7b' then .ok (some false, c.next)
    else c.refuse .expectedValue

def skipElements (skip : Cursor → Except Stop Cursor) :
    List Char → Bool → Cursor → Except Stop Cursor
  | [], _, c => c.fail .endInList
  | _ :: rounds, first, c => do
    match ← passElement first c with
    | (false, c) => .ok c
    | (true, c) => skipElements skip rounds false (← skip c)

def skipMembers (skip : Cursor → Except Stop Cursor) :
    List Char → Bool → Cursor → Except Stop Cursor
  | [], _, c => c.fail .endInObject
  | _ :: rounds, first, c => do
    match ← passMember first c with
    | (false, c) => .ok c
    | (true, c) => skipMembers skip rounds false (← skip c)

/-- Passes over a value. Every bracket takes a character, so the characters of the value bound the
depth. -/
def skipWithin : List Char → Cursor → Except Stop Cursor
  | [], c => c.fail .endInValue
  | _ :: depth, c => do
    match ← passScalar c with
    | (none, c) => .ok c
    | (some true, c) => skipElements (skipWithin depth) c.rest true c
    | (some false, c) => skipMembers (skipWithin depth) c.rest true c

def skipValue (c : Cursor) : Except Stop Cursor := skipWithin c.rest c

end UsbTopology.Json
