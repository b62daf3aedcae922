import UsbTopology.Json.Fault
import UsbTopology.Text.Hex

set_option autoImplicit false

/-!
# Quotations

A text between quotes. `readQuotation` gives the characters it stands for, so a pair of surrogate
escapes has to be complete; `skipQuotation` only looks for its end and for escapes that do not
exist.
-/
namespace UsbTopology.Json

def hexUnit? (a b c d : Char) : Option Nat := do
  return ((← Text.hexValue? a) * 16 + (← Text.hexValue? b)) * 256 +
    (← Text.hexValue? c) * 16 + (← Text.hexValue? d)

def isLeadingSurrogate (n : Nat) : Bool := 0xd800 ≤ n && n < 0xdc00

def isTrailingSurrogate (n : Nat) : Bool := 0xdc00 ≤ n && n < 0xe000

def pairChar (leading trailing : Nat) : Char :=
  Char.ofNat ((leading - 0xd800) * 0x400 + (trailing - 0xdc00) + 0x10000)

def simpleEscape? (c : Char) : Option Char :=
  if c = '"' then some '"'
  else if c = '\\' then some '\\'
  else if c = '/' then some '/'
  else if c = 'b' then some '\x08'
  else if c = 'f' then some '\x0c'
  else if c = 'n' then some '\n'
  else if c = 'r' then some '\r'
  else if c = 't' then some '\t'
  else none

def byteCount (cs : List Char) : Nat := cs.foldl (fun n c => n + c.utf8Size) 0

def Position.afterAll (p : Position) (cs : List Char) : Position := cs.foldl Position.after p

/-- What is wrong with an escape by number that has not four digits: the text ends within four
bytes, or those bytes are no digits. -/
def refuseUnit {α : Type} (p : Position) (rest : List Char) : Except Stop α :=
  if byteCount rest < 4 then .error (.fault .endInString (p.afterAll rest))
  else .error (.fault .invalidEscape (p.afterBytes 4 rest))

def refusePair {α : Type} (p : Position) (rest : List Char) : Except Stop α :=
  match rest with
  | [] => .error (.fault .endInString p)
  | ch :: rest' =>
    if ch = '\\' then
      match rest' with
      | [] => .error (.fault .endInString (p.after ch))
      | _ => .error (.fault .brokenSurrogatePair ((p.after ch).afterBytes 1 rest'))
    else .error (.fault .brokenSurrogatePair (p.afterBytes 1 rest))

/-- The characters up to the closing quote, put behind those already read, which are given in
reverse. -/
def readQuoted (p : Position) (done : List Char) : List Char → Except Stop (String × Cursor)
  | [] => .error (.fault .endInString p)
  | ch :: rest =>
    if ch = '"' then .ok (String.ofList done.reverse, ⟨p.after ch, rest⟩)
    else if ch = '\\' then
      match rest with
      | [] => .error (.fault .endInString (p.after ch))
      | e :: rest =>
        let p := p.after ch
        if e = 'u' then
          let p := p.after e
          match rest with
          | a :: b :: c :: d :: rest =>
            match hexUnit? a b c d with
            | none => refuseUnit p (a :: b :: c :: d :: rest)
            | some n =>
              let p := p.afterAll [a, b, c, d]
              if isTrailingSurrogate n then .error (.fault .loneSurrogate p)
              else if isLeadingSurrogate n then
                match rest with
                | '\\' :: 'u' :: rest =>
                  let p := p.afterAll ['\\', 'u']
                  match rest with
                  | a :: b :: c :: d :: rest =>
                    match hexUnit? a b c d with
                    | none => refuseUnit p (a :: b :: c :: d :: rest)
                    | some m =>
                      let p := p.afterAll [a, b, c, d]
                      if isTrailingSurrogate m then readQuoted p (pairChar n m :: done) rest
                      else .error (.fault .loneSurrogate p)
                  | short => refuseUnit p short
                | other => refusePair p other
              else readQuoted p (Char.ofNat n :: done) rest
          | short => refuseUnit p short
        else
          match simpleEscape? e with
          | some x => readQuoted (p.after e) (x :: done) rest
          | none => .error (.fault .invalidEscape (p.afterBytes 1 (e :: rest)))
    else if ch.toNat < 0x20 then .error (.fault .controlCharacter (p.afterBytes 1 (ch :: rest)))
    else readQuoted (p.after ch) (ch :: done) rest

def readQuotation (c : Cursor) : Except Stop (String × Cursor) := readQuoted c.place [] c.rest

def skipQuoted (p : Position) : List Char → Except Stop Cursor
  | [] => .error (.fault .endInString p)
  | ch :: rest =>
    if ch = '"' then .ok ⟨p.after ch, rest⟩
    else if ch = '\\' then
      match rest with
      | [] => .error (.fault .endInString (p.after ch))
      | e :: rest =>
        let p := p.after ch
        if e = 'u' then
          let p := p.after e
          match rest with
          | a :: b :: c :: d :: rest =>
            match hexUnit? a b c d with
            | none => refuseUnit p (a :: b :: c :: d :: rest)
            | some _ => skipQuoted (p.afterAll [a, b, c, d]) rest
          | short => refuseUnit p short
        else
          match simpleEscape? e with
          | some _ => skipQuoted (p.after e) rest
          | none => .error (.fault .invalidEscape (p.afterBytes 1 (e :: rest)))
    else if ch.toNat < 0x20 then .error (.fault .controlCharacter p)
    else skipQuoted (p.after ch) rest

def skipQuotation (c : Cursor) : Except Stop Cursor := skipQuoted c.place c.rest

end UsbTopology.Json
