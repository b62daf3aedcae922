set_option autoImplicit false

/-!
# UTF-8

`pieces` splits bytes into the characters they spell and the bytes that belong to no character.
`decode?` accepts exactly the byte texts that have no such byte.
-/
namespace UsbTopology.Text

def encode (s : String) : List UInt8 := s.toList.flatMap String.utf8EncodeChar

def continuation? (b : UInt8) : Option Nat :=
  if 0x80 ≤ b.toNat ∧ b.toNat < 0xc0 then some (b.toNat - 0x80) else none

/-- The character of two bytes; a shorter spelling must not exist. -/
def twoByteChar? (a b : UInt8) : Option Char := do
  if 0xc2 ≤ a.toNat ∧ a.toNat < 0xe0 then
    return Char.ofNat ((a.toNat - 0xc0) * 64 + (← continuation? b))
  else none

def threeByteChar? (a b c : UInt8) : Option Char := do
  if 0xe0 ≤ a.toNat ∧ a.toNat < 0xf0 then
    let n := (a.toNat - 0xe0) * 4096 + (← continuation? b) * 64 + (← continuation? c)
    if 0x800 ≤ n ∧ ¬ (0xd800 ≤ n ∧ n < 0xe000) then some (Char.ofNat n) else none
  else none

def fourByteChar? (a b c d : UInt8) : Option Char := do
  if 0xf0 ≤ a.toNat ∧ a.toNat < 0xf5 then
    let n := (a.toNat - 0xf0) * 262144 + (← continuation? b) * 4096 + (← continuation? c) * 64 +
      (← continuation? d)
    if 0x10000 ≤ n ∧ n < 0x110000 then some (Char.ofNat n) else none
  else none

/-- A part of a byte text: a character or a byte outside every character. -/
inductive Piece where
  | char (c : Char)
  | stray (b : UInt8)
deriving DecidableEq, Repr

def pieces : List UInt8 → List Piece
  | [] => []
  | a :: s =>
    if a.toNat < 0x80 then .char (Char.ofNat a.toNat) :: pieces s
    else match s with
      | [] => [.stray a]
      | b :: t =>
        match twoByteChar? a b with
        | some ch => .char ch :: pieces t
        | none =>
          match t with
          | [] => .stray a :: pieces [b]
          | c :: u =>
            match threeByteChar? a b c with
            | some ch => .char ch :: pieces u
            | none =>
              match u with
              | [] => .stray a :: pieces (b :: [c])
              | d :: v =>
                match fourByteChar? a b c d with
                | some ch => .char ch :: pieces v
                | none => .stray a :: pieces (b :: c :: d :: v)

def Piece.char? : Piece → Option Char
  | .char c => some c
  | .stray _ => none

def decode? (bytes : List UInt8) : Option String :=
  ((pieces bytes).mapM Piece.char?).map String.ofList

end UsbTopology.Text
