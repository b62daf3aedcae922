import UsbTopology.Text.Hex
import UsbTopology.Text.Unprinted
import UsbTopology.Text.Utf8

set_option autoImplicit false

/-!
# Quoted text

Messages quote texts and paths between double quotes. A character without a glyph is spelled by
its number, and so is a byte of a path that is no UTF-8.
-/
namespace UsbTopology.Text

def spellChar (c : Char) : String := "\\u\x7b" ++ hex c.toNat ++ "\x7d"

def quoteChar (c : Char) : String :=
  if c = '\x00' then "\\0"
  else if c = '\t' then "\\t"
  else if c = '\r' then "\\r"
  else if c = '\n' then "\\n"
  else if c = '\\' then "\\\\"
  else if c = '"' then "\\\""
  else if isUnprinted c then spellChar c
  else c.toString

def quote (s : String) : String := "\"" ++ String.join (s.toList.map quoteChar) ++ "\""

def quotePiece : Piece → String
  | .char c => quoteChar c
  | .stray b => "\\x" ++ String.ofList ((hexFixed 2 b.toNat).map Char.toUpper)

def quotePath (bytes : List UInt8) : String :=
  "\"" ++ String.join ((pieces bytes).map quotePiece) ++ "\""

end UsbTopology.Text
