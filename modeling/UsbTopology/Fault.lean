import UsbTopology.Text.Quoted

set_option autoImplicit false

/-!
# Faults

What a part of the program reports when it cannot go on: a kind and a message.
-/
namespace UsbTopology

inductive Fault.Kind where
  | unsupported
  | notFound
  /-- The descriptors of a device could not be read. -/
  | opening
  | parsing
  | config
  | io
  | libUsb
  | invalidArgument
  /-- A fault that another component names. -/
  | other (origin : String)
deriving DecidableEq, Repr

structure Fault where
  kind : Fault.Kind
  message : String
deriving DecidableEq, Repr

namespace Fault

def Kind.text : Kind → String
  | .unsupported => "Unsupported"
  | .notFound => "NotFound"
  | .opening => "Opening"
  | .parsing => "Parsing"
  | .config => "Config"
  | .io => "Io"
  | .libUsb => "LibUSB"
  | .invalidArgument => "InvalidArg"
  | .other origin => "Other(" ++ Text.quote origin ++ ")"

def report (f : Fault) : String := f.kind.text ++ " Error: " ++ f.message

def details (f : Fault) : String :=
  "Error \x7b kind: " ++ f.kind.text ++ ", message: " ++ Text.quote f.message ++ " \x7d"

end Fault

end UsbTopology
