set_option autoImplicit false

/-!
# Log records

A record is a remark of one part of the program. A level admits the records that are at least as
severe as itself.
-/
namespace UsbTopology

inductive LogLevel where
  | error
  | warn
  | info
  | debug
  | trace
deriving DecidableEq, Repr

inductive LogSource where
  | program
  | config
  | sysfs
  | tree
deriving DecidableEq, Repr

structure LogRecord where
  level : LogLevel
  source : LogSource
  message : String
deriving DecidableEq, Repr

namespace LogLevel

def all : List LogLevel := [.error, .warn, .info, .debug, .trace]

def rank : LogLevel → Nat
  | .error => 0
  | .warn => 1
  | .info => 2
  | .debug => 3
  | .trace => 4

def text : LogLevel → String
  | .error => "ERROR"
  | .warn => "WARN"
  | .info => "INFO"
  | .debug => "DEBUG"
  | .trace => "TRACE"

def ofName? (name : String) : Option LogLevel := all.find? fun v => v.text = name.toUpper

/-- The least severe level that a name admits: none at all if the name is `off`. -/
def threshold? (name : String) : Option (Option LogLevel) :=
  if name.toUpper = "OFF" then some none else (ofName? name).map some

end LogLevel

def LogSource.text : LogSource → String
  | .program => "usbtree"
  | .config => "usbtree::config"
  | .sysfs => "usbtree::lsusb::sysfs"
  | .tree => "usbtree::lsusb::tree"

namespace LogRecord

/-- The records that a level admits; without a level there are none. -/
def admitted (level? : Option LogLevel) (records : List LogRecord) : List LogRecord :=
  records.filter fun r => level?.any fun level => r.level.rank ≤ level.rank

def line (width : Nat) (r : LogRecord) : String :=
  let level := r.level.text
  level ++ String.ofList (List.replicate (width - level.length) ' ') ++ " [" ++ r.source.text ++
    "] " ++ r.message

end LogRecord

end UsbTopology
