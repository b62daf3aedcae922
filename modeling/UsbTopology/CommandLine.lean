import UsbTopology.Text.Similarity

set_option autoImplicit false

/-!
# Command lines

The options of the program and how a command line is read. A value may be attached to its option
(`--config=f`, `-cf`) or stand behind it. An option acts when the next one is met or the line ends,
so a fault of its value is reported only then, and an argument that is not known is reported first.
-/
namespace UsbTopology

inductive Flag where
  | config
  | fromJson
  | json
  | sysfsRoot
  | debug
  | help
  | version
deriving DecidableEq, Repr

namespace Flag

def all : List Flag := [.config, .fromJson, .json, .sysfsRoot, .debug, .help, .version]

def long : Flag → String
  | .config => "config"
  | .fromJson => "from-json"
  | .json => "json"
  | .sysfsRoot => "sysfs-root"
  | .debug => "debug"
  | .help => "help"
  | .version => "version"

def short? : Flag → Option Char
  | .config => some 'c'
  | .debug => some 'z'
  | .help => some 'h'
  | .version => some 'V'
  | _ => none

def takesValue : Flag → Bool
  | .config | .fromJson | .sysfsRoot => true
  | _ => false

def takesPath : Flag → Bool
  | .config | .sysfsRoot => true
  | _ => false

def isSetting : Flag → Bool
  | .help | .version => false
  | _ => true

def text : Flag → String
  | .config => "--config <CONFIG>"
  | .fromJson => "--from-json <FROM_JSON>"
  | .json => "--json"
  | .sysfsRoot => "--sysfs-root <SYSFS_ROOT>"
  | .debug => "--debug..."
  | .help => "--help"
  | .version => "--version"

def ofLong? (name : String) : Option Flag := all.find? fun f => f.long = name

def ofShort? (letter : Char) : Option Flag := all.find? fun f => f.short? = some letter

end Flag

structure Settings where
  config? : Option String
  fromJson? : Option String
  json : Bool
  sysfsRoot? : Option String
  debug : Nat
deriving DecidableEq, Repr

namespace Settings

def initial : Settings := ⟨none, none, false, none, 0⟩

def set (s : Settings) (value : String) : Flag → Settings
  | .config => { s with config? := some value }
  | .fromJson => { s with fromJson? := some value }
  | .json => { s with json := true }
  | .sysfsRoot => { s with sysfsRoot? := some value }
  | .debug => { s with debug := s.debug + 1 }
  | .help | .version => s

end Settings

/-- Why a command line cannot be read. The settings that were met before come with a fault whose
usage line shows them. -/
inductive UsageFault where
  | missingValue (flag : Flag)
  | repeated (flag : Flag)
  | unneededValue (value : String) (flag : Flag) (met : List Flag)
  | unknown (argument : String)
  | unknownLong (name : String) (meant? : Option Flag) (met : List Flag)
deriving DecidableEq, Repr

inductive Command where
  | run (settings : Settings)
  | help
  | version
deriving DecidableEq, Repr

structure Scan where
  settings : Settings
  /-- The settings that have acted, by the last time each of them did. -/
  met : List Flag
  /-- An option that has not acted yet, with the value it was given so far. -/
  pending? : Option (Flag × Option String)
deriving DecidableEq, Repr

namespace Scan

def start : Scan := ⟨.initial, [], none⟩

/-- Lets an option with its value act. Only the option for more logging may be repeated. -/
def act (s : Scan) (flag : Flag) (value : String) : Except UsageFault Scan :=
  if flag ≠ .debug ∧ flag ∈ s.met then .error (.repeated flag)
  else if flag.takesPath ∧ value = "" then .error (.missingValue flag)
  else .ok { s with settings := s.settings.set value flag, met := s.met.erase flag ++ [flag] }

def settle (s : Scan) : Except UsageFault Scan :=
  match s.pending? with
  | none => .ok s
  | some (flag, none) => .error (.missingValue flag)
  | some (flag, some value) => { s with pending? := none }.act flag value

/-- The settings that have acted, if the pending option does now. An option whose value is refused
has acted by then, one without a value has not, and one that is repeated no longer counts. -/
def metBySettling (s : Scan) : List Flag :=
  match s.pending? with
  | some (flag, some _) => if flag ∈ s.met then s.met.erase flag else s.met ++ [flag]
  | _ => s.met

def actPlain (s : Scan) (flag : Flag) : Except UsageFault (Scan ⊕ Command) := do
  let s ← s.settle
  match flag with
  | .help => .ok (.inr .help)
  | .version => .ok (.inr .version)
  | _ => return .inl (← s.act flag "")

def readShort : Scan → List Char → Except UsageFault (Scan ⊕ Command)
  | s, [] => .ok (.inl s)
  | s, letter :: rest =>
    match Flag.ofShort? letter with
    | none => .error (.unknown ("-" ++ letter.toString))
    | some flag =>
      if flag.takesValue then do
        let s ← s.settle
        match rest with
        | [] => .ok (.inl { s with pending? := some (flag, none) })
        | '=' :: value => return .inl (← s.act flag (String.ofList value))
        | value => return .inl (← s.act flag (String.ofList value))
      else do
        match ← s.actPlain flag with
        | .inl s => readShort s rest
        | .inr command => .ok (.inr command)

def readLong (s : Scan) (name : String) (value? : Option String) :
    Except UsageFault (Scan ⊕ Command) :=
  match Flag.ofLong? name with
  | none =>
    .error (.unknownLong name
      ((Text.mostSimilar name (Flag.all.map Flag.long)).bind Flag.ofLong?) s.metBySettling)
  | some flag =>
    match flag.takesValue, value? with
    | true, some value => do return .inl (← (← s.settle).act flag value)
    | true, none => do return .inl { ← s.settle with pending? := some (flag, none) }
    | false, some value => .error (.unneededValue value flag s.met)
    | false, none => s.actPlain flag

def splitValue (cs : List Char) : String × Option String :=
  let name := cs.takeWhile (· ≠ '=')
  let value? := match cs.dropWhile (· ≠ '=') with
    | [] => none
    | _ :: value => some (String.ofList value)
  (String.ofList name, value?)

def read : Scan → List String → Except UsageFault Command
  | s, [] => do return .run (← s.settle).settings
  | s, argument :: rest =>
    match argument.toList with
    | ['-', '-'] =>
      match rest with
      | [] => do return .run (← s.settle).settings
      | next :: _ => .error (.unknown next)
    | '-' :: '-' :: cs =>
      let (name, value?) := splitValue cs
      match s.readLong name value? with
      | .error f => .error f
      | .ok (.inr command) => .ok command
      | .ok (.inl s) => read s rest
    | '-' :: letter :: cs =>
      match s.readShort (letter :: cs) with
      | .error f => .error f
      | .ok (.inr command) => .ok command
      | .ok (.inl s) => read s rest
    | _ =>
      match s.pending? with
      | some (flag, none) => read { s with pending? := some (flag, some argument) } rest
      | _ => .error (.unknown argument)

end Scan

def Command.ofArguments (arguments : List String) : Except UsageFault Command :=
  Scan.start.read arguments

end UsbTopology
