import UsbTopology.CommandLine.Usage
import UsbTopology.Config
import UsbTopology.Dump.File
import UsbTopology.Source

set_option autoImplicit false

/-!
# Runs

What the program prints for a command line, and how it exits. A run finds its configuration, then
its devices, and prints them as a tree or as a dump. A device that failed does not end the run.
-/
namespace UsbTopology

/-- What a run finds around it. -/
structure Host where
  files : FileSystem
  environment : Environment
  registered : ClassNames
  probes : Except Fault (List Probe)

namespace Host

def unlisted : Except Fault (List Probe) :=
  .error ⟨.unsupported,
    "libusb feature is required to do this, install with `cargo install --features libusb`"⟩

end Host

structure Outcome where
  code : UInt32
  output : String
  diagnostics : String
deriving DecidableEq, Repr

/-- What a run that was not ended by a fault shows: its text, and the faults of single devices. -/
structure Report where
  output : String
  faults : List Fault
deriving DecidableEq, Repr

namespace Source

def report (s : Source) (json : Bool) (names : ClassNames) : Report :=
  if json then ⟨s.dump.toJson.pretty ++ "\n", []⟩
  else ⟨(s.tree names).text, (s.tree names).faults⟩

def reportLog (s : Source) (json : Bool) (names : ClassNames) : List LogRecord :=
  if json then s.dumpLog else s.treeLog names

end Source

namespace Settings

/-- The least severe level to print. The environment counts if no option asks for more. -/
def threshold (s : Settings) (env : Environment) : Option LogLevel :=
  match s.debug with
  | 0 => (env.logLevel?.bind LogLevel.threshold?).getD (some .error)
  | 1 => some .info
  | 2 => some .debug
  | _ => some .trace

def configuration (s : Settings) (host : Host) : Except Fault Config := do
  let c ← match s.config? with
    | some path => Config.ofFile host.files (.ofString path)
    | none => Config.ofUser host.files host.environment
  return { c with sysfsRoot := s.sysfsRoot?.or c.sysfsRoot }

def configurationLog (s : Settings) (host : Host) : List LogRecord :=
  match s.config? with
  | some _ => []
  | none => [Config.userNote host.files host.environment]

def source (s : Settings) (host : Host) (c : Config) : Except Fault Source :=
  match s.fromJson? with
  | some path => (Dump.ofFile host.files path).map Source.ofDump
  | none => host.probes.map (.ofSysfs ⟨host.files, .ofString c.root⟩)

def report (s : Settings) (host : Host) : Except Fault Report := do
  let c ← s.configuration host
  let source ← s.source host c
  return source.report s.json (c.names host.registered)

def log (s : Settings) (host : Host) : List LogRecord :=
  s.configurationLog host ++
    match s.configuration host with
    | .error _ => []
    | .ok c => ⟨.debug, .program, c.details⟩ ::
      match s.source host c with
      | .error _ => []
      | .ok source => source.reportLog s.json (c.names host.registered)

end Settings

def Fault.farewell (f : Fault) : String :=
  match f.kind with
  | .unsupported | .libUsb => "Unable to enumerate USB devices: " ++ f.message ++ "\n"
  | _ => f.report ++ "\n"

def levelWidth : Nat := 5

def Settings.logText (s : Settings) (host : Host) : String :=
  String.join ((LogRecord.admitted (s.threshold host.environment) (s.log host)).map fun r =>
    r.line levelWidth ++ "\n")

namespace Outcome

def ofSettings (host : Host) (s : Settings) : Outcome :=
  match s.report host with
  | .ok r =>
    ⟨0, r.output, s.logText host ++ String.join (r.faults.map fun f => f.message ++ "\n")⟩
  | .error f => ⟨1, "", s.logText host ++ f.farewell⟩

def ofArguments (host : Host) (arguments : List String) : Outcome :=
  match Command.ofArguments arguments with
  | .ok (.run s) => ofSettings host s
  | .ok .help => ⟨0, helpText, ""⟩
  | .ok .version => ⟨0, versionText, ""⟩
  | .error f => ⟨2, "", f.text⟩

end Outcome

end UsbTopology
