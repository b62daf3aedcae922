import UsbTopology.FileSystem.Change
import UsbTopology.Run

set_option autoImplicit false

/-!
# The program

Reads the files that a command line may ask for, and prints the outcome of the run.
-/
namespace UsbTopology

def Path.leading (p : Path) : List Path :=
  (List.range p.pieces.length).map fun n =>
    .ofPieces (p.pieces.headD []) ((p.pieces.drop 1).take n)

def IoFault.ofError : IO.Error → IoFault
  | .permissionDenied .. => .denied
  | e => .other (toString e)

def observePath (fs : FileSystem) (p : Path) : IO FileSystem := do
  let mut fs := fs
  for q in p.leading do
    if let some name := Text.decode? q.bytes then
      let place := (← IO.currentDir) / name
      if ← place.isDir then
        fs := fs.apply (.directory q)
      else if ← place.pathExists then
        match ← (IO.FS.readBinFile place).toBaseIO with
        | .ok bytes => fs := fs.apply (.file q bytes.toList)
        | .error e => fs := fs.apply (.unreadable q (.ofError e))
  return fs

def observe (arguments : List String) (env : Environment) : IO FileSystem := do
  let current := Path.ofString (← IO.currentDir).toString
  let mut fs := FileSystem.ofCurrent ((current.pieces).drop 1)
  let named := match Command.ofArguments arguments with
    | .ok (.run s) => (s.config?.toList ++ s.fromJson?.toList).map Path.ofString
    | _ => []
  for p in named ++ (Config.userPath? env).toList do
    fs ← observePath fs p
  return fs

def Account.home? (user : String) (accounts : Array String) : Option Path :=
  accounts.toList.findSome? fun account =>
    match account.splitOn ":" with
    | _ :: _ :: id :: _ :: _ :: home :: _ => if id = user then some (.ofString home) else none
    | _ => none

/-- The home directory of the account that the program runs under, if it can be told. -/
def observeAccountHome : IO (Option Path) := do
  try
    let status ← IO.FS.lines "/proc/self/status"
    let accounts ← IO.FS.lines "/etc/passwd"
    let user? := status.toList.findSome? fun line =>
      match line.splitOn "\t" with
      | "Uid:" :: user :: _ => some user
      | _ => none
    return user?.bind fun user => Account.home? user accounts
  catch _ => return none

end UsbTopology

open UsbTopology in
def main (arguments : List String) : IO UInt32 := do
  let environment : Environment := {
    home? := (← IO.getEnv "HOME").map .ofString
    configHome? := (← IO.getEnv "XDG_CONFIG_HOME").map .ofString
    logLevel? := ← IO.getEnv "RUST_LOG"
    accountHome? := ← observeAccountHome }
  let files ← observe arguments environment
  let outcome := Outcome.ofArguments ⟨files, environment, .registered, Host.unlisted⟩ arguments
  IO.print outcome.output
  IO.eprint outcome.diagnostics
  return outcome.code
