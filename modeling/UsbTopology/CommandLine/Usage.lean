import UsbTopology.CommandLine
import UsbTopology.Text.Control

set_option autoImplicit false

/-!
# Usage texts

What the program says of itself, and of a command line that it cannot read. Of an argument it only
repeats what is shown without its control sequences.
-/
namespace UsbTopology

namespace Flag

def settingsText : String := "<" ++ "|".intercalate ((all.filter isSetting).map text) ++ ">"

def explanation : Flag → List String
  | .config => ["Path to user config file to use"]
  | .fromJson => ["Read devices and sidecar data from a json dump rather than the system"]
  | .json => ["Output the enumerated devices as a json dump that can be read with", "--from-json"]
  | .sysfsRoot =>
    ["Directory of USB device nodes to read drivers and hub ports from;",
      "default /sys/bus/usb/devices"]
  | .debug =>
    ["Turn debugging information on. Alternatively can use RUST_LOG env:", "INFO, DEBUG, TRACE"]
  | .help => ["Print help"]
  | .version => ["Print version"]

def helpText (f : Flag) : String :=
  "  " ++ f.short?.elim "    " (fun letter => "-" ++ letter.toString ++ ", ") ++ f.text ++ "\n" ++
    String.join (f.explanation.map fun line => "          " ++ line ++ "\n")

end Flag

def usageLine : String := "Usage: usbtree [OPTIONS]"

def usageLineOf : List Flag → String
  | [] => usageLine
  | flags => "Usage: usbtree " ++ " ".intercalate (flags.map Flag.text)

/-- The usage line of an option behind settings, which stand for all of them. -/
def usageLineBehind (met : List Flag) (flag : Flag) : String :=
  if met = [] then usageLineOf [flag]
  else "Usage: usbtree " ++ (if flag.isSetting then "" else flag.text ++ " ") ++ Flag.settingsText

def helpText : String :=
  "Print system USB devices as a physical bus/hub/port tree, like lsusb -t\n\n" ++ usageLine ++
    "\n\nOptions:\n" ++ String.join (Flag.all.map Flag.helpText)

def versionText : String := "usbtree 0.1.0\n"

namespace UsageFault

def message : UsageFault → String
  | .missingValue flag =>
    "a value is required for '" ++ flag.text ++ "' but none was supplied"
  | .repeated flag => "the argument '" ++ flag.text ++ "' cannot be used multiple times"
  | .unneededValue value flag _ =>
    "unexpected value '" ++ Text.shown value ++ "' for '" ++ flag.text ++
      "' found; no more were expected"
  | .unknown argument => "unexpected argument '" ++ Text.shown argument ++ "' found"
  | .unknownLong name _ _ => "unexpected argument '--" ++ Text.shown name ++ "' found"

def advice : UsageFault → String
  | .missingValue _ => ""
  | .repeated _ | .unknown _ => usageLine ++ "\n\n"
  | .unneededValue _ flag met => usageLineBehind met flag ++ "\n\n"
  | .unknownLong _ none met => usageLineOf met ++ "\n\n"
  | .unknownLong _ (some meant) met =>
    "  tip: a similar argument exists: '--" ++ meant.long ++ "'\n\n" ++
      usageLineOf (if meant ∈ met then met else met ++ [meant]) ++ "\n\n"

def text (f : UsageFault) : String :=
  "error: " ++ f.message ++ "\n\n" ++ f.advice ++ "For more information, try '--help'.\n"

end UsageFault

end UsbTopology
