import UsbTopology.Dump.Format
import UsbTopology.FileSystem

set_option autoImplicit false

/-!
# Dump files

Reading a dump from a file. Whatever is wrong with the text is reported with the path and the place
in the text.
-/
namespace UsbTopology

def Dump.ofFile (fs : FileSystem) (path : String) : Except Fault Dump :=
  fs.readAs (.ofString path) parse fun f =>
    ⟨.parsing, "Failed to parse dump at " ++ Text.quote path ++ "; Error(" ++ f.message ++ ")"⟩

end UsbTopology
