import UsbTopology.Dump
import UsbTopology.Json.Printer
import UsbTopology.Json.Shape

set_option autoImplicit false

/-!
# The form of a dump

How the records of a dump are written as JSON, which values they are read from, and what those
values stand for. A field that may be left out has a default, and members of other names are
ignored.
-/
namespace UsbTopology

open Json (Shape Field Layout)

/-- An object or an array of the fields, with any other members. -/
def openLayout : Layout := ⟨true, true⟩

namespace Json

def byteAt (j : Json) (name : String) : UInt8 := ((j.member? name).bind byte?).getD 0

def byteAt? (j : Json) (name : String) : Option UInt8 := (j.member? name).bind byte?

def textAt (j : Json) (name : String) : String := ((j.member? name).bind text?).getD ""

def elementsAt (j : Json) (name : String) : List Json := (j.member? name).elim [] elements

def membersAt (j : Json) (name : String) : List (String × Json) := (j.member? name).elim [] members

end Json

namespace Speed

def shape : Shape := .choice (all.map name)

def toJson (v : Speed) : Json := .string v.name

def ofJson (j : Json) : Speed := (j.text?.bind ofName?).getD .unknown

def parse (text : String) : Except Json.Fault Speed := (shape.parse text).map ofJson

end Speed

namespace Interface

def shape : Shape :=
  .record "Interface" openLayout
    [.mk "class" true .byte, .mk "sub_class" false .byte, .mk "protocol" false .byte]

def toJson (i : Interface) : Json :=
  .object [("class", .ofByte i.baseClass), ("sub_class", .ofByte i.subClass),
    ("protocol", .ofByte i.protocol)]

def ofJson (j : Json) : Interface where
  baseClass := j.byteAt "class"
  subClass := j.byteAt "sub_class"
  protocol := j.byteAt "protocol"

def parse (text : String) : Except Json.Fault Interface := (shape.parse text).map ofJson

end Interface

namespace Configuration

def shape : Shape :=
  .record "Configuration" openLayout
    [.mk "number" false .byte, .mk "interfaces" false (.list Interface.shape)]

def toJson (c : Configuration) : Json :=
  .object [("number", .ofByte c.number), ("interfaces", .array (c.interfaces.map Interface.toJson))]

def ofJson (j : Json) : Configuration where
  number := j.byteAt "number"
  interfaces := (j.elementsAt "interfaces").map Interface.ofJson

def parse (text : String) : Except Json.Fault Configuration := (shape.parse text).map ofJson

end Configuration

namespace Device

def shape : Shape :=
  .record "Device" openLayout
    [.mk "bus" true .byte, .mk "ports" false (.list .byte), .mk "address" true .byte,
      .mk "speed" false Speed.shape, .mk "configurations" false (.list Configuration.shape)]

def toJson (d : Device) : Json :=
  .object [("bus", .ofByte d.bus), ("ports", .array (d.ports.map .ofByte)),
    ("address", .ofByte d.address), ("speed", d.speed.toJson),
    ("configurations", .array (d.configurations.map Configuration.toJson))]

def ofJson (j : Json) : Device where
  bus := j.byteAt "bus"
  ports := (j.elementsAt "ports").map fun p => p.byte?.getD 0
  address := j.byteAt "address"
  speed := (j.member? "speed").elim .unknown Speed.ofJson
  configurations := (j.elementsAt "configurations").map Configuration.ofJson

def parse (text : String) : Except Json.Fault Device := (shape.parse text).map ofJson

end Device

namespace Record

def failedShape : Shape :=
  .record "Failed" ⟨false, true⟩
    [.mk "bus" false (.optional .byte), .mk "address" false (.optional .byte),
      .mk "error" true (.text "a string")]

/-- An object with an error is a failed device, whatever else it has. -/
def shape : Shape := .either "DumpDevice" [failedShape, Device.shape]

def optionalMember (name : String) (b? : Option UInt8) : List (String × Json) :=
  b?.elim [] fun b => [(name, .ofByte b)]

def toJson : Record → Json
  | .failed bus address error =>
    .object (optionalMember "bus" bus ++ optionalMember "address" address ++
      [("error", .string error)])
  | .device d => d.toJson

def ofJson (j : Json) : Record :=
  match j.member? "error" with
  | some _ => .failed (j.byteAt? "bus") (j.byteAt? "address") (j.textAt "error")
  | none => .device (.ofJson j)

def parse (text : String) : Except Json.Fault Record := (shape.parse text).map ofJson

end Record

namespace Dump

def shape : Shape :=
  .record "SystemDump" openLayout
    [.mk "devices" true (.list Record.shape), .mk "drivers" false (.table (.text "a string")),
      .mk "maxchild" false (.table .byte)]

def toJson (d : Dump) : Json :=
  .object [("devices", .array (d.devices.map Record.toJson)),
    ("drivers", .object (d.drivers.entries.map fun e => (e.1, .string e.2))),
    ("maxchild", .object (d.portCounts.entries.map fun e => (e.1, .ofByte e.2)))]

def ofJson (j : Json) : Dump where
  devices := (j.elementsAt "devices").map Record.ofJson
  drivers := .ofList ((j.membersAt "drivers").map fun m => (m.1, m.2.text?.getD ""))
  portCounts := .ofList ((j.membersAt "maxchild").map fun m => (m.1, m.2.byte?.getD 0))

def parse (text : String) : Except Json.Fault Dump := (shape.parse text).map ofJson

end Dump

end UsbTopology
