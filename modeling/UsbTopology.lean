import UsbTopology.ClassCode
import UsbTopology.ClassNames
import UsbTopology.CommandLine
import UsbTopology.CommandLine.Usage
import UsbTopology.Config
import UsbTopology.Device
import UsbTopology.Dump
import UsbTopology.Dump.Capture
import UsbTopology.Dump.File
import UsbTopology.Dump.Format
import UsbTopology.Fault
import UsbTopology.FileSystem
import UsbTopology.FileSystem.Change
import UsbTopology.FileSystem.Path
import UsbTopology.Json
import UsbTopology.Json.Container
import UsbTopology.Json.Cursor
import UsbTopology.Json.Fault
import UsbTopology.Json.Numeral
import UsbTopology.Json.Printer
import UsbTopology.Json.Quotation
import UsbTopology.Json.Shape
import UsbTopology.Json.Skip
import UsbTopology.Json.Value
import UsbTopology.Json.Word
import UsbTopology.Location
import UsbTopology.Location.Name
import UsbTopology.Log
import UsbTopology.Main
import UsbTopology.Number.Binary64
import UsbTopology.Number.Shortest
import UsbTopology.Run
import UsbTopology.SideData
import UsbTopology.Source
import UsbTopology.Speed
import UsbTopology.Sysfs
import UsbTopology.Table
import UsbTopology.Text.Blank
import UsbTopology.Text.Control
import UsbTopology.Text.Hex
import UsbTopology.Text.Line
import UsbTopology.Text.Quoted
import UsbTopology.Text.Similarity
import UsbTopology.Text.Unprinted
import UsbTopology.Text.Utf8
import UsbTopology.Tree
import UsbTopology.Tree.Entry
import UsbTopology.Proofs.Device
import UsbTopology.Proofs.Log
import UsbTopology.Proofs.Tree.Arrangement
import UsbTopology.Proofs.Tree.Reordering
import UsbTopology.Proofs.Tree.Walk
import UsbTopology.Proofs.Text.Decimal
import UsbTopology.Proofs.Text.Line
import UsbTopology.Proofs.Tree.Line
import UsbTopology.Proofs.Tree.Outline
import UsbTopology.Proofs.Location.Name
import UsbTopology.Proofs.Table
import UsbTopology.Proofs.Dump.Capture
import UsbTopology.Proofs.Dump.Probes
import UsbTopology.Proofs.Dump.Recapture
import UsbTopology.Proofs.Json.Numeral
import UsbTopology.Proofs.Json.Printer
import UsbTopology.Proofs.Json.Value
import UsbTopology.Proofs.Json.Shape
import UsbTopology.Proofs.Dump.Format
import UsbTopology.Proofs.Run
import UsbTopology.Proofs.Tree.Failure
import UsbTopology.Proofs.Location.Subtree
import UsbTopology.Proofs.FileSystem.Path
import UsbTopology.Proofs.Location.Decoding
import UsbTopology.Proofs.Location.Node
import UsbTopology.Proofs.Tree.Assembly
import UsbTopology.Proofs.Tree.Layout
import UsbTopology.Proofs.Tree.LineFeed
import UsbTopology.Proofs.Dump.Contents
import UsbTopology.Proofs.Dump.Edit
import UsbTopology.Proofs.Json.Grammar
import UsbTopology.Proofs.Json.Reading
import UsbTopology.Proofs.Json.Exactness
import UsbTopology.Proofs.Json.Form
import UsbTopology.Proofs.Json.Decimal
import UsbTopology.Proofs.Json.ByteName
import UsbTopology.Proofs.Json.Closed
import UsbTopology.Proofs.Config
import UsbTopology.Proofs.Config.Printed
import UsbTopology.Proofs.Dump.Form
import UsbTopology.Proofs.Dump.Classification
import UsbTopology.Proofs.Dump.Presentation
import UsbTopology.Proofs.Text.Hex
import UsbTopology.Proofs.Location.Text
import UsbTopology.Proofs.Text.Blank
import UsbTopology.Proofs.Text.Decoding
import UsbTopology.Proofs.FileSystem.Ending
import UsbTopology.Proofs.Sysfs
