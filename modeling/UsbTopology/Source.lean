import UsbTopology.Dump.Capture
import UsbTopology.Sysfs
import UsbTopology.Tree

set_option autoImplicit false

/-!
# Sources

A source is what a tree is built from and a dump is captured from: probe results together with side
data. Only a running system leaves notes about side data that it does not have.
-/
namespace UsbTopology

structure Source where
  probes : List Probe
  side : SideData
  /-- What is noted when side data is asked a question. -/
  note : SideQuery → List LogRecord

namespace Source

def ofDump (d : Dump) : Source := ⟨d.probes, d.sideData, fun _ => []⟩

def ofSysfs (s : Sysfs) (probes : List Probe) : Source := ⟨probes, s.sideData, s.note⟩

def tree (s : Source) (names : ClassNames) : Tree := .build names s.side s.probes

def treeLog (s : Source) (names : ClassNames) : List LogRecord :=
  Tree.buildLog s.note names s.side s.probes

def dump (s : Source) : Dump := .capture s.probes s.side

def dumpLog (s : Source) : List LogRecord := (Dump.captureQueries s.probes).flatMap s.note

end Source

end UsbTopology
