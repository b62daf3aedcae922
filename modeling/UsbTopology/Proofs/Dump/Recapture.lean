import UsbTopology.Proofs.Dump.Capture
import UsbTopology.Proofs.Dump.Format
import UsbTopology.Proofs.Dump.Probes

set_option autoImplicit false

/-!
# Capturing a dump again

A dump can be captured from what another dump stands for. The first time its faults lose their kind
and place, and its tables all that no device asks for; after that nothing changes any more
(`recapture_recapture`).
-/
namespace UsbTopology.Dump

def recapture (d : Dump) : Dump := capture d.probes d.sideData

section

variable {probes : List Probe} (side : SideData) (hvalid : ∀ d, .ok d ∈ probes → d.validate = .ok d)
include hvalid

theorem probedDevices_capture :
    probedDevices (capture probes side).probes = probedDevices probes := by
  rw [← Tree.map_fst_indexedDevices, indexedDevices_capture side hvalid,
    Tree.map_fst_indexedDevices]

theorem devices_recapture_capture :
    (capture probes side).recapture.devices = (capture probes side).devices := by
  change (capture probes side).probes.map Record.ofProbe = probes.map Record.ofProbe
  rw [probes_capture side hvalid, List.map_map]
  apply List.map_congr_left
  intro p _
  cases p <;> rfl

theorem drivers_recapture_capture :
    (capture probes side).recapture.drivers = (capture probes side).drivers := by
  have hasked : askedInterfaces (capture probes side).probes = askedInterfaces probes := by
    rw [askedInterfaces, askedInterfaces, probedDevices_capture side hvalid]
  rw [recapture, drivers_capture, hasked, drivers_capture probes side]
  refine congrArg Table.ofList (List.filterMap_congr fun x hx => ?_)
  obtain ⟨d, hd, hx⟩ := List.mem_flatMap.1 hx
  obtain ⟨i, hi, rfl⟩ := List.mem_map.1 hx
  rw [driver_capture side hvalid (Tree.mem_probedDevices.1 hd) hi]

theorem portCounts_recapture_capture :
    (capture probes side).recapture.portCounts = (capture probes side).portCounts := by
  rw [recapture, portCounts_capture, probedDevices_capture side hvalid,
    portCounts_capture probes side]
  refine congrArg Table.ofList (List.filterMap_congr fun l hl => ?_)
  obtain ⟨d, hd, rfl⟩ := List.mem_map.1 hl
  rw [portCount_capture side hvalid (Tree.mem_probedDevices.1 hd)]

/-- A captured dump answers all that is asked to capture it. -/
theorem recapture_capture : (capture probes side).recapture = capture probes side := by
  let c := capture probes side
  calc
    c.recapture = ⟨c.recapture.devices, c.recapture.drivers, c.recapture.portCounts⟩ := rfl
    _ = ⟨c.devices, c.drivers, c.portCounts⟩ := by
      rw [devices_recapture_capture side hvalid, drivers_recapture_capture side hvalid,
        portCounts_recapture_capture side hvalid]
    _ = c := rfl

end

/-- A dump that was captured from a dump is captured from itself, and so is its text. -/
theorem recapture_recapture (d : Dump) :
    d.recapture.recapture = d.recapture ∧
      (parse d.recapture.toJson.pretty).map (fun e => e.recapture.toJson.pretty) =
        .ok d.recapture.toJson.pretty := by
  have hfixed : d.recapture.recapture = d.recapture :=
    recapture_capture d.sideData fun _ => validate_of_mem_probes
  refine ⟨hfixed, ?_⟩
  rw [parse_pretty, Except.map, hfixed]

end UsbTopology.Dump
