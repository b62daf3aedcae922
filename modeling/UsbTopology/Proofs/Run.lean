import Mathlib.Data.List.Basic
import UsbTopology.Proofs.Host
import UsbTopology.Proofs.Log

set_option autoImplicit false

/-!
# How a run ends

A run finds its configuration and then the dump that it reads its devices from. If both are there,
the run shows all of it, the devices that failed among the diagnostics; if one is not, a report of
the first fault is all that is shown (`ofArguments_allOrNothing`).
-/
namespace UsbTopology

/-- A computation ends in a fault that is reported so. -/
def FailsWith {α : Type} (x : Except Fault α) (report : String) : Prop :=
  ∃ f, x = .error f ∧ f.farewell = report ++ "\n"

theorem FailsWith.bind {α β : Type} {x : Except Fault α} {report : String}
    (h : FailsWith x report) (g : α → Except Fault β) : FailsWith (x >>= g) report := by
  obtain ⟨f, rfl, hreport⟩ := h
  exact ⟨f, rfl, hreport⟩

theorem farewell_report {f : Fault} (hunsupported : f.kind ≠ .unsupported)
    (hlibUsb : f.kind ≠ .libUsb) : f.farewell = f.report ++ "\n" := by
  unfold Fault.farewell
  split
  · next h => exact absurd h hunsupported
  · next h => exact absurd h hlibUsb
  · rfl

theorem failsWith_io {α : Type} (f : IoFault) :
    FailsWith (.error f.toFault : Except Fault α) ("Io Error: " ++ f.message) :=
  ⟨_, rfl, farewell_report nofun nofun⟩

namespace Settings

variable {s : Settings} {host : Host}

theorem configuration_of_file {p : Path} (h : host.ConfigFile s.config? p) :
    s.configuration host = Config.ofFile host.files p >>= fun c =>
      .ok { c with sysfsRoot := s.sysfsRoot?.or c.sysfsRoot } := by
  rw [configuration]
  rcases h with @⟨name, hname⟩ | ⟨hnone, huser, hthere⟩
  · rw [hname]
    rfl
  · rw [hnone, Config.ofUser, Config.foundPath?_eq_some_iff.2 ⟨huser, hthere⟩]
    rfl

theorem configuration_of_no_file (h : ∀ p, ¬ host.ConfigFile s.config? p) :
    s.configuration host = .ok ⟨s.sysfsRoot?.or none, .empty⟩ := by
  have hunnamed : s.config? = none :=
    Option.eq_none_iff_forall_ne_some.2 fun name hname => h _ (.named hname)
  have hfound : Config.foundPath? host.files host.environment = none := by
    refine Option.eq_none_iff_forall_ne_some.2 fun p hp => ?_
    obtain ⟨huser, hthere⟩ := Config.foundPath?_eq_some_iff.1 hp
    exact h p (.user hunnamed huser hthere)
  rw [configuration, hunnamed, Config.ofUser, hfound]
  rfl

theorem configuration_of_configured {c : Config} (h : host.Configured s.config? c) :
    s.configuration host = .ok { c with sysfsRoot := s.sysfsRoot?.or c.sysfsRoot } := by
  rcases h with h | ⟨hfile, hread, hparse⟩
  · exact configuration_of_no_file h
  · rw [configuration_of_file hfile, Config.ofFile, FileSystem.readAs_of_ok hread, hparse]
    rfl

theorem configuration_of_misconfigured {report : String}
    (h : host.Misconfigured s.config? report) : FailsWith (s.configuration host) report := by
  rcases h with ⟨hfile, hread⟩ | ⟨hfile, hread, hparse⟩
  · rw [configuration_of_file hfile, Config.ofFile, FileSystem.readAs_of_error hread]
    exact (failsWith_io _).bind _
  · rw [configuration_of_file hfile, Config.ofFile, FileSystem.readAs_of_ok hread, hparse]
    exact ⟨⟨.config, _⟩, rfl, farewell_report nofun nofun⟩

theorem source_of_loaded {dump : Dump} (h : host.Loaded s.fromJson? dump) (c : Config) :
    s.source host c = .ok (.ofDump dump) := by
  obtain ⟨hname, hread, hparse⟩ := h
  rw [source, hname]
  simp only [Dump.ofFile, FileSystem.readAs_of_ok hread, hparse]
  rfl

theorem source_of_unloaded (hprobes : host.probes = Host.unlisted) {report : String}
    (h : host.Unloaded s.fromJson? report) (c : Config) : FailsWith (s.source host c) report := by
  rw [source]
  rcases h with hname | ⟨hname, hread⟩ | ⟨hname, hread, hparse⟩
  · rw [hname, hprobes]
    exact ⟨_, rfl, rfl⟩
  · rw [hname]
    simp only [Dump.ofFile, FileSystem.readAs_of_error hread]
    exact failsWith_io _
  · rw [hname]
    simp only [Dump.ofFile, FileSystem.readAs_of_ok hread, hparse]
    exact ⟨⟨.parsing, _⟩, rfl, farewell_report nofun nofun⟩

theorem report_of_misconfigured {report : String} (h : host.Misconfigured s.config? report) :
    FailsWith (s.report host) report :=
  (configuration_of_misconfigured h).bind _

section

variable {c : Config} (hconfigured : host.Configured s.config? c)
include hconfigured

theorem report_of_unloaded (hprobes : host.probes = Host.unlisted) {report : String}
    (h : host.Unloaded s.fromJson? report) : FailsWith (s.report host) report := by
  rw [Settings.report, configuration_of_configured hconfigured]
  exact (source_of_unloaded hprobes h _).bind _

theorem report_of_loaded {dump : Dump} (h : host.Loaded s.fromJson? dump) :
    s.report host = .ok ((Source.ofDump dump).report s.json (c.names host.registered)) := by
  rw [Settings.report, configuration_of_configured hconfigured]
  change s.source host _ >>= _ = _
  rw [source_of_loaded h]
  rfl

end

end Settings

namespace Outcome

def faultLine? : Probe → Option String
  | .ok _ => none
  | .error f => some (f.message ++ "\n")

theorem map_faultsOf (probes : List Probe) :
    (Tree.faultsOf probes).map (fun f => f.message ++ "\n") = probes.filterMap faultLine? := by
  rw [Tree.faultsOf, List.map_filterMap]
  refine List.filterMap_congr fun p _ => ?_
  cases p <;> rfl

/-- A run shows everything or nothing, and which of them the configuration decides first. -/
structure AllOrNothing (s : Settings) (host : Host) (o : Outcome) : Prop where
  misconfigured : ∀ report, host.Misconfigured s.config? report → o = ⟨1, "", report ++ "\n"⟩
  unloaded : ∀ c report, host.Configured s.config? c → host.Unloaded s.fromJson? report →
    o = ⟨1, "", report ++ "\n"⟩
  tree : ∀ c dump, host.Configured s.config? c → host.Loaded s.fromJson? dump → s.json = false →
    o = ⟨0, (Tree.build (c.names host.registered) dump.sideData dump.probes).text,
      String.join (dump.probes.filterMap faultLine?)⟩
  dump : ∀ c dump, host.Configured s.config? c → host.Loaded s.fromJson? dump → s.json = true →
    o = ⟨0, (Dump.capture dump.probes dump.sideData).toJson.pretty ++ "\n", ""⟩
  code_eq_zero_iff : o.code = 0 ↔
    (∃ c, host.Configured s.config? c) ∧ ∃ dump, host.Loaded s.fromJson? dump
  failed : o.code ≠ 0 → ∃ report, o = ⟨1, "", report ++ "\n"⟩ ∧
    (host.Misconfigured s.config? report ∨
      (∃ c, host.Configured s.config? c) ∧ host.Unloaded s.fromJson? report)

section

variable {s : Settings} {host : Host} (hdebug : s.debug = 0)
  (hlevel : host.environment.logLevel? = none)
include hdebug hlevel

theorem ofSettings_of_failsWith {report : String} (h : FailsWith (s.report host) report) :
    ofSettings host s = ⟨1, "", report ++ "\n"⟩ := by
  obtain ⟨f, hf, hreport⟩ := h
  rw [ofSettings, hf]
  simp only [Settings.logText_eq_empty hdebug hlevel, String.empty_append, hreport]

theorem ofSettings_of_report {r : Report} (h : s.report host = .ok r) :
    ofSettings host s =
      ⟨0, r.output, String.join (r.faults.map fun f => f.message ++ "\n")⟩ := by
  rw [ofSettings, h]
  simp only [Settings.logText_eq_empty hdebug hlevel, String.empty_append]

theorem allOrNothing_ofSettings (hprobes : host.probes = Host.unlisted) :
    AllOrNothing s host (ofSettings host s) := by
  have hmisconfigured : ∀ report, host.Misconfigured s.config? report →
      ofSettings host s = ⟨1, "", report ++ "\n"⟩ := fun report h =>
    ofSettings_of_failsWith hdebug hlevel (Settings.report_of_misconfigured h)
  have hunloaded : ∀ c report, host.Configured s.config? c → host.Unloaded s.fromJson? report →
      ofSettings host s = ⟨1, "", report ++ "\n"⟩ := fun c report hc h =>
    ofSettings_of_failsWith hdebug hlevel (Settings.report_of_unloaded hc hprobes h)
  have hloaded : ∀ c dump, host.Configured s.config? c → host.Loaded s.fromJson? dump →
      ofSettings host s = _ := fun c dump hc h =>
    ofSettings_of_report hdebug hlevel (Settings.report_of_loaded hc h)
  refine ⟨hmisconfigured, hunloaded, ?_, ?_, ?_, ?_⟩
  · intro c dump hc hd hjson
    rw [hloaded c dump hc hd, hjson, ← map_faultsOf]
    rfl
  · intro c dump hc hd hjson
    rw [hloaded c dump hc hd, hjson]
    rfl
  · constructor
    · intro hcode
      rcases host.configured_or_misconfigured s.config? with ⟨c, hc⟩ | ⟨report, hreport⟩
      · rcases host.loaded_or_unloaded s.fromJson? with hd | ⟨report, hreport⟩
        · exact ⟨⟨c, hc⟩, hd⟩
        · rw [hunloaded c report hc hreport] at hcode
          cases hcode
      · rw [hmisconfigured report hreport] at hcode
        cases hcode
    · rintro ⟨⟨c, hc⟩, dump, hd⟩
      rw [hloaded c dump hc hd]
  · intro hcode
    rcases host.configured_or_misconfigured s.config? with ⟨c, hc⟩ | ⟨report, hreport⟩
    · rcases host.loaded_or_unloaded s.fromJson? with ⟨dump, hd⟩ | ⟨report, hreport⟩
      · rw [hloaded c dump hc hd] at hcode
        exact absurd rfl hcode
      · exact ⟨report, hunloaded c report hc hreport, .inr ⟨⟨c, hc⟩, hreport⟩⟩
    · exact ⟨report, hmisconfigured report hreport, .inl hreport⟩

end

theorem AllOrNothing.eq_of_alike {s : Settings} {root? : Option String} {host host' : Host}
    {o o' : Outcome} (h : AllOrNothing s host o)
    (h' : AllOrNothing { s with sysfsRoot? := root? } host' o') (halike : host.Alike s host') :
    o' = o := by
  rcases host.configured_or_misconfigured s.config? with ⟨c, hc⟩ | ⟨report, hreport⟩
  · obtain ⟨c', hc', hnames⟩ := halike.configured c hc
    have hsame : c'.names host'.registered = c.names host.registered := by
      rw [Config.names, Config.names, hnames, halike.registered]
    rcases host.loaded_or_unloaded s.fromJson? with ⟨dump, hd⟩ | ⟨report, hreport⟩
    · cases hjson : s.json with
      | false =>
        rw [h.tree c dump hc hd hjson, h'.tree c' dump hc' (halike.loaded hd) hjson, hsame]
      | true => rw [h.dump c dump hc hd hjson, h'.dump c' dump hc' (halike.loaded hd) hjson]
    · rw [h.unloaded c report hc hreport, h'.unloaded c' report hc' (halike.unloaded hreport)]
  · rw [h.misconfigured report hreport,
      h'.misconfigured report (halike.misconfigured report hreport)]

/-- A command line that only asks for a run shows all of a dump or one report. What it shows depends
on nothing but the class names of the configuration and the dump, wherever the nodes are. -/
theorem ofArguments_allOrNothing {host : Host} {arguments : List String} {s : Settings}
    (hrun : Command.ofArguments arguments = .ok (.run s)) (hdebug : s.debug = 0)
    (hlevel : host.environment.logLevel? = none) (hprobes : host.probes = Host.unlisted) :
    AllOrNothing s host (ofArguments host arguments) ∧
      ∀ host' arguments' root?,
        Command.ofArguments arguments' = .ok (.run { s with sysfsRoot? := root? }) →
        host'.environment.logLevel? = none → host'.probes = Host.unlisted →
        host.Alike s host' → ofArguments host' arguments' = ofArguments host arguments := by
  have hshown : AllOrNothing s host (ofArguments host arguments) := by
    rw [ofArguments, hrun]
    exact allOrNothing_ofSettings hdebug hlevel hprobes
  refine ⟨hshown, fun host' arguments' root? hrun' hlevel' hprobes' halike => ?_⟩
  have hshown' :
      AllOrNothing { s with sysfsRoot? := root? } host' (ofArguments host' arguments') := by
    rw [ofArguments, hrun']
    exact allOrNothing_ofSettings hdebug hlevel' hprobes'
  exact hshown.eq_of_alike hshown' halike

def deskDump : Dump :=
  ⟨[.device ⟨1, [], 1, .unknown, []⟩, .device ⟨1, [0], 9, .unknown, []⟩,
    .device ⟨1, [2], 4, .high, [⟨1, [⟨8, 0, 0⟩]⟩]⟩], .empty, .empty⟩

def deskDumpText : String :=
  "\x7b\"devices\":[\x7b\"bus\":1,\"address\":1\x7d,\x7b\"bus\":1,\"ports\":[0]," ++
    "\"address\":9\x7d,\x7b\"bus\":1,\"ports\":[2],\"address\":4,\"speed\":\"high_speed\"," ++
    "\"configurations\":[\x7b\"number\":1,\"interfaces\":[\x7b\"class\":8\x7d]\x7d]\x7d]\x7d"

def deskConfig : Config := ⟨none, Table.empty.insert 8 "Disk"⟩

def deskConfigText : String := "\x7b\"class-names\":\x7b\"8\":\"Disk\"\x7d\x7d"

/-- A home directory with a configuration, and a directory with a dump and a file that cannot be
read. -/
def deskHost : Host where
  files :=
    let home := ["home", "user", ".config", "usbtree"].map Text.encode
    ⟨[(home.take 1, .directory), (home.take 2, .directory), (home.take 3, .directory),
      (home, .directory),
      (home ++ [Text.encode "usbtree.json"], .file (Text.encode deskConfigText)),
      ([Text.encode "desk"], .directory),
      ([Text.encode "desk", Text.encode "dump.json"], .file (Text.encode deskDumpText)),
      ([Text.encode "desk", Text.encode "locked.json"], .unreadable .denied)],
      [Text.encode "desk"]⟩
  environment := ⟨some (.ofString "/home/user"), none, none, none⟩
  registered := .registered
  probes := Host.unlisted

theorem configured_deskHost : deskHost.Configured none deskConfig := by
  have hhome : HomeDirectory deskHost.environment (.ofString "/home/user") :=
    .named rfl (by decide +kernel)
  have huser : UserFile deskHost.environment
      (.ofString "/home/user/.config/usbtree/usbtree.json") :=
    ⟨_, .home nofun hhome, by decide +kernel⟩
  have hfile := Host.ConfigFile.user rfl huser (by decide +kernel)
  exact @Host.Configured.file _ _ _ deskConfigText _ hfile (by decide +kernel) (by decide +kernel)

/-- Where the nodes are does not matter to a run that reads a dump, and a file that is missing or
cannot be read ends it with one line. -/
theorem ofArguments_allOrNothing_deskHost :
    ofArguments deskHost ["--from-json", "dump.json", "--sysfs-root", "nodes"] =
        ⟨0, "/:  Bus 01.Port 1: Dev 1, Class=root_hub, Driver=Unknown/0p, UnknownM\n" ++
          "    |__ Port 2: Dev 4, If 0, Class=Disk, Driver=Unknown, 480M\n",
          "Port 0 of bus 1 device 9 is not in 1..=15\n"⟩ ∧
      ofArguments deskHost ["--from-json", "gone.json"] =
        ⟨1, "", "Io Error: No such file or directory (os error 2)\n"⟩ ∧
      ofArguments deskHost ["--from-json", "dump.json", "-c", "locked.json"] =
        ⟨1, "", "Io Error: Permission denied (os error 13)\n"⟩ := by
  have hlevel : deskHost.environment.logLevel? = none := rfl
  have hprobes : deskHost.probes = Host.unlisted := rfl
  refine ⟨?_, ?_, ?_⟩
  · have hrun : Command.ofArguments ["--from-json", "dump.json"] =
        .ok (.run ⟨none, some "dump.json", false, none, 0⟩) := by decide +kernel
    have hrun' : Command.ofArguments ["--from-json", "dump.json", "--sysfs-root", "nodes"] =
        .ok (.run ⟨none, some "dump.json", false, some "nodes", 0⟩) := by decide +kernel
    obtain ⟨hshown, hsame⟩ := ofArguments_allOrNothing hrun rfl hlevel hprobes
    have hloaded : deskHost.Loaded (some "dump.json") deskDump :=
      @Host.Loaded.file _ _ _ deskDumpText _ rfl (by decide +kernel) (by decide +kernel)
    have harranged : Entry.arrange (Tree.entriesOf (deskConfig.names .registered)
        deskDump.sideData deskDump.probes) = Tree.entriesOf (deskConfig.names .registered)
        deskDump.sideData deskDump.probes := List.mergeSort_of_pairwise (by decide +kernel)
    rw [hsame deskHost _ (some "nodes") hrun' hlevel hprobes (.refl _ _),
      hshown.tree _ _ configured_deskHost hloaded rfl, Tree.build, Tree.ofEntries]
    simp only [deskHost, harranged]
    decide +kernel
  · have hrun : Command.ofArguments ["--from-json", "gone.json"] =
        .ok (.run ⟨none, some "gone.json", false, none, 0⟩) := by decide +kernel
    have hmissing : deskHost.files.readText (.ofString "gone.json") = .error .noEntry := by
      decide +kernel
    obtain ⟨hshown, -⟩ := ofArguments_allOrNothing hrun rfl hlevel hprobes
    exact hshown.unloaded _ _ configured_deskHost (.unread rfl hmissing)
  · have hrun : Command.ofArguments ["--from-json", "dump.json", "-c", "locked.json"] =
        .ok (.run ⟨some "locked.json", some "dump.json", false, none, 0⟩) := by decide +kernel
    have hlocked : deskHost.files.readText (.ofString "locked.json") = .error .denied := by
      decide +kernel
    obtain ⟨hshown, -⟩ := ofArguments_allOrNothing hrun rfl hlevel hprobes
    exact hshown.misconfigured _ (.unread (.named rfl) hlocked)

end Outcome

end UsbTopology
