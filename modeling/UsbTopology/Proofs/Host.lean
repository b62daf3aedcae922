import UsbTopology.Run

set_option autoImplicit false

/-!
# What a run finds

What the files and the environment of a host hold for a run: a configuration or the report of what
is wrong with it, and a dump or the report of what is wrong with that.
-/
namespace UsbTopology

/-- The home directory: the one that the environment names, or else the account's. -/
inductive HomeDirectory (env : Environment) : Path → Prop where
  | named {p : Path} (h : env.home? = some p) (ne_empty : p.bytes ≠ []) : HomeDirectory env p
  | account {p : Path} (unnamed : ∀ q, env.home? = some q → q.bytes = [])
      (h : env.accountHome? = some p) (ne_empty : p.bytes ≠ []) : HomeDirectory env p

/-- The user's configuration directory: an absolute path counts before the home directory. -/
inductive UserDirectory (env : Environment) : Path → Prop where
  | configured {p : Path} (h : env.configHome? = some p) (absolute : p.isAbsolute = true) :
      UserDirectory env p
  | home {p : Path} (unconfigured : ∀ q, env.configHome? = some q → q.isAbsolute = false)
      (home : HomeDirectory env p) : UserDirectory env (p.join (.ofString ".config"))

def UserFile (env : Environment) (p : Path) : Prop :=
  ∃ directory, UserDirectory env directory ∧
    p = (directory.join (.ofString "usbtree")).join (.ofString "usbtree.json")

namespace Config

variable {env : Environment} {p : Path}

theorem homeDirectory?_eq_some_iff : homeDirectory? env = some p ↔ HomeDirectory env p := by
  have hunnamed : env.home?.filter (fun q => q.bytes ≠ []) = none ↔
      ∀ q, env.home? = some q → q.bytes = [] := by
    simp [Option.filter_eq_none_iff]
  rw [homeDirectory?, Option.or_eq_some_iff, hunnamed]
  simp only [Option.filter_eq_some_iff, decide_eq_true_iff]
  constructor
  · rintro (⟨h, hne⟩ | ⟨hnone, h, hne⟩)
    · exact .named h hne
    · exact .account hnone h hne
  · rintro (⟨h, hne⟩ | ⟨hnone, h, hne⟩)
    · exact .inl ⟨h, hne⟩
    · exact .inr ⟨hnone, h, hne⟩

theorem userDirectory?_eq_some_iff : userDirectory? env = some p ↔ UserDirectory env p := by
  have hunconfigured : env.configHome?.filter Path.isAbsolute = none ↔
      ∀ q, env.configHome? = some q → q.isAbsolute = false := by
    simp [Option.filter_eq_none_iff]
  rw [userDirectory?, Option.or_eq_some_iff, hunconfigured]
  simp only [Option.filter_eq_some_iff, Option.map_eq_some_iff, homeDirectory?_eq_some_iff]
  constructor
  · rintro (⟨h, habsolute⟩ | ⟨hnone, home, hhome, rfl⟩)
    · exact .configured h habsolute
    · exact .home hnone hhome
  · rintro (⟨h, habsolute⟩ | ⟨hnone, hhome⟩)
    · exact .inl ⟨h, habsolute⟩
    · exact .inr ⟨hnone, _, hhome, rfl⟩

theorem userPath?_eq_some_iff : userPath? env = some p ↔ UserFile env p := by
  rw [userPath?, Option.map_eq_some_iff]
  simp only [userDirectory?_eq_some_iff]
  exact exists_congr fun _ => and_congr_right fun _ => eq_comm

theorem foundPath?_eq_some_iff {files : FileSystem} :
    foundPath? files env = some p ↔ UserFile env p ∧ files.existsAt p = true := by
  rw [foundPath?, Option.filter_eq_some_iff, userPath?_eq_some_iff]

end Config

namespace Host

/-- The file of a run's configuration: the one that was named, or else the user's, if it exists. -/
inductive ConfigFile (host : Host) (config? : Option String) : Path → Prop where
  | named {name : String} (h : config? = some name) : ConfigFile host config? (.ofString name)
  | user {p : Path} (unnamed : config? = none) (h : UserFile host.environment p)
      (there : host.files.existsAt p = true) : ConfigFile host config? p

/-- The configuration of a run, as its file has it. -/
inductive Configured (host : Host) (config? : Option String) : Config → Prop where
  | unset (h : ∀ p, ¬ host.ConfigFile config? p) : Configured host config? ⟨none, .empty⟩
  | file {p : Path} {text : String} {c : Config} (file : host.ConfigFile config? p)
      (read : host.files.readText p = .ok text) (parsed : Config.parse text = .ok c) :
      Configured host config? c

/-- The report of a run that has no configuration. -/
inductive Misconfigured (host : Host) (config? : Option String) : String → Prop where
  | unread {p : Path} {f : IoFault} (file : host.ConfigFile config? p)
      (h : host.files.readText p = .error f) :
      Misconfigured host config? ("Io Error: " ++ f.message)
  | unparsed {p : Path} {text : String} {f : Json.Fault} (file : host.ConfigFile config? p)
      (read : host.files.readText p = .ok text) (h : Config.parse text = .error f) :
      Misconfigured host config?
        ("Config Error: " ++
          ("Failed to parse config at " ++ p.quoted ++ "; Error(" ++ f.message ++ ")"))

inductive Loaded (host : Host) (fromJson? : Option String) : Dump → Prop where
  | file {name text : String} {dump : Dump} (named : fromJson? = some name)
      (read : host.files.readText (.ofString name) = .ok text)
      (parsed : Dump.parse text = .ok dump) : Loaded host fromJson? dump

/-- The report of a run that has no dump. -/
inductive Unloaded (host : Host) (fromJson? : Option String) : String → Prop where
  | unnamed (h : fromJson? = none) : Unloaded host fromJson?
      ("Unable to enumerate USB devices: libusb feature is required to do this, " ++
        "install with `cargo install --features libusb`")
  | unread {name : String} {f : IoFault} (named : fromJson? = some name)
      (h : host.files.readText (.ofString name) = .error f) :
      Unloaded host fromJson? ("Io Error: " ++ f.message)
  | unparsed {name text : String} {f : Json.Fault} (named : fromJson? = some name)
      (read : host.files.readText (.ofString name) = .ok text) (h : Dump.parse text = .error f) :
      Unloaded host fromJson?
        ("Parsing Error: " ++
          ("Failed to parse dump at " ++ Text.quote name ++ "; Error(" ++ f.message ++ ")"))

/-- A host on which a run finds the same class names and the same dump, whatever else there is. -/
structure Alike (s : Settings) (host host' : Host) : Prop where
  registered : host'.registered = host.registered
  configured : ∀ c, host.Configured s.config? c →
    ∃ c', host'.Configured s.config? c' ∧ c'.classNames = c.classNames
  misconfigured : ∀ report, host.Misconfigured s.config? report →
    host'.Misconfigured s.config? report
  dump : ∀ name, s.fromJson? = some name →
    host'.files.readText (.ofString name) = host.files.readText (.ofString name)

theorem Alike.refl (s : Settings) (host : Host) : host.Alike s host :=
  ⟨rfl, fun c h => ⟨c, h, rfl⟩, fun _ h => h, fun _ _ => rfl⟩

section

variable {s : Settings} {host host' : Host} (halike : host.Alike s host')
include halike

theorem Alike.loaded {dump : Dump} (h : host.Loaded s.fromJson? dump) :
    host'.Loaded s.fromJson? dump := by
  obtain ⟨hname, hread, hparse⟩ := h
  exact .file hname (by rw [halike.dump _ hname, hread]) hparse

theorem Alike.unloaded {report : String} (h : host.Unloaded s.fromJson? report) :
    host'.Unloaded s.fromJson? report := by
  rcases h with hname | ⟨hname, hread⟩ | ⟨hname, hread, hparse⟩
  · exact .unnamed hname
  · exact .unread hname (by rw [halike.dump _ hname, hread])
  · exact .unparsed hname (by rw [halike.dump _ hname, hread]) hparse

end

theorem configured_or_misconfigured (host : Host) (config? : Option String) :
    (∃ c, host.Configured config? c) ∨ ∃ report, host.Misconfigured config? report := by
  by_cases hfile : ∃ p, host.ConfigFile config? p
  · obtain ⟨p, hp⟩ := hfile
    cases hread : host.files.readText p with
    | error f => exact .inr ⟨_, .unread hp hread⟩
    | ok text =>
      cases hparse : Config.parse text with
      | error f => exact .inr ⟨_, .unparsed hp hread hparse⟩
      | ok c => exact .inl ⟨c, .file hp hread hparse⟩
  · exact .inl ⟨_, .unset fun p hp => hfile ⟨p, hp⟩⟩

theorem loaded_or_unloaded (host : Host) (fromJson? : Option String) :
    (∃ dump, host.Loaded fromJson? dump) ∨ ∃ report, host.Unloaded fromJson? report := by
  cases hname : fromJson? with
  | none => exact .inr ⟨_, .unnamed rfl⟩
  | some name =>
    cases hread : host.files.readText (.ofString name) with
    | error f => exact .inr ⟨_, .unread rfl hread⟩
    | ok text =>
      cases hparse : Dump.parse text with
      | error f => exact .inr ⟨_, .unparsed rfl hread hparse⟩
      | ok dump => exact .inl ⟨dump, .file rfl hread hparse⟩

end Host

end UsbTopology
