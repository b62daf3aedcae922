import UsbTopology.Run

set_option autoImplicit false

/-!
# What is noted

What ends a run or costs it a device is reported; notes only say how the run went. So no note is an
error, and a run that was not asked for more shows none (`logText_eq_empty`).
-/
namespace UsbTopology

/-- Notes that the most severe level leaves out. -/
def Minor (records : List LogRecord) : Prop := ∀ r ∈ records, r.level ≠ .error

section

variable {r : LogRecord} {xs ys : List LogRecord} {ι : Type} {indices : List ι}
  {f : ι → List LogRecord}

@[simp] theorem minor_nil : Minor [] := nofun

@[simp] theorem minor_cons : Minor (r :: xs) ↔ r.level ≠ .error ∧ Minor xs := List.forall_mem_cons

@[simp] theorem minor_append : Minor (xs ++ ys) ↔ Minor xs ∧ Minor ys := List.forall_mem_append

@[simp] theorem minor_flatMap : Minor (indices.flatMap f) ↔ ∀ x ∈ indices, Minor (f x) :=
  List.forall_mem_flatMap

end

theorem LogLevel.rank_pos {level : LogLevel} (h : level ≠ .error) : 0 < level.rank := by
  cases level with
  | error => exact absurd rfl h
  | warn | info | debug | trace => decide

theorem LogRecord.admitted_error {records : List LogRecord} (h : Minor records) :
    admitted (some .error) records = [] := by
  apply List.filter_eq_nil_iff.2
  intro r hr
  have hrank := LogLevel.rank_pos (h r hr)
  simpa [LogLevel.rank] using Nat.ne_of_gt hrank

theorem Config.minor_userNote (fs : FileSystem) (env : Environment) : Minor [userNote fs env] := by
  unfold userNote
  split <;> simp

theorem Sysfs.minor_note (s : Sysfs) (q : SideQuery) : Minor (s.note q) := by
  unfold note
  split <;> split <;> simp

theorem Tree.minor_buildLog {note : SideQuery → List LogRecord} (hnote : ∀ q, Minor (note q))
    (names : ClassNames) (side : SideData) (probes : List Probe) :
    Minor (buildLog note names side probes) := by
  rw [buildLog, minor_append, minor_flatMap]
  constructor
  · rintro ⟨p, i⟩ _
    cases p with
    | ok d => exact minor_flatMap.2 fun q _ => hnote q
    | error f => simp [skipNote]
  · intro r hr
    obtain ⟨e, _, rfl⟩ := List.mem_map.1 hr
    simp [Entry.placementNote]

theorem Source.minor_reportLog {s : Source} (hnote : ∀ q, Minor (s.note q)) (json : Bool)
    (names : ClassNames) : Minor (s.reportLog json names) := by
  unfold reportLog
  split
  · exact minor_flatMap.2 fun q _ => hnote q
  · exact Tree.minor_buildLog hnote names s.side s.probes

theorem exists_of_map_eq_ok {ε α β : Type} {f : α → β} {x : Except ε α} {b : β}
    (h : x.map f = .ok b) : ∃ a, f a = b := by
  cases x with
  | error e => cases h
  | ok a => exact ⟨a, Except.ok.inj h⟩

namespace Settings

variable {s : Settings} {host : Host}

theorem minor_note_of_source {c : Config} {source : Source} (h : s.source host c = .ok source)
    (q : SideQuery) : Minor (source.note q) := by
  unfold Settings.source at h
  split at h
  · obtain ⟨dump, rfl⟩ := exists_of_map_eq_ok h
    exact minor_nil
  · obtain ⟨probes, rfl⟩ := exists_of_map_eq_ok h
    exact Sysfs.minor_note _ q

theorem minor_log (s : Settings) (host : Host) : Minor (s.log host) := by
  rw [log, minor_append]
  constructor
  · unfold configurationLog
    split
    · exact minor_nil
    · exact Config.minor_userNote _ _
  · split
    · exact minor_nil
    · refine minor_cons.2 ⟨by simp, ?_⟩
      split
      · exact minor_nil
      · next source hsource =>
        exact Source.minor_reportLog (minor_note_of_source hsource) _ _

theorem threshold_eq_error {env : Environment} (hdebug : s.debug = 0)
    (hlevel : env.logLevel? = none) : s.threshold env = some .error := by
  rw [threshold, hdebug, hlevel]
  rfl

/-- A run that neither an option nor the environment asks for notes shows none. -/
theorem logText_eq_empty (hdebug : s.debug = 0) (hlevel : host.environment.logLevel? = none) :
    s.logText host = "" := by
  rw [logText, threshold_eq_error hdebug hlevel, LogRecord.admitted_error (minor_log s host)]
  rfl

end Settings

end UsbTopology
