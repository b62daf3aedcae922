import Mathlib.Data.List.Basic
import UsbTopology.Proofs.Tree.Line
import UsbTopology.Proofs.Tree.Walk

set_option autoImplicit false

/-!
# Reading a tree back

The start of a line marks a bus, or a level and the port on that level. Following the marks from
line to line keeps a place: a bus and the port path of the last line. In a tree where every device
has its hub, each line leads to the place of the device it belongs to.
-/
namespace UsbTopology

structure Spot where
  bus : UInt8
  path : List UInt8
deriving DecidableEq, Repr

def Device.spot (d : Device) : Spot := ⟨d.bus, d.ports⟩

/-- What the start of a line tells. -/
inductive Mark where
  | bus (b : UInt8)
  | port (level : Nat) (p : UInt8)
deriving DecidableEq, Repr

namespace Mark

/-- The mark of a line behind its word for the bus: a decimal byte and port 1. -/
def ofBusLine? (rest : List Char) : Option Mark :=
  let digits := rest.takeWhile Char.isDigit
  let n := Nat.ofDigitChars 10 digits 0
  if digits ≠ [] ∧ n < 256 ∧ ".Port 1: ".toList <+: rest.dropWhile Char.isDigit then
    some (.bus (.ofNat n))
  else none

/-- The mark of an indented line: four spaces for each level, then the branch and one hexadecimal
digit. -/
def ofPortLine? (line : List Char) : Option Mark :=
  let indent := line.takeWhile (· = ' ')
  match (line.dropWhile (· = ' ')).dropPrefix? "|__ Port ".toList with
  | some (digit :: ':' :: ' ' :: _) =>
    if indent.length % 4 = 0 then
      (Text.hexValue? digit).map fun p => .port (indent.length / 4) (.ofNat p)
    else none
  | _ => none

def ofLine? (line : String) : Option Mark :=
  match line.toList.dropPrefix? "/:  Bus ".toList with
  | some rest => ofBusLine? rest
  | none => ofPortLine? line.toList

/-- A bus line starts anew; a line of a level replaces the path from that level on. -/
def follow : Mark → Spot → Spot
  | .bus b, _ => ⟨b, []⟩
  | .port level p, spot => ⟨spot.bus, spot.path.take (level - 1) ++ [p]⟩

end Mark

/-- The place after a line; a line without a mark keeps the place. -/
def Spot.after (spot : Spot) (line : String) : Spot :=
  (Mark.ofLine? line).elim spot fun m => m.follow spot

def Spot.trace (spot : Spot) : List String → List Spot
  | [] => []
  | line :: lines => spot.after line :: (spot.after line).trace lines

theorem dropPrefix?_append (pre rest : List Char) : (pre ++ rest).dropPrefix? pre = some rest :=
  List.dropPrefix?_append_of_beq rest (beq_self_eq_true pre)

theorem ofDigitChars_twoDigits (b : UInt8) :
    (∀ c ∈ (twoDigits b).toList, c.isDigit = true) ∧ (twoDigits b).toList ≠ [] ∧
      Nat.ofDigitChars 10 (twoDigits b).toList 0 = b.toNat := by
  unfold twoDigits
  split
  · rw [String.toList_append, toList_byteText]
    refine ⟨?_, by simp, ?_⟩
    · intro c hc
      rcases List.mem_append.1 hc with hc | hc
      · obtain rfl := List.mem_singleton.1 hc
        decide
      · exact isDigit_of_mem_toDigits hc
    · change Nat.ofDigitChars 10 ('0' :: Nat.toDigits 10 b.toNat) 0 = b.toNat
      rw [Nat.ofDigitChars_cons]
      exact Nat.ofDigitChars_ten_toDigits
  · exact ⟨fun c => isDigit_of_mem_byteText, by simp [Nat.toDigits_ne_nil],
      by simp [Nat.ofDigitChars_ten_toDigits]⟩

theorem ofBusLine?_twoDigits (b : UInt8) (rest : List Char) :
    Mark.ofBusLine? ((twoDigits b).toList ++ (".Port 1: ".toList ++ rest)) = some (.bus b) := by
  obtain ⟨hdigits, hne, hvalue⟩ := ofDigitChars_twoDigits b
  have hspan := @takeWhile_digits _ (".Port 1: ".toList ++ rest) hdigits (by simp)
  rw [Mark.ofBusLine?]
  simp only [hspan.1, hspan.2, hvalue]
  rw [if_pos ⟨hne, b.toNat_lt, List.prefix_append _ _⟩, UInt8.ofNat_toNat]

theorem hexValue?_hexDigit : ∀ n < 16, Text.hexValue? (Text.hexDigit n) = some n := by decide

theorem ofPortLine?_indent (level : Nat) {p : UInt8} (hp : p.toNat < 16) (rest : List Char) :
    Mark.ofPortLine? (List.replicate (4 * level) ' ' ++ ("|__ Port ".toList ++
      (Text.hexDigit p.toNat :: ':' :: ' ' :: rest))) = some (.port level p) := by
  have hindent : ∀ c ∈ List.replicate (4 * level) ' ', decide (c = ' ') = true := by
    intro c hc
    simp [(List.mem_replicate.1 hc).2]
  have htake : ∀ tail, (List.replicate (4 * level) ' ' ++ ("|__ Port ".toList ++ tail)).takeWhile
      (fun c => decide (c = ' ')) = List.replicate (4 * level) ' ' := by
    intro tail
    rw [List.takeWhile_append_of_pos hindent]
    simp
  have hdrop : ∀ tail, (List.replicate (4 * level) ' ' ++ ("|__ Port ".toList ++ tail)).dropWhile
      (fun c => decide (c = ' ')) = "|__ Port ".toList ++ tail := by
    intro tail
    rw [List.dropWhile_append_of_pos hindent]
    simp
  have hlevel : 4 * level % 4 = 0 ∧ 4 * level / 4 = level := by omega
  rw [Mark.ofPortLine?]
  simp only [htake, hdrop, dropPrefix?_append, List.length_replicate, hlevel,
    hexValue?_hexDigit p.toNat hp, if_true, Option.map_some, UInt8.ofNat_toNat]

def Spot.mark (spot : Spot) : Mark :=
  match spot.path.getLast? with
  | none => .bus spot.bus
  | some p => .port spot.path.length p

theorem ofLine?_lineHead {d : Device} (hports : ∀ p ∈ d.ports, IsPort p)
    (hdepth : d.ports.length ≤ Location.levels) {line : String} {rest : List Char}
    (hline : line.toList = d.lineHead.toList ++ rest) :
    Mark.ofLine? line = some d.spot.mark := by
  have hpath : d.location.ports = d.ports := by
    rw [Device.location, Location.ports_encode d.bus hports, List.take_of_length_le hdepth]
  have hdepth : d.location.depth = d.ports.length := by rw [Location.depth, hpath]
  have hport : d.location.port? = d.ports.getLast? := by rw [Location.port?, hpath]
  rw [Mark.ofLine?, hline, Device.lineHead, Location.branch, Location.portDigit, hdepth, hport]
  cases hlast : d.ports.getLast? with
  | none =>
    have hmark : d.spot.mark = .bus d.bus := by simp only [Spot.mark, Device.spot, hlast]
    have hnil : d.ports = [] := List.getLast?_eq_none_iff.1 hlast
    have hhead : ("/:  " ++ "Bus " ++ twoDigits d.bus ++ ".Port " ++
        String.singleton (Text.hexDigit ((none : Option UInt8).getD 1).toNat) ++ ": ").toList ++
        rest = "/:  Bus ".toList ++ ((twoDigits d.bus).toList ++ (".Port 1: ".toList ++ rest)) := by
      simp only [String.toList_append, List.append_assoc]
      rfl
    simp only [hnil, List.length_nil, if_true]
    rw [hhead, dropPrefix?_append, hmark]
    exact ofBusLine?_twoDigits d.bus rest
  | some p =>
    have hmark : d.spot.mark = .port d.ports.length p := by
      simp only [Spot.mark, Device.spot, hlast]
    have hmem : p ∈ d.ports := List.mem_of_getLast? hlast
    obtain ⟨level, hlevel⟩ : ∃ level, d.ports.length = level + 1 :=
      Nat.exists_eq_add_one.2 (List.length_pos_of_mem hmem)
    have hhead : (String.ofList (List.replicate (4 * (level + 1)) ' ') ++ "|__ " ++ "Port " ++
        String.singleton (Text.hexDigit p.toNat) ++ ": ").toList ++ rest =
        List.replicate (4 * (level + 1)) ' ' ++ ("|__ Port ".toList ++
          (Text.hexDigit p.toNat :: ':' :: ' ' :: rest)) := by
      simp only [String.toList_append, String.toList_ofList, String.toList_singleton,
        List.append_assoc]
      rfl
    have hindent : ∀ tail, List.dropPrefix? (List.replicate (4 * (level + 1)) ' ' ++ tail)
        "/:  Bus ".toList = none := fun _ => rfl
    simp only [hlevel, Nat.add_one_ne_zero, if_false, Option.getD_some]
    rw [hhead, hindent, hmark, hlevel]
    exact ofPortLine?_indent (level + 1) (hports p hmem).toNat_lt rest

namespace Spot

theorem after_of_mark {spot : Spot} {line : String} {m : Mark} (h : Mark.ofLine? line = some m) :
    spot.after line = m.follow spot := by
  rw [after, h]
  rfl

theorem follow_mark {spot target : Spot}
    (h : target.path ≠ [] → spot.bus = target.bus ∧ target.path.dropLast <+: spot.path) :
    target.mark.follow spot = target := by
  obtain ⟨bus, path⟩ := target
  rw [mark]
  cases hlast : path.getLast? with
  | none =>
    obtain rfl := List.getLast?_eq_none_iff.1 hlast
    rfl
  | some p =>
    have hne : path ≠ [] := by
      rintro rfl
      simp at hlast
    obtain ⟨hbus, hpre⟩ := h hne
    have hpath : path.dropLast ++ [p] = path := List.dropLast_append_getLast? p hlast
    have htake : spot.path.take (path.length - 1) = path.dropLast := by
      rw [← List.length_dropLast]
      exact (List.prefix_iff_eq_take.1 hpre).symm
    rw [Mark.follow, hbus, htake, hpath]

theorem follow_mark_self (spot : Spot) : spot.mark.follow spot = spot :=
  follow_mark fun _ => ⟨rfl, List.dropLast_prefix _⟩

theorem trace_of_mark {spot target : Spot} {lines : List String}
    (hmark : ∀ line ∈ lines, Mark.ofLine? line = some target.mark)
    (hfollow : target.mark.follow spot = target) :
    spot.trace lines = lines.map fun _ => target := by
  induction lines generalizing spot with
  | nil => rfl
  | cons line lines ih =>
    have hline := @after_of_mark spot _ _ (hmark line (by simp))
    rw [trace, hline, hfollow, ih (fun l hl => hmark l (by simp [hl])) (follow_mark_self target),
      List.map_cons]

theorem trace_append (spot : Spot) (xs ys : List String) :
    spot.trace (xs ++ ys) = spot.trace xs ++ ((spot.trace xs).getLastD spot).trace ys := by
  induction xs generalizing spot with
  | nil => rfl
  | cons x xs ih =>
    rw [List.cons_append, trace, ih, trace, List.getLastD_cons]
    rfl

end Spot

theorem prefix_of_between {P F : List UInt8} {p : UInt8} (hlow : ¬ F < P) (hhigh : ¬ P ++ [p] < F) :
    P <+: F := by
  induction P generalizing F with
  | nil => exact List.nil_prefix
  | cons x P ih =>
    cases F with
    | nil => exact absurd (List.nil_lt_cons x P) hlow
    | cons y F =>
      rw [List.cons_lt_cons_iff, not_or] at hlow
      rw [List.cons_append, List.cons_lt_cons_iff, not_or] at hhigh
      have hxy : x = y := UInt8.le_antisymm (UInt8.not_lt.1 hlow.1) (UInt8.not_lt.1 hhigh.1)
      subst hxy
      exact List.cons_prefix_cons.2 ⟨rfl, ih (fun h => hlow.2 ⟨rfl, h⟩) fun h => hhigh.2 ⟨rfl, h⟩⟩

def Location.spot (l : Location) : Spot := ⟨l.bus, l.ports⟩

/-- Entries in order, each of which shows lines marked with its place and has its hub among the
entries. -/
structure Entry.Outlined (entries : List Entry) : Prop where
  sorted : entries.Pairwise fun a b => Entry.precedes a b = true
  canonical : ∀ e ∈ entries, e.location.canonical = e.location
  shown : ∀ e ∈ entries, Text.lines e.text ≠ []
  marked : ∀ e ∈ entries, ∀ line ∈ Text.lines e.text,
    Mark.ofLine? line = some e.location.spot.mark
  hub : ∀ e ∈ entries, e.location.ports ≠ [] →
    ∃ h ∈ entries, h.location.bus = e.location.bus ∧ h.location.ports = e.location.ports.dropLast

namespace Entry.Outlined

theorem value_le {a b : Entry} (h : precedes a b = true) :
    ¬ b.location.value < a.location.value := by
  rw [precedes_iff] at h
  omega

theorem leads {done rest : List Entry} {e : Entry} (h : Outlined (done ++ e :: rest))
    (hne : e.location.ports ≠ []) :
    ∃ f, done.getLast? = some f ∧ f.location.bus = e.location.bus ∧
      e.location.ports.dropLast <+: f.location.ports := by
  have hmem : e ∈ done ++ e :: rest := by simp
  obtain ⟨u, hu, hbus, hports⟩ := h.hub e hmem hne
  obtain ⟨p, hp⟩ : ∃ p, e.location.ports.dropLast ++ [p] = e.location.ports :=
    ⟨_, List.dropLast_concat_getLast hne⟩
  have hult : u.location.value < e.location.value := by
    refine (Location.lt_iff (h.canonical u hu) (h.canonical e hmem)).2 (.inr ⟨hbus, ?_⟩)
    rw [hports]
    exact lt_of_prefix_next ⟨[], by rw [List.append_nil, hp]⟩
  obtain ⟨hsdone, hsrest, hcross⟩ := List.pairwise_append.1 h.sorted
  have hudone : u ∈ done := by
    rcases List.mem_append.1 hu with hu | hu
    · exact hu
    · rcases List.mem_cons.1 hu with rfl | hu
      · exact absurd hult (Nat.lt_irrefl _)
      · exact absurd hult (value_le ((List.pairwise_cons.1 hsrest).1 u hu))
  obtain ⟨init, f, rfl⟩ : ∃ init f, done = init ++ [f] :=
    ⟨_, _, (List.dropLast_concat_getLast (List.ne_nil_of_mem hudone)).symm⟩
  have hf : f ∈ init ++ [f] ++ e :: rest := by simp
  have hfe : ¬ e.location.value < f.location.value := value_le (hcross f (by simp) e (by simp))
  -- The hub is among the entries read, and the last of them is not before it and not behind `e`.
  have huf : ¬ f.location.value < u.location.value := by
    rcases List.mem_append.1 hudone with hu | hu
    · exact value_le ((List.pairwise_append.1 hsdone).2.2 u hu f (by simp))
    · obtain rfl := List.mem_singleton.1 hu
      exact Nat.lt_irrefl _
  rw [Location.lt_iff (h.canonical e hmem) (h.canonical f hf), not_or] at hfe
  rw [Location.lt_iff (h.canonical f hf) (h.canonical u hu), not_or, hbus, hports] at huf
  have hfbus : f.location.bus = e.location.bus :=
    UInt8.le_antisymm (UInt8.not_lt.1 hfe.1) (UInt8.not_lt.1 huf.1)
  have hfirst := fun hlt => huf.2 ⟨hfbus, hlt⟩
  refine ⟨f, by simp, hfbus, prefix_of_between (p := p) hfirst fun hlt => ?_⟩
  exact hfe.2 ⟨hfbus.symm, hp ▸ hlt⟩

/-- Following the lines of the entries behind those already read, from the place of the last one. -/
theorem trace_from {done rest : List Entry} (h : Outlined (done ++ rest)) {spot : Spot}
    (hspot : ∀ f, done.getLast? = some f → spot = f.location.spot) :
    spot.trace (rest.flatMap fun e => Text.lines e.text) =
      rest.flatMap fun e => (Text.lines e.text).map fun _ => e.location.spot := by
  -- Kept from entry to entry: the spot is the place of the last entry that was read.
  induction rest generalizing done spot with
  | nil => rfl
  | cons e rest ih =>
    have hmem : e ∈ done ++ e :: rest := by simp
    have hfollow : e.location.spot.mark.follow spot = e.location.spot := by
      refine Spot.follow_mark fun hne => ?_
      obtain ⟨f, hf, hbus, hpre⟩ := h.leads hne
      rw [hspot f hf]
      exact ⟨hbus, hpre⟩
    have htrace := Spot.trace_of_mark (h.marked e hmem) hfollow
    have hlast : (spot.trace (Text.lines e.text)).getLastD spot = e.location.spot := by
      rw [htrace, List.getLastD_eq_getLast?, List.getLast?_map]
      cases hl : (Text.lines e.text).getLast? with
      | none => exact absurd (List.getLast?_eq_none_iff.1 hl) (h.shown e hmem)
      | some line => rfl
    have hih := @ih (done ++ [e]) (by simpa using h) e.location.spot (by
      intro f hf
      obtain rfl : e = f := by simpa using hf
      rfl)
    rw [List.flatMap_cons, List.flatMap_cons, Spot.trace_append, hlast, htrace, hih]

end Entry.Outlined

namespace Tree

variable {names : ClassNames} {side : SideData} {probes : List Probe}

theorem spot_location {d : Device} (hports : ∀ p ∈ d.ports, IsPort p)
    (hdepth : d.ports.length ≤ Location.levels) : d.location.spot = d.spot := by
  rw [Location.spot, Device.spot, Device.location, Location.bus_encode,
    Location.ports_encode d.bus hports, List.take_of_length_le hdepth]

theorem renderedLines_ne_nil {d : Device}
    (h : d.ports ≠ [] → ∃ c ∈ d.configurations, c.interfaces ≠ [])
    (hspot : d.location.spot = d.spot) : d.renderedLines names side ≠ [] := by
  unfold Device.renderedLines
  split
  · simp
  · next hdepth =>
    have hne : d.ports ≠ [] := by
      intro hnil
      have hports : d.location.ports = d.ports := congrArg Spot.path hspot
      exact hdepth (by rw [Location.depth, hports, hnil, List.length_nil])
    obtain ⟨c, hc, hi⟩ := h hne
    obtain ⟨i, hi⟩ := List.exists_mem_of_ne_nil _ hi
    obtain ⟨n, hn⟩ := List.getElem?_of_mem hi
    have hmem : (UInt8.ofNat (min n 255), i) ∈ d.numberedInterfaces :=
      List.mem_flatMap.2 ⟨c, hc, List.mem_map.2
        ⟨(i, n), List.mk_mem_zipIdx_iff_getElem?.2 hn, rfl⟩⟩
    exact List.ne_nil_of_mem (List.mem_map_of_mem hmem)

section

variable (hplaced : ∀ d, .ok d ∈ probes →
    d.ports.length ≤ Location.levels ∧ ∀ p ∈ d.ports, IsPort p)
  (hhub : ∀ d, .ok d ∈ probes → d.ports ≠ [] →
    ∃ u, .ok u ∈ probes ∧ u.bus = d.bus ∧ u.ports = d.ports.dropLast)
  (hshown : ∀ d, .ok d ∈ probes → d.ports ≠ [] → ∃ c ∈ d.configurations, c.interfaces ≠ [])
  (hnames : ∀ d, .ok d ∈ probes → ∀ s ∈ d.resolvedNames names side, Unbroken s)
include hplaced hhub hshown hnames

theorem outlined_entries : Entry.Outlined (build names side probes).entries where
  sorted := Entry.arrange_pairwise _
  canonical := by
    intro e he
    obtain ⟨i, d, hget, rfl⟩ := (mem_entries_build names side).1 he
    exact Location.canonical_encode d.bus (hplaced d (List.mem_of_getElem? hget)).2
  shown := by
    intro e he
    obtain ⟨i, d, hget, rfl⟩ := (mem_entries_build names side).1 he
    have hd := List.mem_of_getElem? hget
    have hspot := spot_location (hplaced d hd).2 (hplaced d hd).1
    change Text.lines (d.render names side) ≠ []
    rw [Device.lines_render (hnames d hd), ne_eq, List.map_eq_nil_iff]
    exact renderedLines_ne_nil (hshown d hd) hspot
  marked := by
    intro e he line hline
    obtain ⟨i, d, hget, rfl⟩ := (mem_entries_build names side).1 he
    have hd := List.mem_of_getElem? hget
    obtain ⟨hdepth, hports⟩ := hplaced d hd
    change line ∈ Text.lines (d.render names side) at hline
    rw [Device.lines_render (hnames d hd)] at hline
    obtain ⟨t, ht, rfl⟩ := List.mem_map.1 hline
    obtain ⟨rest, hrest⟩ := Device.chomp_renderedLine (hnames d hd) ht
    change _ = some d.location.spot.mark
    rw [spot_location hports hdepth]
    exact ofLine?_lineHead hports hdepth hrest
  hub := by
    intro e he hne
    obtain ⟨i, d, hget, rfl⟩ := (mem_entries_build names side).1 he
    have hd := List.mem_of_getElem? hget
    have hspot := spot_location (hplaced d hd).2 (hplaced d hd).1
    have hports : d.location.ports = d.ports := congrArg Spot.path hspot
    obtain ⟨u, hu, hbus, hdrop⟩ := hhub d hd (hports ▸ hne)
    obtain ⟨j, hj⟩ := List.getElem?_of_mem hu
    have huspot := spot_location (hplaced u hu).2 (hplaced u hu).1
    refine ⟨_, (mem_entries_build names side).2 ⟨j, u, hj, rfl⟩, ?_, ?_⟩
    · change u.location.spot.bus = d.location.spot.bus
      rw [huspot, hspot]
      exact hbus
    · change u.location.spot.path = d.location.spot.path.dropLast
      rw [huspot, hspot]
      exact hdrop

/-- Devices of at most six valid ports that all have their hub and something to show: each has a
line in their tree, and following the lines from any place leads at each line to the device that it
belongs to. -/
theorem trace_lines (start : Spot) :
    (start.trace (build names side probes).lines).map some =
      ((build names side probes).entries.flatMap fun e => (Text.lines e.text).map fun _ =>
        (probes[e.index]?).bind fun p => p.toOption.map Device.spot) ∧
    ∀ i d, probes[i]? = some (.ok d) →
      ∃ e ∈ (build names side probes).entries, e.index = i ∧ Text.lines e.text ≠ [] := by
  have houtlined := outlined_entries hplaced hhub hshown hnames
  have htrace :=
    @Entry.Outlined.trace_from [] (build names side probes).entries houtlined start (by simp)
  refine ⟨?_, fun i d hget => ?_⟩
  · rw [lines, htrace, List.map_flatMap]
    refine List.flatMap_congr fun e he => ?_
    obtain ⟨i, d, hget, rfl⟩ := (mem_entries_build names side).1 he
    have hd := List.mem_of_getElem? hget
    have hspot : (Entry.ofDevice names side i d).location.spot = d.spot :=
      spot_location (hplaced d hd).2 (hplaced d hd).1
    have hsource : (probes[i]?).bind (fun p => p.toOption.map Device.spot) = some d.spot := by
      rw [hget]
      rfl
    rw [List.map_map, hspot]
    refine List.map_congr_left fun _ _ => ?_
    exact hsource.symm
  · have he := (mem_entries_build names side).2 ⟨i, d, hget, rfl⟩
    exact ⟨_, he, rfl, houtlined.shown _ he⟩

end

/-- A hub with a device of two interfaces at its eleventh port, a failure, and the root hub last. -/
def hubProbes : List Probe :=
  [.ok ⟨1, [2, 11], 4, .full, [⟨1, [⟨3, 1, 1⟩, ⟨3, 0, 0⟩]⟩]⟩, .error ⟨.opening, "gone"⟩,
    .ok ⟨1, [2], 3, .high, [⟨1, [⟨9, 0, 1⟩]⟩]⟩, .ok ⟨1, [], 1, .high, []⟩]

theorem mem_hubProbes {P : Device → Prop}
    (hport : P ⟨1, [2, 11], 4, .full, [⟨1, [⟨3, 1, 1⟩, ⟨3, 0, 0⟩]⟩]⟩)
    (hhub : P ⟨1, [2], 3, .high, [⟨1, [⟨9, 0, 1⟩]⟩]⟩) (hroot : P ⟨1, [], 1, .high, []⟩) :
    ∀ d, .ok d ∈ hubProbes → P d := by
  intro d hd
  simp only [hubProbes, List.mem_cons, Except.ok.injEq, reduceCtorEq, List.not_mem_nil,
    false_or, or_false] at hd
  rcases hd with rfl | rfl | rfl
  · exact hport
  · exact hhub
  · exact hroot

theorem trace_lines_hubProbes :
    (∀ d, .ok d ∈ hubProbes → d.ports.length ≤ Location.levels ∧ ∀ p ∈ d.ports, IsPort p) ∧
    (∀ d, .ok d ∈ hubProbes → d.ports ≠ [] →
      ∃ u, .ok u ∈ hubProbes ∧ u.bus = d.bus ∧ u.ports = d.ports.dropLast) ∧
    (∀ d, .ok d ∈ hubProbes → d.ports ≠ [] → ∃ c ∈ d.configurations, c.interfaces ≠ []) ∧
    (∀ d, .ok d ∈ hubProbes →
      ∀ s ∈ d.resolvedNames .registered (.ofTables .empty .empty), Unbroken s) ∧
    ((Spot.mk 0 []).trace (build .registered (.ofTables .empty .empty) hubProbes).lines).map some =
      ((build .registered (.ofTables .empty .empty) hubProbes).entries.flatMap fun e =>
        (Text.lines e.text).map fun _ =>
          (hubProbes[e.index]?).bind fun p => p.toOption.map Device.spot) ∧
    ∀ i d, hubProbes[i]? = some (.ok d) →
      ∃ e ∈ (build .registered (.ofTables .empty .empty) hubProbes).entries,
        e.index = i ∧ Text.lines e.text ≠ [] := by
  have hplaced : ∀ d, .ok d ∈ hubProbes →
      d.ports.length ≤ Location.levels ∧ ∀ p ∈ d.ports, IsPort p :=
    mem_hubProbes ⟨by decide, by simp [IsPort]⟩ ⟨by decide, by simp [IsPort]⟩ ⟨by decide, nofun⟩
  have hhub : ∀ d, .ok d ∈ hubProbes → d.ports ≠ [] →
      ∃ u, .ok u ∈ hubProbes ∧ u.bus = d.bus ∧ u.ports = d.ports.dropLast :=
    mem_hubProbes
      (fun _ => ⟨⟨1, [2], 3, .high, [⟨1, [⟨9, 0, 1⟩]⟩]⟩, by simp [hubProbes], rfl, rfl⟩)
      (fun _ => ⟨⟨1, [], 1, .high, []⟩, by simp [hubProbes], rfl, rfl⟩)
      (fun h => absurd rfl h)
  have hshown : ∀ d, .ok d ∈ hubProbes → d.ports ≠ [] → ∃ c ∈ d.configurations, c.interfaces ≠ [] :=
    mem_hubProbes (by decide) (by decide) (by decide)
  have hnames : ∀ d, .ok d ∈ hubProbes →
      ∀ s ∈ d.resolvedNames .registered (.ofTables .empty .empty), Unbroken s :=
    mem_hubProbes (by decide) (by decide) (by decide)
  exact ⟨hplaced, hhub, hshown, hnames, trace_lines hplaced hhub hshown hnames _⟩

end Tree

end UsbTopology
