import Mathlib.Data.List.Perm.Basic
import UsbTopology.Proofs.Device
import UsbTopology.Proofs.Tree.Arrangement

set_option autoImplicit false

/-!
# The walk over the buses

A tree can also be had without a sort: visit the buses in ascending order, and at each place first
what stands there and then, port by port, what is behind it. Both give the same text, because the
order of locations is the order of the walk.
-/
namespace UsbTopology

def buses : List UInt8 := (List.range 256).map UInt8.ofNat

def hubPorts : List UInt8 := (List.range' 1 15).map UInt8.ofNat

/-- What stands at the end of a path, followed by what is behind each of its ports. -/
def walk {α : Type} (standing : List UInt8 → List α) (path : List UInt8) : List α :=
  standing path ++
    if path.length < Location.levels then hubPorts.flatMap fun p => walk standing (path ++ [p])
    else []
termination_by Location.levels - path.length
decreasing_by
  simp only [List.length_append, List.length_singleton]
  omega

theorem mem_buses (b : UInt8) : b ∈ buses :=
  List.mem_map.2 ⟨b.toNat, List.mem_range.2 b.toNat_lt, UInt8.ofNat_toNat⟩

theorem buses_pairwise : buses.Pairwise (· < ·) := by
  refine List.pairwise_map.2 (List.pairwise_lt_range.imp_of_mem ?_)
  intro m n hm hn hlt
  have hm' : m < 256 := List.mem_range.1 hm
  have hn' : n < 256 := List.mem_range.1 hn
  rwa [UInt8.lt_iff_toNat_lt, UInt8.toNat_ofNat_of_lt' hm', UInt8.toNat_ofNat_of_lt' hn']

theorem hubPorts_pairwise : hubPorts.Pairwise (· < ·) := by decide

theorem mem_hubPorts {p : UInt8} (h : IsPort p) : p ∈ hubPorts := by
  have hpos := h.toNat_pos
  have hlt := h.toNat_lt
  exact List.mem_map.2 ⟨p.toNat, List.mem_range'_1.2 (by omega), UInt8.ofNat_toNat⟩

theorem map_walk {α β : Type} (f : α → β) (standing : List UInt8 → List α) (path : List UInt8) :
    (walk standing path).map f = walk (fun q => (standing q).map f) path := by
  fun_induction walk standing path with
  | case1 path ih =>
    rw [walk, List.map_append]
    congr 1
    split
    · next hlt =>
      rw [List.map_flatMap]
      congr 1
      funext p
      exact ih hlt p
    · rfl

theorem flatMap_filter_perm {α κ : Type} [DecidableEq κ] (key : α → κ) {keys : List κ}
    (hnodup : keys.Nodup) {l : List α} (hmem : ∀ a ∈ l, key a ∈ keys) :
    (keys.flatMap fun k => l.filter fun a => key a = k).Perm l := by
  induction keys generalizing l with
  | nil =>
    cases l with
    | nil => exact .refl _
    | cons a l => exact absurd (hmem a (by simp)) (by simp)
  | cons k keys ih =>
    obtain ⟨hk, hnodup⟩ := List.nodup_cons.1 hnodup
    have hrest : (keys.flatMap fun k' => l.filter fun a => key a = k') =
        keys.flatMap fun k' => (l.filter fun a => ¬ key a = k).filter fun a => key a = k' := by
      apply List.flatMap_congr
      intro k' hk'
      rw [List.filter_filter]
      refine List.filter_congr fun a _ => ?_
      have hne : k' ≠ k := fun h => hk (h ▸ hk')
      by_cases ha : key a = k' <;> simp [ha, hne]
    have hih := @ih hnodup (l.filter fun a => ¬ key a = k) (by
      intro a ha
      obtain ⟨hal, hak⟩ := List.mem_filter.1 ha
      exact (List.mem_cons.1 (hmem a hal)).resolve_left (by simpa using hak))
    rw [List.flatMap_cons, hrest]
    refine (List.Perm.append_left _ hih).trans ?_
    simpa using List.filter_append_perm (fun a => decide (key a = k)) l

theorem prefix_and_end_iff {path q : List UInt8} :
    path <+: q ∧ q[path.length]? = none ↔ q = path := by
  constructor
  · rintro ⟨⟨s, rfl⟩, h⟩
    have hs : s = [] := by simpa using h
    rw [hs, List.append_nil]
  · rintro rfl
    simp

theorem prefix_and_next_iff {path q : List UInt8} {p : UInt8} :
    path <+: q ∧ q[path.length]? = some p ↔ path ++ [p] <+: q := by
  constructor
  · rintro ⟨⟨s, rfl⟩, h⟩
    cases s with
    | nil => simp at h
    | cons x s =>
      obtain rfl : x = p := by simpa using h
      exact ⟨s, by simp⟩
  · rintro ⟨s, rfl⟩
    exact ⟨⟨p :: s, by simp⟩, by simp⟩

theorem walk_perm {α : Type} (place : α → List UInt8) {l : List α}
    (hplace : ∀ a ∈ l, (place a).length ≤ Location.levels ∧ ∀ p ∈ place a, IsPort p)
    (path : List UInt8) :
    (walk (fun q => l.filter fun a => place a = q) path).Perm
      (l.filter fun a => path <+: place a) := by
  -- What is at or behind a path falls into classes by the port that comes next, if one does.
  fun_induction walk (fun q => l.filter fun a => place a = q) path with
  | case1 path ih =>
    have hhere : ((l.filter fun a => path <+: place a).filter fun a =>
        (place a)[path.length]? = none) = l.filter fun a => place a = path := by
      rw [List.filter_filter]
      refine List.filter_congr fun a _ => ?_
      rw [← Bool.decide_and, decide_eq_decide, and_comm]
      exact prefix_and_end_iff
    have hnext : ∀ p, ((l.filter fun a => path <+: place a).filter fun a =>
        (place a)[path.length]? = some p) = l.filter fun a => path ++ [p] <+: place a := by
      intro p
      rw [List.filter_filter]
      refine List.filter_congr fun a _ => ?_
      rw [← Bool.decide_and, decide_eq_decide, and_comm]
      exact prefix_and_next_iff
    split
    · next hlt =>
      have hkeys : (none :: hubPorts.map some).Nodup := by decide
      have hclasses := flatMap_filter_perm (fun a => (place a)[path.length]?) hkeys
        (l := l.filter fun a => path <+: place a) (by
          intro a ha
          cases hget : (place a)[path.length]? with
          | none => simp
          | some p =>
            have hp := (hplace a (List.mem_of_mem_filter ha)).2 p (List.mem_of_getElem? hget)
            exact List.mem_cons_of_mem _ (List.mem_map_of_mem (mem_hubPorts hp)))
      rw [List.flatMap_cons, List.flatMap_map, hhere] at hclasses
      refine List.Perm.trans (List.Perm.append_left _ ?_) hclasses
      refine List.Perm.flatMap_left _ fun p _ => ?_
      rw [hnext]
      exact ih hlt p
    · next hge =>
      -- The path is full, so no port comes next.
      rw [List.append_nil, ← hhere, List.filter_eq_self.2]
      intro a ha
      obtain ⟨hal, hpre⟩ := List.mem_filter.1 ha
      have hlen := (hplace a hal).1
      simp only [decide_eq_true_eq, List.getElem?_eq_none_iff]
      omega

theorem mem_of_mem_walk {α : Type} (place : α → List UInt8) {l : List α} {path : List UInt8} {a : α}
    (h : a ∈ walk (fun q => l.filter fun a => place a = q) path) :
    a ∈ l ∧ path <+: place a := by
  fun_induction walk (fun q => l.filter fun a => place a = q) path with
  | case1 path ih =>
    rcases List.mem_append.1 h with h | h
    · obtain ⟨hal, hpath⟩ := List.mem_filter.1 h
      exact ⟨hal, by simpa using (of_decide_eq_true hpath) ▸ List.prefix_refl _⟩
    · split at h
      · next hlt =>
        obtain ⟨p, -, hp⟩ := List.mem_flatMap.1 h
        obtain ⟨hal, hpre⟩ := ih hlt p hp
        exact ⟨hal, (List.prefix_append _ _).trans hpre⟩
      · simp at h

/-- The entries of one bus at the end of a path. -/
def Entry.standing (entries : List Entry) (bus : UInt8) (path : List UInt8) : List Entry :=
  (entries.filter fun e => e.location.bus = bus).filter fun e => e.location.ports = path

theorem mem_standing {entries : List Entry} {bus : UInt8} {path : List UInt8} {e : Entry} :
    e ∈ Entry.standing entries bus path ↔
      e ∈ entries ∧ e.location.bus = bus ∧ e.location.ports = path := by
  simp only [Entry.standing, List.mem_filter, decide_eq_true_eq, and_assoc]

theorem precedes_of_ports_lt {a b : Entry} (ha : a.location.canonical = a.location)
    (hb : b.location.canonical = b.location) (hbus : a.location.bus = b.location.bus)
    (hlt : a.location.ports < b.location.ports) : Entry.precedes a b = true :=
  Entry.precedes_of_lt ((Location.lt_iff ha hb).2 (.inr ⟨hbus, hlt⟩))

section

variable {entries : List Entry} (hcanon : ∀ e ∈ entries, e.location.canonical = e.location)
  (hindex : entries.Pairwise fun a b => a.index < b.index)
include hcanon

theorem of_mem_walk_standing {bus : UInt8} {path : List UInt8} {e : Entry}
    (h : e ∈ walk (Entry.standing entries bus) path) :
    e ∈ entries ∧ e.location.canonical = e.location ∧ e.location.bus = bus ∧
      path <+: e.location.ports := by
  obtain ⟨hmem, hpre⟩ := mem_of_mem_walk (fun e : Entry => e.location.ports) h
  obtain ⟨hmem, hbus⟩ := List.mem_filter.1 hmem
  exact ⟨hmem, hcanon e hmem, of_decide_eq_true hbus, hpre⟩

include hindex

theorem standing_pairwise (bus : UInt8) (path : List UInt8) :
    (Entry.standing entries bus path).Pairwise fun a b => Entry.precedes a b = true := by
  have hsub : (Entry.standing entries bus path).Pairwise fun a b => a.index < b.index :=
    (hindex.filter _).filter _
  refine hsub.imp_of_mem ?_
  intro a b ha hb hlt
  obtain ⟨hae, hab, hap⟩ := mem_standing.1 ha
  obtain ⟨hbe, hbb, hbp⟩ := mem_standing.1 hb
  have hloc : a.location = b.location :=
    Location.eq_of_bus_eq_of_ports_eq (hcanon a hae) (hcanon b hbe) (hab.trans hbb.symm)
      (hap.trans hbp.symm)
  exact Entry.precedes_iff.2 (.inr ⟨congrArg Location.value hloc, Nat.le_of_lt hlt⟩)

/-- The walk of one bus is sorted: what stands at a place comes before what is behind its ports, and
what is behind one port comes before what is behind a later one. -/
theorem walk_pairwise (bus : UInt8) (path : List UInt8) :
    (walk (Entry.standing entries bus) path).Pairwise fun a b => Entry.precedes a b = true := by
  fun_induction walk (Entry.standing entries bus) path with
  | case1 path ih =>
    split
    · next hlt =>
      refine List.pairwise_append.2 ⟨standing_pairwise hcanon hindex bus path, ?_, ?_⟩
      · refine List.pairwise_flatMap.2 ⟨fun p _ => ih hlt p, hubPorts_pairwise.imp ?_⟩
        intro p p' hpp a ha b hb
        obtain ⟨-, hac, hab, hap⟩ := of_mem_walk_standing hcanon ha
        obtain ⟨-, hbc, hbb, hbp⟩ := of_mem_walk_standing hcanon hb
        exact precedes_of_ports_lt hac hbc (hab.trans hbb.symm) (lt_of_prefixes hpp hap hbp)
      · intro a ha b hb
        obtain ⟨p, -, hb⟩ := List.mem_flatMap.1 hb
        obtain ⟨hae, hab, hap⟩ := mem_standing.1 ha
        obtain ⟨-, hbc, hbb, hbp⟩ := of_mem_walk_standing hcanon hb
        exact precedes_of_ports_lt (hcanon a hae) hbc (hab.trans hbb.symm)
          (hap ▸ lt_of_prefix_next hbp)
    · rw [List.append_nil]
      exact standing_pairwise hcanon hindex bus path

theorem arrange_eq_walk :
    Entry.arrange entries = buses.flatMap fun bus => walk (Entry.standing entries bus) [] := by
  refine Entry.arrange_eq_of_perm ?_ ?_ ?_
  · have hbuses := flatMap_filter_perm (fun e : Entry => e.location.bus)
      (buses_pairwise.imp fun h => (UInt8.ne_of_lt h)) (l := entries) (fun e _ => mem_buses _)
    refine List.Perm.trans (List.Perm.flatMap_left _ fun bus _ => ?_) hbuses
    have hall : ((entries.filter fun e => e.location.bus = bus).filter fun e =>
        [] <+: e.location.ports) = entries.filter fun e => e.location.bus = bus :=
      List.filter_eq_self.2 fun e _ => decide_eq_true List.nil_prefix
    have hwalk := walk_perm (fun e : Entry => e.location.ports)
      (l := entries.filter fun e => e.location.bus = bus)
      (fun e _ => ⟨Location.length_ports_le _, fun p => Location.isPort_of_mem_ports⟩) []
    rwa [hall] at hwalk
  · refine List.pairwise_flatMap.2
      ⟨fun bus _ => walk_pairwise hcanon hindex bus [], buses_pairwise.imp ?_⟩
    intro bus bus' hlt a ha b hb
    obtain ⟨-, hac, hab, -⟩ := of_mem_walk_standing hcanon ha
    obtain ⟨-, hbc, hbb, -⟩ := of_mem_walk_standing hcanon hb
    refine Entry.precedes_of_lt ((Location.lt_iff hac hbc).2 (.inl ?_))
    rwa [hab, hbb]
  · rw [List.Nodup, List.pairwise_map]
    exact hindex.imp fun h => Nat.ne_of_lt h

end

namespace Tree

/-- The texts of the devices at a place, in the order of enumeration. A seventh port is not part of
the place. -/
def textsAt (names : ClassNames) (side : SideData) (probes : List Probe) (bus : UInt8)
    (path : List UInt8) : List String :=
  ((probedDevices probes).filter fun d =>
    d.bus = bus ∧ d.ports.take Location.levels = path).map (Device.render names side)

/-- A tree of devices that pass their check is what a walk over the buses prints. -/
theorem text_build_eq_walk (names : ClassNames) (side : SideData) (probes : List Probe)
    (h : ∀ d, .ok d ∈ probes → d.validate = .ok d) :
    (build names side probes).text =
      String.join (buses.flatMap fun bus => walk (textsAt names side probes bus) []) := by
  have hports : ∀ d ∈ probedDevices probes, ∀ p ∈ d.ports, IsPort p := by
    intro d hd
    exact Device.isPort_of_validate (h d (mem_probedDevices.1 hd))
  have hmap := entriesOf_eq_map names side probes
  have hindex : (entriesOf names side probes).Pairwise fun a b => a.index < b.index := by
    rw [hmap, List.pairwise_map]
    exact indexedDevices_pairwise probes
  have hcanon : ∀ e ∈ entriesOf names side probes, e.location.canonical = e.location := by
    intro e he
    rw [hmap] at he
    obtain ⟨⟨d, i⟩, hd, rfl⟩ := List.mem_map.1 he
    have hmem : d ∈ probedDevices probes :=
      map_fst_indexedDevices probes ▸ List.mem_map_of_mem hd
    exact Location.canonical_encode d.bus (hports d hmem)
  have htexts : ∀ bus path,
      (Entry.standing (entriesOf names side probes) bus path).map Entry.text =
        textsAt names side probes bus path := by
    intro bus path
    rw [Entry.standing, List.filter_filter, hmap, List.filter_map, List.map_map, textsAt,
      ← map_fst_indexedDevices, List.filter_map, List.map_map]
    congr 1
    refine List.filter_congr fun p hp => ?_
    have hmem : p.1 ∈ probedDevices probes :=
      map_fst_indexedDevices probes ▸ List.mem_map_of_mem hp
    have hpath : p.1.location.ports = p.1.ports.take Location.levels :=
      Location.ports_encode p.1.bus (hports p.1 hmem)
    have hbus : p.1.location.bus = p.1.bus := Location.bus_encode p.1.bus p.1.ports
    change (decide (p.1.location.ports = path) && decide (p.1.location.bus = bus)) =
      decide (p.1.bus = bus ∧ p.1.ports.take Location.levels = path)
    rw [hpath, hbus, Bool.decide_and, Bool.and_comm]
  change String.join ((Entry.arrange (entriesOf names side probes)).map Entry.text) = _
  rw [arrange_eq_walk hcanon hindex, List.map_flatMap]
  congr 2
  funext bus
  rw [map_walk]
  congr 1
  funext path
  exact htexts bus path

/-- Probes of two buses in no order: two devices that share a place because of their seventh port, a
failure, and a device without its hub. -/
def scatteredProbes : List Probe :=
  [.ok ⟨1, [1, 2, 3, 4, 5, 6, 9], 7, .full, [⟨1, [⟨3, 0, 0⟩]⟩]⟩, .error ⟨.opening, "gone"⟩,
    .ok ⟨2, [4, 1], 5, .high, [⟨1, [⟨8, 6, 80⟩, ⟨9, 0, 0⟩]⟩]⟩, .ok ⟨2, [], 1, .high, []⟩,
    .ok ⟨1, [1, 2, 3, 4, 5, 6, 7], 6, .full, [⟨1, [⟨3, 0, 0⟩]⟩]⟩, .ok ⟨1, [], 1, .super, []⟩]

theorem text_build_scatteredProbes :
    (∀ d, .ok d ∈ scatteredProbes → d.validate = .ok d) ∧
      (build .registered (.ofTables .empty .empty) scatteredProbes).text =
        String.join (buses.flatMap fun bus =>
          walk (textsAt .registered (.ofTables .empty .empty) scatteredProbes bus) []) := by
  have hvalid : ∀ d, .ok d ∈ scatteredProbes → d.validate = .ok d := by
    intro d hd
    simp only [scatteredProbes, List.mem_cons, Except.ok.injEq, reduceCtorEq, List.not_mem_nil,
      false_or, or_false] at hd
    rcases hd with rfl | rfl | rfl | rfl | rfl <;> decide
  exact ⟨hvalid, text_build_eq_walk _ _ scatteredProbes hvalid⟩

end Tree

end UsbTopology
