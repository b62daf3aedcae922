import Mathlib.Data.List.TakeWhile
import UsbTopology.Location

set_option autoImplicit false

/-!
# Decoding and order of locations

What a location tells of the bus and the ports it was encoded from, and how locations compare. For
ports that have a digit of their own the order of the words is the lexicographic order of bus and
port path, so a place comes before everything below it and after everything below an earlier
sibling (`encode_lt_encode_iff`).
-/
namespace UsbTopology

/-- A port that a location can hold: a digit that does not end the path. -/
def IsPort (p : UInt8) : Prop := p ≠ 0 ∧ p ≤ 15

instance (p : UInt8) : Decidable (IsPort p) := inferInstanceAs (Decidable (p ≠ 0 ∧ p ≤ 15))

theorem IsPort.toNat_pos {p : UInt8} (h : IsPort p) : 0 < p.toNat := by
  have hne : p.toNat ≠ 0 := fun h0 => h.1 (UInt8.toNat_inj.1 h0)
  omega

theorem IsPort.toNat_lt {p : UInt8} (h : IsPort p) : p.toNat < 16 := by
  have hle : p.toNat ≤ 15 := UInt8.le_iff_toNat_le.1 h.2
  omega

theorem lt_of_prefix_next {path q : List UInt8} {p : UInt8} (h : path ++ [p] <+: q) : path < q := by
  obtain ⟨s, rfl⟩ := h
  have hlt : path ++ [] < path ++ (p :: s) := List.append_left_lt (List.nil_lt_cons p s)
  simpa using hlt

theorem lt_of_prefixes {path q r : List UInt8} {p p' : UInt8} (hlt : p < p')
    (hq : path ++ [p] <+: q) (hr : path ++ [p'] <+: r) : q < r := by
  obtain ⟨s, rfl⟩ := hq
  obtain ⟨t, rfl⟩ := hr
  have h : path ++ (p :: s) < path ++ (p' :: t) :=
    List.append_left_lt (List.cons_lt_cons_iff.2 (.inl hlt))
  simpa using h

namespace Location

theorem pathDigits_eq_six (ports : List UInt8) :
    ∃ a b c d e f, pathDigits ports = [a, b, c, d, e, f] ∧
      a < 16 ∧ b < 16 ∧ c < 16 ∧ d < 16 ∧ e < 16 ∧ f < 16 := by
  have hlen := length_pathDigits ports
  have hlt := fun n (h : n ∈ pathDigits ports) => lt_of_mem_pathDigits h
  match hd : pathDigits ports, hlen with
  | [a, b, c, d, e, f], _ =>
    rw [hd] at hlt
    exact ⟨a, b, c, d, e, f, rfl, hlt a (by simp), hlt b (by simp), hlt c (by simp),
      hlt d (by simp), hlt e (by simp), hlt f (by simp)⟩

theorem value_encode (bus : UInt8) (ports : List UInt8) :
    (encode bus ports).value = appendDigits bus.toNat (pathDigits ports) := rfl

@[simp] theorem bus_encode (bus : UInt8) (ports : List UInt8) : (encode bus ports).bus = bus := by
  obtain ⟨a, b, c, d, e, f, hd, _⟩ := pathDigits_eq_six ports
  have hv : (encode bus ports).value / busUnit = bus.toNat := by
    rw [value_encode, hd]
    simp only [appendDigits, List.foldl_cons, List.foldl_nil, busUnit]
    omega
  rw [Location.bus, hv, UInt8.ofNat_toNat]

theorem digits_encode (bus : UInt8) (ports : List UInt8) :
    (encode bus ports).digits = (pathDigits ports).map UInt8.ofNat := by
  obtain ⟨a, b, c, d, e, f, hd, ha, hb, hc, hd', he, hf⟩ := pathDigits_eq_six ports
  have hv : (encode bus ports).value =
      16 * (16 * (16 * (16 * (16 * (16 * bus.toNat + a) + b) + c) + d) + e) + f := by
    rw [value_encode, hd]
    rfl
  rw [digits, hv, hd]
  congr 1
  simp only [List.cons.injEq, and_true]
  omega

theorem pathDigits_of_isPort {ports : List UInt8} (h : ∀ p ∈ ports, IsPort p) :
    pathDigits ports = (ports.take levels).map UInt8.toNat ++
      List.replicate (levels - (ports.take levels).length) 0 := by
  have hmap : (ports.take levels).map (fun p => p.toNat % 16) =
      (ports.take levels).map UInt8.toNat := by
    apply List.map_congr_left
    intro p hp
    exact Nat.mod_eq_of_lt (h p (List.mem_of_mem_take hp)).toNat_lt
  simp only [pathDigits, hmap, List.length_map]

theorem ports_encode {ports : List UInt8} (bus : UInt8) (h : ∀ p ∈ ports, IsPort p) :
    (encode bus ports).ports = ports.take levels := by
  have hid : (ports.take levels).map (UInt8.ofNat ∘ UInt8.toNat) = ports.take levels := by
    rw [show UInt8.ofNat ∘ UInt8.toNat = id from funext fun p => UInt8.ofNat_toNat, List.map_id]
  rw [Location.ports, digits_encode, pathDigits_of_isPort h, List.map_append, List.map_map, hid,
    List.map_replicate, List.takeWhile_append_of_pos]
  · rw [List.takeWhile_replicate]
    simp
  · intro p hp
    simpa using (h p (List.mem_of_mem_take hp)).1

theorem isPort_of_mem_ports {l : Location} {p : UInt8} (h : p ∈ l.ports) : IsPort p := by
  have hne : p ≠ 0 := by simpa using List.mem_takeWhile_imp h
  have hmem : p ∈ l.digits := (List.takeWhile_subset _) h
  refine ⟨hne, UInt8.le_iff_toNat_le.2 ?_⟩
  simp only [digits, List.mem_map, List.mem_cons, List.not_mem_nil, or_false] at hmem
  obtain ⟨n, hn, rfl⟩ := hmem
  have hlt : n < 16 := by omega
  have hsize : n < UInt8.size := Nat.lt_trans hlt (by decide)
  rw [UInt8.toNat_ofNat_of_lt' hsize]
  exact Nat.le_of_lt_succ hlt

theorem length_ports_le (l : Location) : l.ports.length ≤ levels := by
  calc
    l.ports.length ≤ l.digits.length := (List.takeWhile_sublist _).length_le
    _ = levels := rfl

/-- The location that the ports of a location lead to; it differs from the location itself if there
are digits behind the end of the path. -/
def canonical (l : Location) : Location := encode l.bus l.ports

theorem pathDigits_take (ports : List UInt8) :
    pathDigits (ports.take levels) = pathDigits ports := by
  simp only [pathDigits, List.take_take, Nat.min_self]

theorem encode_take (bus : UInt8) (ports : List UInt8) :
    encode bus (ports.take levels) = encode bus ports := by
  simp only [encode, pathDigits_take]

theorem canonical_encode {ports : List UInt8} (bus : UInt8) (h : ∀ p ∈ ports, IsPort p) :
    (encode bus ports).canonical = encode bus ports := by
  simp only [canonical, bus_encode, ports_encode bus h, encode_take]

theorem ports_encode_eq_take_iff {bus : UInt8} {ports : List UInt8} :
    (encode bus ports).ports = ports.take levels ↔ ∀ p ∈ ports.take levels, IsPort p := by
  constructor
  · intro h p hp
    apply isPort_of_mem_ports
    rw [h]
    exact hp
  · intro h
    have hports := ports_encode bus h
    rwa [encode_take, List.take_take, Nat.min_self] at hports

theorem depth_encode {ports : List UInt8} (bus : UInt8) (h : ∀ p ∈ ports, IsPort p) :
    (encode bus ports).depth = min levels ports.length := by
  rw [depth, ports_encode bus h, List.length_take]

theorem eq_of_value_eq {l m : Location} (h : l.value = m.value) : l = m := by
  cases l
  cases m
  obtain rfl := h
  rfl

theorem appendDigits_lt_iff {m n : Nat} {xs ys : List Nat} (hlen : xs.length = ys.length)
    (hx : ∀ d ∈ xs, d < 16) (hy : ∀ d ∈ ys, d < 16) :
    appendDigits m xs < appendDigits n ys ↔ m < n ∨ m = n ∧ xs < ys := by
  induction xs generalizing m n ys with
  | nil =>
    cases ys with
    | nil => simp [appendDigits]
    | cons y ys => simp at hlen
  | cons x xs ih =>
    cases ys with
    | nil => simp at hlen
    | cons y ys =>
      have hx' := hx x (by simp)
      have hy' := hy y (by simp)
      -- The first digits move into the leading numbers, and being below 16 they cannot carry.
      have hrec := @ih (16 * m + x) (16 * n + y) ys (by simpa using hlen)
        (fun d hd => hx d (by simp [hd])) (fun d hd => hy d (by simp [hd]))
      change appendDigits (16 * m + x) xs < appendDigits (16 * n + y) ys ↔ _
      rw [hrec, List.cons_lt_cons_iff]
      by_cases hlt : xs < ys
      · simp only [hlt, and_true]
        omega
      · simp only [hlt, and_false, or_false]
        omega

theorem pad_lt_pad_iff {k : Nat} {xs ys : List Nat} (hxk : xs.length ≤ k) (hyk : ys.length ≤ k)
    (hx : ∀ d ∈ xs, 0 < d) (hy : ∀ d ∈ ys, 0 < d) :
    xs ++ List.replicate (k - xs.length) 0 < ys ++ List.replicate (k - ys.length) 0 ↔ xs < ys := by
  induction k generalizing xs ys with
  | zero =>
    obtain rfl := List.length_eq_zero_iff.1 (Nat.le_zero.1 hxk)
    obtain rfl := List.length_eq_zero_iff.1 (Nat.le_zero.1 hyk)
    simp
  | succ k ih =>
    match xs, ys with
    | [], [] => simp
    | [], y :: ys =>
      have hpos := hy y (by simp)
      simp [List.replicate_succ, List.cons_lt_cons_iff, hpos]
    | x :: xs, [] =>
      have hpos := hx x (by simp)
      have hne :
          ¬ (x < 0 ∨ x = 0 ∧ xs ++ List.replicate (k - xs.length) 0 < List.replicate k 0) := by
        omega
      simpa [List.replicate_succ, List.cons_lt_cons_iff] using hne
    | x :: xs, y :: ys =>
      have hrec := @ih xs ys (by simpa using hxk) (by simpa using hyk)
        (fun d hd => hx d (by simp [hd])) (fun d hd => hy d (by simp [hd]))
      simp only [List.cons_append, List.length_cons, Nat.add_sub_add_right, List.cons_lt_cons_iff,
        hrec]

theorem map_toNat_lt_iff {xs ys : List UInt8} :
    xs.map UInt8.toNat < ys.map UInt8.toNat ↔ xs < ys := by
  induction xs generalizing ys with
  | nil => cases ys <;> simp
  | cons x xs ih =>
    cases ys with
    | nil => simp
    | cons y ys =>
      simp only [List.map_cons, List.cons_lt_cons_iff, ih, UInt8.lt_iff_toNat_lt, UInt8.toNat_inj]

/-- The order of locations is the lexicographic order of bus and port path. -/
theorem encode_lt_encode_iff {a b : UInt8} {P Q : List UInt8} (hP : ∀ p ∈ P, IsPort p)
    (hQ : ∀ p ∈ Q, IsPort p) :
    (encode a P).value < (encode b Q).value ↔
      a < b ∨ a = b ∧ P.take levels < Q.take levels := by
  have hpos : ∀ {R : List UInt8}, (∀ p ∈ R, IsPort p) →
      ∀ d ∈ (R.take levels).map UInt8.toNat, 0 < d := by
    intro R hR d hd
    obtain ⟨p, hp, rfl⟩ := List.mem_map.1 hd
    exact (hR p (List.mem_of_mem_take hp)).toNat_pos
  have hlen : ∀ R : List UInt8, ((R.take levels).map UInt8.toNat).length ≤ levels := by
    intro R
    rw [List.length_map, List.length_take]
    exact Nat.min_le_left _ _
  have hpad := @pad_lt_pad_iff levels ((P.take levels).map UInt8.toNat)
    ((Q.take levels).map UInt8.toNat) (hlen P) (hlen Q) (hpos hP) (hpos hQ)
  simp only [List.length_map] at hpad
  rw [value_encode, value_encode,
    appendDigits_lt_iff (by rw [length_pathDigits, length_pathDigits])
      (fun d hd => lt_of_mem_pathDigits hd) (fun d hd => lt_of_mem_pathDigits hd),
    pathDigits_of_isPort hP, pathDigits_of_isPort hQ, hpad, map_toNat_lt_iff,
    UInt8.lt_iff_toNat_lt, UInt8.toNat_inj]

theorem lt_iff {l m : Location} (hl : l.canonical = l) (hm : m.canonical = m) :
    l.value < m.value ↔ l.bus < m.bus ∨ l.bus = m.bus ∧ l.ports < m.ports := by
  have h := @encode_lt_encode_iff l.bus m.bus l.ports m.ports (fun _ => isPort_of_mem_ports)
    (fun _ => isPort_of_mem_ports)
  rw [List.take_of_length_le (length_ports_le l), List.take_of_length_le (length_ports_le m)] at h
  change l.canonical.value < m.canonical.value ↔ _ at h
  rwa [hl, hm] at h

theorem eq_of_bus_eq_of_ports_eq {l m : Location} (hl : l.canonical = l) (hm : m.canonical = m)
    (hbus : l.bus = m.bus) (hports : l.ports = m.ports) : l = m := by
  rw [← hl, ← hm, canonical, canonical, hbus, hports]

end Location

end UsbTopology
