import UsbTopology.Proofs.Location.Name
import UsbTopology.Tree.Entry

set_option autoImplicit false

/-!
# What a location tells

A location can be made of any ports. Its path is read up to the first zero digit, and whatever is
told of the location depends on its bus and this path alone, so digits behind the zero stay hidden.
The path leads back to a location that reads the same and hides nothing (`readings_encode`).
-/
namespace UsbTopology

/-- The path is the longest beginning of the digits that holds no zero. -/
structure IsPathOf (path digits : List UInt8) : Prop where
  begins : path <+: digits
  nonzero : 0 ∉ path
  longest : ∀ q, q <+: digits → 0 ∉ q → q <+: path

theorem isPathOf_takeWhile (digits : List UInt8) :
    IsPathOf (digits.takeWhile (· ≠ 0)) digits where
  begins := List.takeWhile_prefix _
  nonzero h := by simpa using List.mem_takeWhile_imp h
  longest := by
    rintro q ⟨rest, rfl⟩ hq
    have hpos : ∀ d ∈ q, decide (d ≠ 0) = true := fun d hd =>
      decide_eq_true fun h => hq (h ▸ hd)
    rw [List.takeWhile_append_of_pos hpos]
    exact List.prefix_append _ _

theorem takeWhile_append_zeros (digits : List UInt8) (k : Nat) :
    (digits ++ List.replicate k 0).takeWhile (· ≠ 0) = digits.takeWhile (· ≠ 0) := by
  induction digits with
  | nil => simp
  | cons d digits ih =>
    by_cases hd : d = 0
    · simp [hd]
    · simpa [hd] using ih

def ZerosLast (digits : List UInt8) : Prop := digits.Pairwise fun a b => a = 0 → b = 0

theorem zerosLast_of_zeros {digits : List UInt8} (h : ∀ d ∈ digits, d = 0) : ZerosLast digits :=
  List.pairwise_of_forall_mem_list fun _ _ b hb _ => h b hb

theorem zerosLast_iff {digits : List UInt8} :
    ZerosLast digits ↔ ∀ d ∈ digits.dropWhile (· ≠ 0), d = 0 := by
  induction digits with
  | nil => simp [ZerosLast]
  | cons d digits ih =>
    by_cases hd : d = 0
    · rw [List.dropWhile_cons_of_neg (by simpa using hd)]
      constructor
      · intro h e he
        rcases List.mem_cons.1 he with rfl | he
        · exact hd
        · exact (List.pairwise_cons.1 h).1 e he hd
      · exact zerosLast_of_zeros
    · rw [List.dropWhile_cons_of_pos (by simpa using hd), ← ih, ZerosLast, List.pairwise_cons]
      exact and_iff_right fun e _ h => absurd h hd

theorem zerosLast_append_zeros {digits : List UInt8} {k : Nat} :
    ZerosLast (digits ++ List.replicate k 0) ↔ ZerosLast digits := by
  constructor
  · exact fun h => (List.pairwise_append.1 h).1
  · intro h
    refine List.pairwise_append.2 ⟨h, ?_, fun a _ b hb _ => List.eq_of_mem_replicate hb⟩
    exact zerosLast_of_zeros fun d hd => List.eq_of_mem_replicate hd

namespace Location

theorem toNat_digit (n : Nat) : (UInt8.ofNat (n % 16)).toNat = n % 16 :=
  UInt8.toNat_ofNat_of_lt' (Nat.lt_trans (Nat.mod_lt n (by decide)) (by decide))

/-- The low four bits of the ports that a location has levels for. -/
def lowDigits (ports : List UInt8) : List UInt8 := (ports.take levels).map (· % 16)

theorem digits_encode_eq (bus : UInt8) (ports : List UInt8) :
    (encode bus ports).digits =
      lowDigits ports ++ List.replicate (levels - (lowDigits ports).length) 0 := by
  have hlow : ∀ p : UInt8, UInt8.ofNat (p.toNat % 16) = p % 16 := by
    intro p
    apply UInt8.toNat_inj.1
    exact toNat_digit p.toNat
  rw [digits_encode, pathDigits, List.map_append, List.map_map, List.map_replicate, lowDigits,
    List.length_map, List.length_map]
  congr 1
  exact List.map_congr_left fun p _ => hlow p

theorem ports_encode_eq (bus : UInt8) (ports : List UInt8) :
    (encode bus ports).ports = (lowDigits ports).takeWhile (· ≠ 0) := by
  rw [Location.ports, digits_encode_eq, takeWhile_append_zeros]

theorem toNat_bus (l : Location) : l.bus.toNat = l.value / busUnit := by
  have hword := l.lt_word
  have hsize : l.value / busUnit < UInt8.size := by
    change l.value / 0x1000000 < 256
    omega
  rw [bus, UInt8.toNat_ofNat_of_lt' hsize]

theorem value_eq (l : Location) :
    l.value = appendDigits l.bus.toNat (l.digits.map UInt8.toNat) := by
  have hword := l.lt_word
  rw [toNat_bus, digits]
  simp only [List.map_cons, List.map_nil, toNat_digit, appendDigits, List.foldl_cons,
    List.foldl_nil, busUnit]
  omega

theorem eq_of_digits_eq {l m : Location} (hbus : l.bus = m.bus) (hdigits : l.digits = m.digits) :
    l = m :=
  eq_of_value_eq (by rw [value_eq, value_eq, hbus, hdigits])

theorem appendDigits_append (n : Nat) (xs ys : List Nat) :
    appendDigits n (xs ++ ys) = appendDigits (appendDigits n xs) ys :=
  List.foldl_append

theorem appendDigits_zeros_le {m n : Nat} (digits : List Nat) (h : m ≤ n) :
    appendDigits m (List.replicate digits.length 0) ≤ appendDigits n digits := by
  induction digits generalizing m n with
  | nil => exact h
  | cons d rest ih =>
    have hle : 16 * m + 0 ≤ 16 * n + d := by omega
    exact ih hle

def tail (l : Location) : List UInt8 := l.digits.dropWhile (· ≠ 0)

theorem ports_append_tail (l : Location) : l.ports ++ l.tail = l.digits :=
  List.takeWhile_append_dropWhile

theorem length_tail (l : Location) : l.tail.length = levels - l.ports.length := by
  have h := congrArg List.length (ports_append_tail l)
  rw [List.length_append] at h
  change _ = levels at h
  omega

@[simp] theorem bus_canonical (l : Location) : l.canonical.bus = l.bus := bus_encode _ _

@[simp] theorem ports_canonical (l : Location) : l.canonical.ports = l.ports := by
  rw [canonical, ports_encode l.bus fun _ => isPort_of_mem_ports,
    List.take_of_length_le (length_ports_le l)]

theorem canonical_canonical (l : Location) : l.canonical.canonical = l.canonical :=
  canonical_encode l.bus fun _ => isPort_of_mem_ports

theorem tail_canonical (l : Location) :
    l.canonical.tail = List.replicate l.tail.length 0 := by
  have hzeros : l.canonical.digits = l.ports ++ List.replicate l.tail.length 0 := by
    have hid : l.ports.map (UInt8.ofNat ∘ UInt8.toNat) = l.ports := by
      rw [show UInt8.ofNat ∘ UInt8.toNat = id from funext fun p => UInt8.ofNat_toNat, List.map_id]
    rw [canonical, digits_encode, pathDigits_of_isPort fun _ => isPort_of_mem_ports,
      List.take_of_length_le (length_ports_le l), List.map_append, List.map_map, hid,
      List.map_replicate, length_tail]
    rfl
  rw [← ports_append_tail, ports_canonical] at hzeros
  exact List.append_cancel_left hzeros

theorem value_canonical_le (l : Location) : l.canonical.value ≤ l.value := by
  rw [value_eq l.canonical, value_eq l, ← ports_append_tail l.canonical, ← ports_append_tail l,
    bus_canonical, ports_canonical, tail_canonical, List.map_append, List.map_append,
    appendDigits_append, appendDigits_append, List.map_replicate,
    ← List.length_map (f := UInt8.toNat)]
  exact appendDigits_zeros_le _ (Nat.le_refl _)

theorem canonical_eq_iff {l : Location} : l.canonical = l ↔ ZerosLast l.digits := by
  rw [zerosLast_iff]
  change _ ↔ ∀ d ∈ l.tail, d = 0
  constructor
  · intro h d hd
    rw [← h, tail_canonical] at hd
    exact List.eq_of_mem_replicate hd
  · intro h
    have htail : List.replicate l.tail.length 0 = l.tail := (List.eq_replicate_of_mem h).symm
    refine eq_of_digits_eq (bus_canonical l) ?_
    rw [← ports_append_tail, ← ports_append_tail, ports_canonical, tail_canonical, htail]

theorem ports_eq_take (l : Location) : l.ports = l.digits.take l.depth :=
  List.prefix_iff_eq_take.1 (List.takeWhile_prefix _)

theorem depth_eq_findIdx (l : Location) : l.depth = l.digits.findIdx (· = 0) := by
  have hle : l.digits.findIdx (· = 0) ≤ l.digits.length := List.findIdx_le_length
  have hports : l.ports = l.digits.take (l.digits.findIdx (· = 0)) := by
    rw [Location.ports, List.takeWhile_eq_take_findIdx_not]
    simp
  rw [depth, hports, List.length_take_of_le hle]

theorem port?_eq (l : Location) :
    l.port? = if l.depth = 0 then none else l.digits[l.depth - 1]? := by
  rw [port?, List.getLast?_eq_getElem?]
  change l.ports[l.depth - 1]? = _
  split
  · next hdepth =>
    have hnil : l.ports = [] := List.length_eq_zero_iff.1 hdepth
    simp [hnil]
  · next hdepth =>
    have hlt : l.depth - 1 < l.depth := by omega
    rw [ports_eq_take, List.getElem?_take_of_lt hlt]

/-- Every reading of a location stops where its path ends: at the first zero digit. -/
structure ReadsPath (l : Location) (path : List UInt8) : Prop where
  ports : l.ports = path
  depth : l.depth = path.length
  depth_le : l.depth ≤ 6
  port? : l.port? = path.getLast?
  port?_eq_none : l.port? = none ↔ path = []
  isRootHub : l.isRootHub = true ↔ path = []
  ports_scan : l.ports = l.digits.take l.depth
  depth_scan : l.depth = l.digits.findIdx (· = 0)
  port?_scan : l.port? = if l.depth = 0 then none else l.digits[l.depth - 1]?

theorem readsPath (l : Location) : l.ReadsPath l.ports where
  ports := rfl
  depth := rfl
  depth_le := length_ports_le l
  port? := rfl
  port?_eq_none := List.getLast?_eq_none_iff
  isRootHub := isRootHub_iff
  ports_scan := ports_eq_take l
  depth_scan := depth_eq_findIdx l
  port?_scan := port?_eq l

/-- All that is told of two locations, but for the words themselves, is the same. -/
structure Alike (l m : Location) : Prop where
  depth : l.depth = m.depth
  port? : l.port? = m.port?
  ports : l.ports = m.ports
  isRootHub : l.isRootHub = m.isRootHub
  deviceName : l.deviceName = m.deviceName
  interfaceName : ∀ c i, l.interfaceName c i = m.interfaceName c i
  branch : l.branch = m.branch
  portDigit : l.portDigit = m.portDigit
  driverNode : ∀ i, l.driverNode i = m.driverNode i

theorem alike_of_ports_eq {l m : Location} (hbus : l.bus = m.bus) (hports : l.ports = m.ports) :
    l.Alike m := by
  have hdepth : l.depth = m.depth := congrArg List.length hports
  have hport : l.port? = m.port? := congrArg List.getLast? hports
  have hroot : l.isRootHub = m.isRootHub := congrArg (· == 0) hdepth
  have hdevice : l.deviceName = m.deviceName := by
    rw [Location.deviceName, Location.deviceName, hbus, hports]
  have hinterface : ∀ c i, l.interfaceName c i = m.interfaceName c i := by
    intro c i
    rw [Location.interfaceName, Location.interfaceName, hbus, hports]
  refine ⟨hdepth, hport, hports, hroot, hdevice, hinterface, ?_, ?_, ?_⟩
  · rw [branch, branch, hdepth]
  · rw [portDigit, portDigit, hport]
  · intro i
    rw [driverNode, driverNode, hroot, hdevice, hinterface]

/-- Whatever ports a location is made of, it reads as its bus and the longest path without a zero
among their low digits. The location of this path reads the same and is no larger: it is the
location itself unless a digit is hidden behind a zero. -/
theorem readings_encode (bus : UInt8) (ports : List UInt8) :
    (encode bus ports).bus = bus ∧
    (∃ path, IsPathOf path (lowDigits ports) ∧ (encode bus ports).ReadsPath path) ∧
    (encode bus ports).canonical.value ≤ (encode bus ports).value ∧
    ((encode bus ports).canonical.value = (encode bus ports).value ↔
      ZerosLast (lowDigits ports)) ∧
    (encode bus ports).canonical.canonical = (encode bus ports).canonical ∧
    (encode bus ports).canonical.Alike (encode bus ports) := by
  have hpath : IsPathOf (encode bus ports).ports (lowDigits ports) := by
    rw [ports_encode_eq]
    exact isPathOf_takeWhile _
  refine ⟨bus_encode bus ports, ⟨_, hpath, readsPath _⟩, value_canonical_le _, ?_,
    canonical_canonical _, alike_of_ports_eq (bus_canonical _) (ports_canonical _)⟩
  constructor
  · intro h
    have hdigits := canonical_eq_iff.1 (eq_of_value_eq h)
    rwa [digits_encode_eq, zerosLast_append_zeros] at hdigits
  · intro h
    rw [← zerosLast_append_zeros, ← digits_encode_eq bus] at h
    exact congrArg Location.value (canonical_eq_iff.2 h)

end Location

end UsbTopology
