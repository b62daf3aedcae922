import UsbTopology.Text.Hex

set_option autoImplicit false

/-!
# Locations

A location is a word of eight hexadecimal digits: two for the bus, then one for each of six hub
levels, the first hop first. A zero digit ends the port path, so the order of the words is the
order of a depth-first walk over the buses.
-/
namespace UsbTopology

structure Location where
  value : Nat
  lt_word : value < 0x100000000
deriving DecidableEq, Repr

namespace Location

def levels : Nat := 6

def appendDigits (n : Nat) (digits : List Nat) : Nat :=
  digits.foldl (fun acc d => 16 * acc + d) n

/-- Every digit makes room for itself, so a bound moves by as many digits. -/
theorem appendDigits_lt {n bound : Nat} (digits : List Nat) (hn : n < bound)
    (hd : ∀ d ∈ digits, d < 16) :
    appendDigits n digits < appendDigits bound (List.replicate digits.length 0) := by
  induction digits generalizing n bound with
  | nil => exact hn
  | cons d rest ih =>
    have hlt : 16 * n + d < 16 * bound + 0 := by
      have := hd d (by simp)
      omega
    exact ih hlt fun e he => hd e (by simp [he])

/-- The digits of a port path: the low four bits of its first six ports, then zeros. -/
def pathDigits (ports : List UInt8) : List Nat :=
  let kept := (ports.take levels).map fun p => p.toNat % 16
  kept ++ List.replicate (levels - kept.length) 0

theorem length_pathDigits (ports : List UInt8) : (pathDigits ports).length = levels := by
  simp only [pathDigits, List.length_append, List.length_map, List.length_take,
    List.length_replicate]
  omega

theorem lt_of_mem_pathDigits {ports : List UInt8} {d : Nat} (h : d ∈ pathDigits ports) :
    d < 16 := by
  simp only [pathDigits, List.mem_append, List.mem_map, List.mem_replicate] at h
  rcases h with ⟨p, _, rfl⟩ | ⟨_, rfl⟩
  · exact Nat.mod_lt _ (by decide)
  · decide

/-- The location of a device: ports below the sixth level are dropped. -/
def encode (bus : UInt8) (ports : List UInt8) : Location where
  value := appendDigits bus.toNat (pathDigits ports)
  lt_word := by
    have h := appendDigits_lt (pathDigits ports) bus.toNat_lt
      fun _ h => lt_of_mem_pathDigits h
    rw [length_pathDigits] at h
    exact h

def busUnit : Nat := 0x1000000

def bus (l : Location) : UInt8 := UInt8.ofNat (l.value / busUnit)

def digits (l : Location) : List UInt8 :=
  [l.value / 0x100000 % 16, l.value / 0x10000 % 16, l.value / 0x1000 % 16,
    l.value / 0x100 % 16, l.value / 0x10 % 16, l.value % 16].map UInt8.ofNat

/-- The port path, up to the first zero digit. -/
def ports (l : Location) : List UInt8 := l.digits.takeWhile (· ≠ 0)

def depth (l : Location) : Nat := l.ports.length

def isRootHub (l : Location) : Bool := l.depth == 0

def port? (l : Location) : Option UInt8 := l.ports.getLast?

def text (l : Location) : String := Text.hexWord l.value

/-- The word with its bus byte inverted, as text: larger buses sort first. -/
def sortTag (l : Location) : String :=
  Text.hexWord ((255 - l.value / busUnit) * busUnit + l.value % busUnit)

end Location

end UsbTopology
