import UsbTopology.Proofs.Device

set_option autoImplicit false

/-!
# What is below a device

The locations of devices that pass their check are in the order of their places, and a seventh port
makes no difference. So what is below a device is listed right behind it, before the next device on
the same hub (`location_order`).
-/
namespace UsbTopology

namespace Location

theorem encode_eq_encode_iff {a b : UInt8} {P Q : List UInt8} (hP : ∀ p ∈ P, IsPort p)
    (hQ : ∀ p ∈ Q, IsPort p) :
    encode a P = encode b Q ↔ a = b ∧ P.take levels = Q.take levels := by
  constructor
  · intro h
    have hbus := congrArg bus h
    have hports := congrArg ports h
    rw [bus_encode, bus_encode] at hbus
    rw [ports_encode a hP, ports_encode b hQ] at hports
    exact ⟨hbus, hports⟩
  · rintro ⟨rfl, hports⟩
    rw [← encode_take, hports, encode_take]

end Location

namespace Device

/-- The device is behind a port of the other one, at any distance. -/
def IsBelow (e d : Device) : Prop := e.bus = d.bus ∧ ∃ p, d.ports ++ [p] <+: e.ports

/-- The device is the root hub of a later bus, or it is at a later port of the same hub. -/
inductive IsLaterSibling (s d : Device) : Prop where
  | rootHub (bus : d.bus < s.bus) (root : d.ports = []) (later : s.ports = [])
  | port (hub : List UInt8) (p q : UInt8) (bus : s.bus = d.bus) (path : d.ports = hub ++ [p])
      (later : s.ports = hub ++ [q]) (lt : p < q)

variable {c d s : Device}

theorem location_lt_iff (hc : ∀ p ∈ c.ports, IsPort p) (hd : ∀ p ∈ d.ports, IsPort p) :
    c.location.value < d.location.value ↔
      c.bus < d.bus ∨ c.bus = d.bus ∧
        c.ports.take Location.levels < d.ports.take Location.levels :=
  Location.encode_lt_encode_iff hc hd

theorem length_ports_of_depth (hc : ∀ p ∈ c.ports, IsPort p)
    (hdepth : c.location.depth < Location.levels) : c.ports.length < Location.levels := by
  have h := Location.depth_encode c.bus hc
  change c.location.depth = _ at h
  omega

theorem prefix_take_of_lt {p : UInt8} (hlevel : c.ports.length < Location.levels)
    (hnext : c.ports ++ [p] <+: d.ports) : c.ports ++ [p] <+: d.ports.take Location.levels := by
  refine List.prefix_take_iff.2 ⟨hnext, ?_⟩
  rw [List.length_append, List.length_singleton]
  exact hlevel

theorem location_lt_of_isBelow (hc : ∀ p ∈ c.ports, IsPort p) (hd : ∀ p ∈ d.ports, IsPort p)
    (hlevel : c.ports.length < Location.levels) (h : d.IsBelow c) :
    c.location.value < d.location.value := by
  obtain ⟨hbus, p, hnext⟩ := h
  refine (location_lt_iff hc hd).2 (.inr ⟨hbus.symm, ?_⟩)
  rw [List.take_of_length_le (Nat.le_of_lt hlevel)]
  exact lt_of_prefix_next (prefix_take_of_lt hlevel hnext)

theorem location_lt_of_isLaterSibling (hd : ∀ p ∈ d.ports, IsPort p)
    (hs : ∀ p ∈ s.ports, IsPort p) (hlevel : c.ports.length < Location.levels)
    (hbelow : d.IsBelow c) (hlater : s.IsLaterSibling c) :
    d.location.value < s.location.value := by
  obtain ⟨hbus, p, hnext⟩ := hbelow
  refine (location_lt_iff hd hs).2 ?_
  cases hlater with
  | rootHub hlt => exact .inl (hbus ▸ hlt)
  | port hub q r hbus' hpath hpath' hlt =>
    -- The two paths part at the last port of the device above, where the sibling has a later one.
    have hlast : hub ++ [q] <+: d.ports.take Location.levels := by
      rw [← hpath]
      exact (List.prefix_append _ _).trans (prefix_take_of_lt hlevel hnext)
    have hshort : s.ports.length ≤ Location.levels := by
      have hsame : s.ports.length = c.ports.length := by simp [hpath, hpath']
      omega
    refine .inr ⟨hbus.trans hbus'.symm, ?_⟩
    rw [List.take_of_length_le hshort, hpath']
    exact lt_of_prefixes hlt hlast (List.prefix_refl _)

/-- Locations of devices that can be placed compare as bus and port path do, the path up to its
sixth port. So the locations below a device lie between its own and that of each later sibling. -/
theorem location_order (hc : c.validate = .ok c) (hd : d.validate = .ok d) :
    (c.location.value < d.location.value ↔
      c.bus < d.bus ∨ c.bus = d.bus ∧ c.ports.take 6 < d.ports.take 6) ∧
    (c.location = d.location ↔ c.bus = d.bus ∧ c.ports.take 6 = d.ports.take 6) ∧
    (c.location.depth ≤ 5 → d.IsBelow c →
      c.location.value < d.location.value ∧
        ∀ s : Device, s.validate = .ok s → s.IsLaterSibling c →
          d.location.value < s.location.value) := by
  have hcports := isPort_of_validate hc
  have hdports := isPort_of_validate hd
  refine ⟨location_lt_iff hcports hdports, Location.encode_eq_encode_iff hcports hdports, ?_⟩
  intro hdepth hbelow
  have hlevel := length_ports_of_depth hcports (Nat.lt_succ_of_le hdepth)
  refine ⟨location_lt_of_isBelow hcports hdports hlevel hbelow, ?_⟩
  intro s hs hlater
  exact location_lt_of_isLaterSibling hdports (isPort_of_validate hs) hlevel hbelow hlater

def outerHub : Device := ⟨1, [2], 2, .high, [⟨1, [⟨9, 0, 0⟩]⟩]⟩

/-- A device at the seventh level, whose last port no location shows. -/
def farDevice : Device := ⟨1, [2, 15, 15, 1, 15, 15, 9], 9, .full, [⟨1, [⟨3, 0, 0⟩]⟩]⟩

def nextDevice : Device := ⟨1, [3], 4, .full, [⟨1, [⟨3, 0, 0⟩]⟩]⟩

theorem location_order_farDevice :
    farDevice.IsBelow outerHub ∧ nextDevice.IsLaterSibling outerHub ∧
      outerHub.location.value < farDevice.location.value ∧
      farDevice.location.value < nextDevice.location.value := by
  have hbelow : farDevice.IsBelow outerHub := ⟨rfl, 15, by decide⟩
  have hlater : nextDevice.IsLaterSibling outerHub := .port [] 2 3 rfl rfl rfl (by decide)
  obtain ⟨-, -, hsubtree⟩ := @location_order outerHub farDevice (by decide) (by decide)
  obtain ⟨hlt, hnext⟩ := hsubtree (by decide) hbelow
  exact ⟨hbelow, hlater, hlt, hnext nextDevice (by decide) hlater⟩

end Device

end UsbTopology
