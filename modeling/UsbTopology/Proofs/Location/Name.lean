import UsbTopology.Proofs.Location.Order
import UsbTopology.Proofs.Text.Decimal

set_option autoImplicit false

/-!
# Node names are unambiguous

Decimal fields between separators that are no digits can be told apart again, so different places
have different node names, and so have different interfaces of one place.
-/
namespace UsbTopology

theorem byteText_toList_injective {a b : UInt8} (h : (byteText a).toList = (byteText b).toList) :
    a = b := by
  rw [toList_byteText, toList_byteText] at h
  have hvalue := congrArg (fun digits => Nat.ofDigitChars 10 digits 0) h
  simp only [Nat.ofDigitChars_ten_toDigits] at hvalue
  exact UInt8.toNat_inj.1 hvalue

/-- A decimal field ends where something begins that is no digit. -/
theorem field_inj {a b : UInt8} {s t : List Char} (hs : ∀ c ∈ s.head?, c.isDigit = false)
    (ht : ∀ c ∈ t.head?, c.isDigit = false)
    (h : (byteText a).toList ++ s = (byteText b).toList ++ t) : a = b ∧ s = t := by
  have ha := takeWhile_digits (fun c => isDigit_of_mem_byteText (b := a)) hs
  have hb := takeWhile_digits (fun c => isDigit_of_mem_byteText (b := b)) ht
  rw [h] at ha
  exact ⟨byteText_toList_injective (ha.1.symm.trans hb.1), ha.2.symm.trans hb.2⟩

theorem exists_cons_byteText (b : UInt8) :
    ∃ c rest, (byteText b).toList = c :: rest ∧ c.isDigit = true := by
  cases h : (byteText b).toList with
  | nil => simp [Nat.toDigits_ne_nil] at h
  | cons c rest => exact ⟨c, rest, rfl, isDigit_of_mem_byteText (h ▸ List.mem_cons_self)⟩

theorem toList_dotted_cons (p : UInt8) (ports : List UInt8) :
    (".".intercalate ((p :: ports).map byteText)).toList =
      (byteText p).toList ++ ports.flatMap fun q => '.' :: (byteText q).toList := by
  induction ports generalizing p with
  | nil => simp
  | cons q ports ih =>
    rw [List.map_cons, List.map_cons, String.intercalate_cons_cons, String.toList_append,
      String.toList_append, ← List.map_cons, ih q]
    simp

theorem dotted_inj {P Q : List UInt8} {s t : List Char}
    (hs : ∀ c ∈ s.head?, c.isDigit = false ∧ c ≠ '.')
    (ht : ∀ c ∈ t.head?, c.isDigit = false ∧ c ≠ '.')
    (h : (P.flatMap fun q => '.' :: (byteText q).toList) ++ s =
      (Q.flatMap fun q => '.' :: (byteText q).toList) ++ t) : P = Q ∧ s = t := by
  have hhead : ∀ {R : List UInt8} {u : List Char}, (∀ c ∈ u.head?, c.isDigit = false ∧ c ≠ '.') →
      ∀ c ∈ ((R.flatMap fun q => '.' :: (byteText q).toList) ++ u).head?, c.isDigit = false := by
    intro R u hu c hc
    cases R with
    | nil => exact (hu c hc).1
    | cons r R =>
      obtain rfl : '.' = c := by simpa using hc
      decide
  induction P generalizing Q with
  | nil =>
    cases Q with
    | nil => exact ⟨rfl, h⟩
    | cons q Q =>
      have hdot := hs '.' (by rw [show s = _ from h]; simp)
      exact absurd rfl hdot.2
  | cons p P ih =>
    cases Q with
    | nil =>
      have hdot := ht '.' (by rw [show t = _ from h.symm]; simp)
      exact absurd rfl hdot.2
    | cons q Q =>
      simp only [List.flatMap_cons, List.cons_append, List.cons.injEq, true_and,
        List.append_assoc] at h
      obtain ⟨hpq, hrest⟩ := field_inj (hhead hs) (hhead ht) h
      obtain ⟨hPQ, hst⟩ := ih hrest
      exact ⟨by rw [hpq, hPQ], hst⟩

theorem dottedPath_inj {P Q : List UInt8} {s t : List Char}
    (hs : ∀ c ∈ s.head?, c.isDigit = false ∧ c ≠ '.')
    (ht : ∀ c ∈ t.head?, c.isDigit = false ∧ c ≠ '.')
    (h : (".".intercalate (P.map byteText)).toList ++ s =
      (".".intercalate (Q.map byteText)).toList ++ t) : P = Q ∧ s = t := by
  have hnil : ∀ {q : UInt8} {R : List UInt8} {u v : List Char},
      (∀ c ∈ u.head?, c.isDigit = false ∧ c ≠ '.') →
      u ≠ (".".intercalate ((q :: R).map byteText)).toList ++ v := by
    intro q R u v hu huv
    obtain ⟨c, rest, hc, hdigit⟩ := exists_cons_byteText q
    rw [toList_dotted_cons, hc] at huv
    have hnot := (hu c (by rw [huv]; simp)).1
    rw [hdigit] at hnot
    exact absurd hnot (by decide)
  match P, Q with
  | [], [] => exact ⟨rfl, h⟩
  | [], q :: Q => exact absurd h (hnil hs)
  | p :: P, [] => exact absurd h.symm (hnil ht)
  | p :: P, q :: Q =>
    refine dotted_inj hs ht ?_
    rw [toList_dotted_cons, toList_dotted_cons] at h
    simpa using h

theorem toList_portPath (bus : UInt8) (ports : List UInt8) :
    (portPath bus ports).toList =
      (byteText bus).toList ++ '-' :: (".".intercalate (ports.map byteText)).toList := by
  rw [portPath, String.toList_append, String.toList_append, List.append_assoc]
  rfl

theorem portPath_append_inj {a b : UInt8} {P Q : List UInt8} {s t : List Char}
    (hs : ∀ c ∈ s.head?, c.isDigit = false ∧ c ≠ '.')
    (ht : ∀ c ∈ t.head?, c.isDigit = false ∧ c ≠ '.')
    (h : (portPath a P).toList ++ s = (portPath b Q).toList ++ t) : a = b ∧ P = Q ∧ s = t := by
  rw [toList_portPath, toList_portPath, List.append_assoc, List.append_assoc] at h
  obtain ⟨hab, hrest⟩ := field_inj (by simp) (by simp) h
  exact ⟨hab, dottedPath_inj hs ht (List.cons.inj hrest).2⟩

theorem portPath_inj {a b : UInt8} {P Q : List UInt8} (h : portPath a P = portPath b Q) :
    a = b ∧ P = Q := by
  have hlist := congrArg (fun name => name.toList ++ []) h
  obtain ⟨hab, hPQ, -⟩ := portPath_append_inj (by simp) (by simp) hlist
  exact ⟨hab, hPQ⟩

theorem toList_interfaceName (bus : UInt8) (ports : List UInt8) (c i : UInt8) :
    (interfaceName bus ports c i).toList =
      (portPath bus ports).toList ++
        ':' :: ((byteText c).toList ++ '.' :: (byteText i).toList) := by
  simp only [interfaceName, String.toList_append, List.append_assoc]
  rfl

theorem interfaceName_inj {a b c c' i i' : UInt8} {P Q : List UInt8}
    (h : interfaceName a P c i = interfaceName b Q c' i') : a = b ∧ P = Q ∧ c = c' ∧ i = i' := by
  have hlist := congrArg String.toList h
  rw [toList_interfaceName, toList_interfaceName] at hlist
  obtain ⟨hab, hPQ, hrest⟩ := portPath_append_inj (by simp) (by simp) hlist
  obtain ⟨hc, hrest⟩ := field_inj (by simp) (by simp) (List.cons.inj hrest).2
  exact ⟨hab, hPQ, hc, byteText_toList_injective (List.cons.inj hrest).2⟩

theorem usb_ne_portPath_append {a b : UInt8} {Q : List UInt8} {t : List Char} :
    ("usb" ++ byteText a).toList ≠ (portPath b Q).toList ++ t := by
  intro h
  obtain ⟨c, rest, hc, hdigit⟩ := exists_cons_byteText b
  rw [toList_portPath, hc, String.toList_append] at h
  obtain ⟨rfl, -⟩ := List.cons.inj h
  exact absurd hdigit (by decide)

theorem deviceName_inj {a b : UInt8} {P Q : List UInt8} (h : deviceName a P = deviceName b Q) :
    a = b ∧ P = Q := by
  have hlist := congrArg String.toList h
  match P, Q with
  | [], [] =>
    have hbyte : (byteText a).toList = (byteText b).toList := by
      simpa [deviceName] using hlist
    exact ⟨byteText_toList_injective hbyte, rfl⟩
  | [], q :: Q => exact absurd (hlist.trans (List.append_nil _).symm) usb_ne_portPath_append
  | p :: P, [] => exact absurd (hlist.symm.trans (List.append_nil _).symm) usb_ne_portPath_append
  | p :: P, q :: Q => exact portPath_inj h

theorem deviceName_ne_interfaceName {a b c i : UInt8} {P Q : List UInt8} :
    deviceName a P ≠ interfaceName b Q c i := by
  intro h
  have hlist := congrArg String.toList h
  rw [toList_interfaceName] at hlist
  cases P with
  | nil => exact usb_ne_portPath_append hlist
  | cons p P =>
    change (portPath a (p :: P)).toList = _ at hlist
    rw [← List.append_nil (portPath a (p :: P)).toList] at hlist
    obtain ⟨-, -, hnil⟩ := portPath_append_inj (by simp) (by simp) hlist
    simp at hnil

namespace Location

theorem isRootHub_iff {l : Location} : l.isRootHub = true ↔ l.ports = [] := by
  rw [isRootHub, depth, beq_iff_eq, List.length_eq_zero_iff]

/-- Node names tell locations of different bus or path apart, and the interfaces of one location. -/
theorem driverNode_inj {l m : Location} {i j : UInt8} (h : l.driverNode i = m.driverNode j) :
    l.bus = m.bus ∧ l.ports = m.ports ∧ (l.isRootHub = true ∨ i = j) := by
  unfold driverNode at h
  split at h
  · next hl =>
    split at h
    · obtain ⟨hbus, hports⟩ := deviceName_inj h
      exact ⟨hbus, hports, .inl hl⟩
    · exact absurd h deviceName_ne_interfaceName
  · split at h
    · exact absurd h.symm deviceName_ne_interfaceName
    · obtain ⟨hbus, hports, -, hij⟩ := interfaceName_inj h
      exact ⟨hbus, hports, .inr hij⟩

end Location

end UsbTopology
