import Mathlib.Algebra.Group.Nat.Defs
import UsbTopology.Proofs.Text.Utf8
import UsbTopology.Text.Hex

set_option autoImplicit false

/-!
# Order of hexadecimal texts

Texts of one width compare byte by byte as their numbers compare: a digit is a single byte, and the
bytes of the sixteen digits ascend.
-/
namespace UsbTopology.Text

theorem compare_append_singleton {α : Type} [Ord α] {xs ys : List α} (x y : α)
    (hlen : xs.length = ys.length) :
    compare (xs ++ [x]) (ys ++ [y]) = (compare xs ys).then (compare x y) := by
  induction xs generalizing ys with
  | nil =>
    obtain rfl : ys = [] := List.length_eq_zero_iff.1 hlen.symm
    simp [List.compare_cons_cons]
  | cons x' xs ih =>
    cases ys with
    | nil => simp at hlen
    | cons y' ys =>
      have hrest := @ih ys (by simpa using hlen)
      rw [List.cons_append, List.cons_append, List.compare_cons_cons, List.compare_cons_cons, hrest,
        Ordering.then_assoc]

theorem compare_add_left (k m n : Nat) : compare (k + m) (k + n) = compare m n := by
  rcases Nat.lt_trichotomy m n with h | rfl | h
  · rw [Nat.compare_eq_lt.2 h, Nat.compare_eq_lt.2 (by omega)]
  · rw [Nat.compare_eq_eq.2 rfl, Nat.compare_eq_eq.2 rfl]
  · rw [Nat.compare_eq_gt.2 h, Nat.compare_eq_gt.2 (by omega)]

/-- Numbers compare by what stands before a digit, then by the digit. -/
theorem compare_div_mod (m n base : Nat) :
    (compare (m / base) (n / base)).then (compare (m % base) (n % base)) = compare m n := by
  rcases Nat.lt_trichotomy (m / base) (n / base) with h | h | h
  · rw [Nat.compare_eq_lt.2 h, Nat.compare_eq_lt.2 (Nat.lt_of_div_lt_div h)]
    rfl
  · rw [Nat.compare_eq_eq.2 h, Ordering.eq_then, ← compare_add_left (base * (m / base)),
      Nat.div_add_mod, h, Nat.div_add_mod]
  · rw [Nat.compare_eq_gt.2 h, Nat.compare_eq_gt.2 (Nat.lt_of_div_lt_div h)]
    rfl

def hexByte (d : Nat) : UInt8 := UInt8.ofNat (hexDigit d).toNat

theorem utf8EncodeChar_hexDigit : ∀ d < 16, String.utf8EncodeChar (hexDigit d) = [hexByte d] := by
  decide

theorem compare_hexByte :
    ∀ d < 16, ∀ e < 16, compare (hexByte d) (hexByte e) = compare d e := by
  decide

def hexBytes (width n : Nat) : List UInt8 := (hexFixed width n).flatMap String.utf8EncodeChar

theorem hexBytes_succ (width n : Nat) :
    hexBytes (width + 1) n = hexBytes width (n / 16) ++ [hexByte (n % 16)] := by
  have hlast := utf8EncodeChar_hexDigit (n % 16) (Nat.mod_lt n (by decide))
  rw [hexBytes, hexFixed, List.flatMap_append, List.flatMap_singleton, hlast, hexBytes]

theorem length_hexBytes (width n : Nat) : (hexBytes width n).length = width := by
  induction width generalizing n with
  | zero => rfl
  | succ width ih => rw [hexBytes_succ, List.length_append, ih, List.length_singleton]

theorem compare_hexBytes {width m n : Nat} (hm : m < 16 ^ width) (hn : n < 16 ^ width) :
    compare (hexBytes width m) (hexBytes width n) = compare m n := by
  -- The last digit counts where all digits before it agree, as the remainder does.
  induction width generalizing m n with
  | zero =>
    have hm : m = 0 := by omega
    have hn : n = 0 := by omega
    subst hm hn
    rfl
  | succ width ih =>
    have hrest : compare (hexBytes width (m / 16)) (hexBytes width (n / 16)) =
        compare (m / 16) (n / 16) := ih (by omega) (by omega)
    have hlast := compare_hexByte (m % 16) (Nat.mod_lt m (by decide)) (n % 16)
      (Nat.mod_lt n (by decide))
    rw [hexBytes_succ, hexBytes_succ,
      compare_append_singleton _ _ (by rw [length_hexBytes, length_hexBytes]), hrest, hlast,
      compare_div_mod]

theorem encode_hexWord (n : Nat) : encode (hexWord n) = 0x30 :: 0x78 :: hexBytes 8 n := by
  rw [encode, toList_hexWord]
  rfl

theorem compare_hexWord {m n : Nat} (hm : m < 16 ^ 8) (hn : n < 16 ^ 8) :
    compare (encode (hexWord m)) (encode (hexWord n)) = compare m n := by
  rw [encode_hexWord, encode_hexWord, List.compare_cons_cons, List.compare_cons_cons,
    compare_hexBytes hm hn]
  rfl

theorem length_hexWord (n : Nat) : (hexWord n).length = 10 := by
  rw [← String.length_toList, toList_hexWord, List.length_cons, List.length_cons, length_hexFixed]

end UsbTopology.Text
