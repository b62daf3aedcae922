import UsbTopology.Json.Value
import UsbTopology.Proofs.Json.Container

set_option autoImplicit false

/-!
# How a value is read

A value that could be read was a word, a number, a text, an array or an object (`Taken`), which its
first character decides.
-/
namespace UsbTopology.Json

theorem readValue_skipBlanks (depth : Nat) (c : Cursor) :
    readValue depth c.skipBlanks = readValue depth c := by
  unfold readValue
  rw [skipBlanks_skipBlanks]

/-- The ways to read a value at its first character. -/
inductive Taken (c : Cursor) : Nat → Json → Cursor → Prop where
  | null {depth : Nat} {rest : List Char} {c' : Cursor} : c.rest = 'n' :: rest →
      readNull c = .ok c' → Taken c depth .null c'
  | yes {depth : Nat} {rest : List Char} {c' : Cursor} : c.rest = 't' :: rest →
      readTrue c = .ok c' → Taken c depth (.bool true) c'
  | no {depth : Nat} {rest : List Char} {c' : Cursor} : c.rest = 'f' :: rest →
      readFalse c = .ok c' → Taken c depth (.bool false) c'
  | number {depth : Nat} {ch : Char} {rest : List Char} {n : Number} {c' : Cursor} :
      c.rest = ch :: rest → (ch = '-' || isDigit ch) = true → readNumber c = .ok (n, c') →
      Taken c depth (.number n) c'
  | text {depth : Nat} {rest : List Char} {s : String} {c' : Cursor} : c.rest = '"' :: rest →
      readName c = .ok (s, c') → Taken c depth (.string s) c'
  | array {depth : Nat} {rest : List Char} {es : List Json} {c' : Cursor} : c.rest = '[' :: rest →
      readArray (readValue depth) c = .ok (es, c') → Taken c (depth + 1) (.array es) c'
  | object {depth : Nat} {rest : List Char} {ms : List (String × Json)} {c' : Cursor} :
      c.rest = '\x7b' :: rest → readObject readName (readValue depth) c = .ok (ms, c') →
      Taken c (depth + 1) (.object ms) c'

theorem taken_of_readValue {depth : Nat} {c c' : Cursor} {j : Json}
    (h : readValue depth c = .ok (j, c')) : Taken c.skipBlanks depth j c' := by
  unfold readValue at h
  cases hrest : c.skipBlanks.rest with
  | nil => simp [hrest, Cursor.fail] at h
  | cons ch rest =>
    simp only [hrest] at h
    by_cases hn : ch = 'n'
    · rw [if_pos hn] at h
      obtain ⟨c₁, hnull, hok⟩ := bind_eq_ok_iff.1 h
      cases hok
      exact .null (hn ▸ hrest) hnull
    rw [if_neg hn] at h
    by_cases ht : ch = 't'
    · rw [if_pos ht] at h
      obtain ⟨c₁, htrue, hok⟩ := bind_eq_ok_iff.1 h
      cases hok
      exact .yes (ht ▸ hrest) htrue
    rw [if_neg ht] at h
    by_cases hf : ch = 'f'
    · rw [if_pos hf] at h
      obtain ⟨c₁, hfalse, hok⟩ := bind_eq_ok_iff.1 h
      cases hok
      exact .no (hf ▸ hrest) hfalse
    rw [if_neg hf] at h
    by_cases hd : (ch = '-' || isDigit ch) = true
    · rw [if_pos hd] at h
      obtain ⟨⟨n, c₁⟩, hnumber, hok⟩ := bind_eq_ok_iff.1 h
      cases hok
      exact .number hrest hd hnumber
    rw [if_neg hd] at h
    by_cases hq : ch = '"'
    · rw [if_pos hq] at h
      obtain ⟨⟨s, c₁⟩, hname, hok⟩ := bind_eq_ok_iff.1 h
      cases hok
      exact .text (hq ▸ hrest) hname
    rw [if_neg hq] at h
    by_cases ha : ch = '['
    · rw [if_pos ha] at h
      cases depth with
      | zero => cases h
      | succ depth =>
        obtain ⟨⟨es, c₁⟩, harray, hok⟩ := bind_eq_ok_iff.1 h
        cases hok
        exact .array (ha ▸ hrest) harray
    rw [if_neg ha] at h
    by_cases ho : ch = '\x7b'
    · rw [if_pos ho] at h
      cases depth with
      | zero => cases h
      | succ depth =>
        obtain ⟨⟨ms, c₁⟩, hobject, hok⟩ := bind_eq_ok_iff.1 h
        cases hok
        exact .object (ho ▸ hrest) hobject
    rw [if_neg ho] at h
    cases h

end UsbTopology.Json
