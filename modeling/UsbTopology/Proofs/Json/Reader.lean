import UsbTopology.Json.Fault

set_option autoImplicit false

/-!
# Readings that succeed

How a reading of several steps succeeds, and what is left of a text when its blanks are skipped.
-/
namespace UsbTopology.Json

theorem ok_bind {ε α β : Type} (a : α) (f : α → Except ε β) : (Except.ok a >>= f) = f a := rfl

theorem bind_eq_ok_iff {ε α β : Type} {x : Except ε α} {f : α → Except ε β} {b : β} :
    x >>= f = .ok b ↔ ∃ a, x = .ok a ∧ f a = .ok b := by
  cases x with
  | error e => exact ⟨nofun, nofun⟩
  | ok a => simp [ok_bind]

/-- Nothing that would go on with a numeral. -/
def Ends (rest : List Char) : Prop :=
  ∀ ch ∈ rest.head?, (ch.isDigit || ch = '.' || ch = 'e' || ch = 'E') = false

theorem ends_nil : Ends [] := nofun

theorem ends_cons {ch : Char} {rest : List Char}
    (h : (ch.isDigit || ch = '.' || ch = 'e' || ch = 'E') = false) : Ends (ch :: rest) := by
  intro d hd
  obtain rfl : ch = d := Option.some.inj hd
  exact h

theorem skipBlanks_append {gap rest : List Char} (hgap : ∀ ch ∈ gap, Cursor.isBlank ch)
    (hrest : ∀ ch ∈ rest.head?, Cursor.isBlank ch = false) (p : Position) :
    ∃ q, (⟨p, gap ++ rest⟩ : Cursor).skipBlanks = ⟨q, rest⟩ := by
  have h : (⟨p, gap ++ rest⟩ : Cursor).skipBlanks.rest = rest := by
    rw [Cursor.rest_skipBlanks, List.dropWhile_append_of_pos hgap]
    cases rest with
    | nil => rfl
    | cons ch rest => exact List.dropWhile_cons_of_neg (by simp [hrest ch (by simp)])
  cases hc : (⟨p, gap ++ rest⟩ : Cursor).skipBlanks with
  | mk q left =>
    rw [hc] at h
    subst h
    exact ⟨q, rfl⟩

end UsbTopology.Json
