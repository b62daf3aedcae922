import UsbTopology.Json.Container
import UsbTopology.Proofs.Json.Reader

set_option autoImplicit false

/-!
# What stands between the values of a container

The separators of arrays and objects are passed over together with any blanks around them.
-/
namespace UsbTopology.Json

def comma (first : Bool) : List Char := if first then [] else [',']

theorem skipBlanks_cons {ch : Char} (hch : Cursor.isBlank ch = false) (p : Position)
    (rest : List Char) : (⟨p, ch :: rest⟩ : Cursor).skipBlanks = ⟨p, ch :: rest⟩ := by
  simp [Cursor.skipBlanks, Cursor.skipBlanksFrom, hch]

section

variable {gap : List Char} (hgap : ∀ ch ∈ gap, Cursor.isBlank ch)
include hgap

theorem ends_gap {rest : List Char} (hrest : Ends rest) : Ends (gap ++ rest) := by
  cases gap with
  | nil => exact hrest
  | cons ch gap =>
    have hblank : Cursor.isBlank ch = true := hgap ch (by simp)
    simp only [Cursor.isBlank, Bool.or_eq_true, decide_eq_true_eq] at hblank
    rcases hblank with ((rfl | rfl) | rfl) | rfl <;> exact ends_cons (by decide)

theorem skipBlanks_gap {ch : Char} (hch : Cursor.isBlank ch = false) (p : Position)
    (rest : List Char) :
    ∃ q, (⟨p, gap ++ ch :: rest⟩ : Cursor).skipBlanks = ⟨q, ch :: rest⟩ :=
  skipBlanks_append hgap (by simpa using hch) p

theorem seekElement_comma (first : Bool) {ch : Char} (hblank : Cursor.isBlank ch = false)
    (hclose : ch ≠ ']') (p : Position) (rest : List Char) :
    ∃ q, seekElement first ⟨p, comma first ++ (gap ++ ch :: rest)⟩ =
      .ok (true, ⟨q, ch :: rest⟩) := by
  cases first with
  | true =>
    obtain ⟨q, hq⟩ := skipBlanks_gap hgap hblank p rest
    exact ⟨q, by simp [seekElement, comma, hq, hclose]⟩
  | false =>
    obtain ⟨q, hq⟩ := skipBlanks_gap hgap hblank (p.after ',') rest
    have hcomma := @skipBlanks_cons ',' rfl p (gap ++ ch :: rest)
    exact ⟨q, by simp [seekElement, comma, hcomma, Cursor.next, hq, hclose]⟩

theorem seekElement_close (first : Bool) (p : Position) (rest : List Char) :
    ∃ q, seekElement first ⟨p, gap ++ ']' :: rest⟩ = .ok (false, ⟨q, ']' :: rest⟩) := by
  obtain ⟨q, hq⟩ := skipBlanks_gap hgap (show Cursor.isBlank ']' = false by decide) p rest
  exact ⟨q, by simp [seekElement, hq]⟩

theorem seekMember_comma (first : Bool) (p : Position) (rest : List Char) :
    ∃ q, seekMember first ⟨p, comma first ++ (gap ++ '"' :: rest)⟩ =
      .ok (true, ⟨q, '"' :: rest⟩) := by
  have hquote : Cursor.isBlank '"' = false := by decide
  cases first with
  | true =>
    obtain ⟨q, hq⟩ := skipBlanks_gap hgap hquote p rest
    exact ⟨q, by simp [seekMember, comma, hq]⟩
  | false =>
    obtain ⟨q, hq⟩ := skipBlanks_gap hgap hquote (p.after ',') rest
    have hcomma := @skipBlanks_cons ',' rfl p (gap ++ '"' :: rest)
    exact ⟨q, by simp [seekMember, comma, hcomma, Cursor.next, hq]⟩

theorem seekMember_close (first : Bool) (p : Position) (rest : List Char) :
    ∃ q, seekMember first ⟨p, gap ++ '\x7d' :: rest⟩ = .ok (false, ⟨q, '\x7d' :: rest⟩) := by
  obtain ⟨q, hq⟩ := skipBlanks_gap hgap (show Cursor.isBlank '\x7d' = false by decide) p rest
  exact ⟨q, by simp [seekMember, hq]⟩

end

theorem skipBlanks_skipBlanks (c : Cursor) : c.skipBlanks.skipBlanks = c.skipBlanks := by
  cases hc : c.skipBlanks with
  | mk p rest =>
    cases rest with
    | nil => rfl
    | cons ch rest =>
      have hrest := Cursor.rest_skipBlanks c
      rw [hc] at hrest
      have hhead := List.head?_dropWhile_not Cursor.isBlank c.rest
      rw [← hrest] at hhead
      exact skipBlanks_cons (by simpa using hhead) p rest

theorem seekElement_done {first : Bool} {c c' : Cursor}
    (h : seekElement first c = .ok (false, c')) :
    c.skipBlanks = c' ∧ ∃ rest, c'.rest = ']' :: rest := by
  unfold seekElement at h
  cases hrest : c.skipBlanks.rest with
  | nil => simp [hrest, Cursor.fail] at h
  | cons ch rest =>
    simp only [hrest] at h
    split at h
    · next hch =>
      cases h
      exact ⟨rfl, rest, hch ▸ hrest⟩
    · split at h
      · cases h
      · split at h
        · cases hnext : c.skipBlanks.next.skipBlanks.rest with
          | nil => simp [hnext, Cursor.fail] at h
          | cons d rest =>
            simp only [hnext] at h
            split at h <;> cases h
        · cases h

theorem seekMember_done {first : Bool} {c c' : Cursor} (h : seekMember first c = .ok (false, c')) :
    c.skipBlanks = c' ∧ ∃ rest, c'.rest = '\x7d' :: rest := by
  unfold seekMember at h
  cases hrest : c.skipBlanks.rest with
  | nil => simp [hrest, Cursor.fail] at h
  | cons ch rest =>
    simp only [hrest] at h
    split at h
    · next hch =>
      cases h
      exact ⟨rfl, rest, hch ▸ hrest⟩
    · split at h
      · split at h <;> cases h
      · split at h
        · cases hnext : c.skipBlanks.next.skipBlanks.rest with
          | nil => simp [hnext, Cursor.fail] at h
          | cons d rest =>
            simp only [hnext] at h
            split at h
            · cases h
            · split at h <;> cases h
        · cases h

theorem closeArray_skipBlanks (c : Cursor) : closeArray c.skipBlanks = closeArray c := by
  unfold closeArray
  rw [skipBlanks_skipBlanks]

theorem closeArray_done {c : Cursor} {rest : List Char} (hskip : c.skipBlanks = c)
    (hrest : c.rest = ']' :: rest) : closeArray c = (.ok (), c.next) := by
  simp [closeArray, hskip, hrest]

theorem closeObject_done {c : Cursor} {rest : List Char} (hskip : c.skipBlanks = c)
    (hrest : c.rest = '\x7d' :: rest) : closeObject c = (.ok (), c.next) := by
  simp [closeObject, hskip, hrest]

theorem settle_eq_ok_iff {α : Type} {contents : Except Stop (α × Cursor)}
    {close : Cursor → Except Stop Unit × Cursor} {a : α} {c' : Cursor} :
    settle contents close = .ok (a, c') ↔ ∃ c, contents = .ok (a, c) ∧ close c = (.ok (), c') := by
  unfold settle
  rcases contents with stop | ⟨b, c⟩
  · cases stop <;> simp
  · rcases hclose : close c with ⟨_ | ⟨⟩, d⟩ <;> simp [hclose, and_assoc]

section

variable {κ α β : Type} {name : Cursor → Except Stop (κ × Cursor)}
  {read : Cursor → Except Stop (α × Cursor)} {read' : Cursor → Except Stop (β × Cursor)}
  {rounds : List Char} {first : Bool} {c c' : Cursor}

theorem readElements_nil (h : readElements read rounds first c = .ok ([], c')) :
    seekElement first c = .ok (false, c') := by
  cases rounds with
  | nil => cases h
  | cons ch rounds =>
    rw [readElements] at h
    obtain ⟨⟨more, c₁⟩, hseek, hrun⟩ := bind_eq_ok_iff.1 h
    cases more with
    | false =>
      cases hrun
      exact hseek
    | true =>
      obtain ⟨x, -, hrun⟩ := bind_eq_ok_iff.1 hrun
      obtain ⟨y, -, hrun⟩ := bind_eq_ok_iff.1 hrun
      cases hrun

theorem readElements_cons {a : α} {as : List α}
    (h : readElements read rounds first c = .ok (a :: as, c')) :
    ∃ ch rounds' c₁ c₂, rounds = ch :: rounds' ∧ seekElement first c = .ok (true, c₁) ∧
      read c₁ = .ok (a, c₂) ∧ readElements read rounds' false c₂ = .ok (as, c') := by
  cases rounds with
  | nil => cases h
  | cons ch rounds =>
    rw [readElements] at h
    obtain ⟨⟨more, c₁⟩, hseek, hrun⟩ := bind_eq_ok_iff.1 h
    cases more with
    | false => cases hrun
    | true =>
      obtain ⟨⟨b, c₂⟩, ha, hrun⟩ := bind_eq_ok_iff.1 hrun
      obtain ⟨⟨bs, c₃⟩, htail, hrun⟩ := bind_eq_ok_iff.1 hrun
      cases hrun
      exact ⟨ch, rounds, c₁, c₂, rfl, hseek, ha, htail⟩

theorem readMembers_nil (h : readMembers name read rounds first c = .ok ([], c')) :
    seekMember first c = .ok (false, c') := by
  cases rounds with
  | nil => cases h
  | cons ch rounds =>
    rw [readMembers] at h
    obtain ⟨⟨more, c₁⟩, hseek, hrun⟩ := bind_eq_ok_iff.1 h
    cases more with
    | false =>
      cases hrun
      exact hseek
    | true =>
      obtain ⟨x, -, hrun⟩ := bind_eq_ok_iff.1 hrun
      obtain ⟨y, -, hrun⟩ := bind_eq_ok_iff.1 hrun
      obtain ⟨z, -, hrun⟩ := bind_eq_ok_iff.1 hrun
      obtain ⟨w, -, hrun⟩ := bind_eq_ok_iff.1 hrun
      cases hrun

theorem readMembers_cons {m : κ × α} {ms : List (κ × α)}
    (h : readMembers name read rounds first c = .ok (m :: ms, c')) :
    ∃ ch rounds' c₁ c₂ c₃ c₄, rounds = ch :: rounds' ∧ seekMember first c = .ok (true, c₁) ∧
      name c₁ = .ok (m.1, c₂) ∧ readColon c₂ = .ok c₃ ∧ read c₃ = .ok (m.2, c₄) ∧
      readMembers name read rounds' false c₄ = .ok (ms, c') := by
  cases rounds with
  | nil => cases h
  | cons ch rounds =>
    rw [readMembers] at h
    obtain ⟨⟨more, c₁⟩, hseek, hrun⟩ := bind_eq_ok_iff.1 h
    cases more with
    | false => cases hrun
    | true =>
      obtain ⟨⟨k, c₂⟩, hname, hrun⟩ := bind_eq_ok_iff.1 hrun
      obtain ⟨c₃, hcolon, hrun⟩ := bind_eq_ok_iff.1 hrun
      obtain ⟨⟨b, c₄⟩, ha, hrun⟩ := bind_eq_ok_iff.1 hrun
      obtain ⟨⟨bs, c₅⟩, htail, hrun⟩ := bind_eq_ok_iff.1 hrun
      cases hrun
      exact ⟨ch, rounds, c₁, c₂, c₃, c₄, rfl, hseek, hname, hcolon, ha, htail⟩

theorem readElements_end {as : List α} (h : readElements read rounds first c = .ok (as, c')) :
    c'.skipBlanks = c' ∧ ∃ rest, c'.rest = ']' :: rest := by
  induction as generalizing rounds first c with
  | nil =>
    obtain ⟨hskip, hrest⟩ := seekElement_done (readElements_nil h)
    exact ⟨hskip ▸ skipBlanks_skipBlanks c, hrest⟩
  | cons a as ih =>
    obtain ⟨_, _, _, _, -, -, -, htail⟩ := readElements_cons h
    exact ih htail

theorem readMembers_end {ms : List (κ × α)}
    (h : readMembers name read rounds first c = .ok (ms, c')) :
    c'.skipBlanks = c' ∧ ∃ rest, c'.rest = '\x7d' :: rest := by
  induction ms generalizing rounds first c with
  | nil =>
    obtain ⟨hskip, hrest⟩ := seekMember_done (readMembers_nil h)
    exact ⟨hskip ▸ skipBlanks_skipBlanks c, hrest⟩
  | cons m ms ih =>
    obtain ⟨_, _, _, _, _, _, -, -, -, -, -, htail⟩ := readMembers_cons h
    exact ih htail

/-- `read'` reads what `read` reads, as far as the value is translated. -/
def Refines (read : Cursor → Except Stop (α × Cursor)) (read' : Cursor → Except Stop (β × Cursor))
    (f : α → Option β) : Prop :=
  ∀ c c' a b, read c = .ok (a, c') → f a = some b → read' c = .ok (b, c')

theorem mapM_cons_eq_some_iff {f : α → Option β} {a : α} {as : List α} {bs : List β} :
    (a :: as).mapM f = some bs ↔ ∃ b bs', f a = some b ∧ as.mapM f = some bs' ∧ bs = b :: bs' := by
  rw [List.mapM_cons]
  cases f a <;> cases as.mapM f <;> simp [eq_comm]

theorem readElements_refines {f : α → Option β} (href : Refines read read' f) {as : List α}
    {bs : List β} (h : readElements read rounds first c = .ok (as, c'))
    (hmap : as.mapM f = some bs) : readElements read' rounds first c = .ok (bs, c') := by
  induction as generalizing rounds first c bs with
  | nil =>
    obtain rfl : [] = bs := by simpa using hmap
    cases rounds with
    | nil => cases h
    | cons ch rounds => rw [readElements, readElements_nil h, ok_bind]
  | cons a as ih =>
    obtain ⟨b, bs, hb, hbs, rfl⟩ := mapM_cons_eq_some_iff.1 hmap
    obtain ⟨ch, rounds, c₁, c₂, rfl, hseek, ha, htail⟩ := readElements_cons h
    simp only [readElements, hseek, href _ _ _ _ ha hb, ih htail hbs, ok_bind]

theorem readMembers_refines {f : α → Option β} (href : Refines read read' f) {as : List (κ × α)}
    {bs : List (κ × β)} (h : readMembers name read rounds first c = .ok (as, c'))
    (hmap : as.mapM (fun m => (f m.2).map (Prod.mk m.1)) = some bs) :
    readMembers name read' rounds first c = .ok (bs, c') := by
  induction as generalizing rounds first c bs with
  | nil =>
    obtain rfl : [] = bs := by simpa using hmap
    cases rounds with
    | nil => cases h
    | cons ch rounds => rw [readMembers, readMembers_nil h, ok_bind]
  | cons a as ih =>
    obtain ⟨m, bs, hm, hbs, rfl⟩ := mapM_cons_eq_some_iff.1 hmap
    obtain ⟨b, hb, rfl⟩ := Option.map_eq_some_iff.1 hm
    obtain ⟨ch, rounds, c₁, c₂, c₃, c₄, rfl, hseek, hname, hcolon, ha, htail⟩ := readMembers_cons h
    simp only [readMembers, hseek, hname, hcolon, href _ _ _ _ ha hb, ih htail hbs, ok_bind]

end

end UsbTopology.Json
