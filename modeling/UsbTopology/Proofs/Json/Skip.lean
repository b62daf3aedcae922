import UsbTopology.Json.Skip
import UsbTopology.Proofs.Json.Numeral
import UsbTopology.Proofs.Json.Value

set_option autoImplicit false

/-!
# Skipped values

Whatever can be read as a whole value can be passed over, and ends at the same place. Each reader
takes at least one character, which bounds the rounds and the depth of the skipping.
-/
namespace UsbTopology.Json

theorem refuseUnit_ne_ok {α : Type} {p : Position} {rest : List Char} {a : α} :
    refuseUnit p rest ≠ .ok a := by
  unfold refuseUnit
  split <;> nofun

theorem refusePair_ne_ok {α : Type} {p : Position} {rest : List Char} {a : α} :
    refusePair p rest ≠ .ok a := by
  unfold refusePair
  split
  · nofun
  · split
    · split <;> nofun
    · nofun

theorem skipQuoted_unit {a b c d : Char} {n : Nat} (h : hexUnit? a b c d = some n) (p : Position)
    (rest : List Char) : skipQuoted p ('\\' :: 'u' :: a :: b :: c :: d :: rest) =
      skipQuoted (((p.after '\\').after 'u').afterAll [a, b, c, d]) rest := by
  rw [skipQuoted.eq_def]
  simp [h]

theorem skipQuoted_of_readQuoted {p : Position} {done cs : List Char} {s : String} {c' : Cursor}
    (h : readQuoted p done cs = .ok (s, c')) :
    skipQuoted p cs = .ok c' ∧ c'.rest.length < cs.length := by
  fun_induction readQuoted p done cs
  case case2 =>
    cases h
    rw [skipQuoted.eq_def]
    simp
  -- An escaped pair of surrogates is two escapes to pass over.
  case case7 n hn _ _ a b c d rest m hm _ _ _ _ _ _ _ ih =>
    obtain ⟨hskip, hlength⟩ := ih h
    rw [skipQuoted_unit hn, skipQuoted_unit hm]
    refine ⟨hskip, ?_⟩
    simp only [List.length_cons]
    omega
  case case11 n hn _ _ _ _ _ _ ih =>
    obtain ⟨hskip, hlength⟩ := ih h
    rw [skipQuoted_unit hn]
    refine ⟨hskip, ?_⟩
    simp only [List.length_cons]
    omega
  case case13 hu x hx _ _ ih =>
    obtain ⟨hskip, hlength⟩ := ih h
    rw [skipQuoted.eq_def]
    simp [hu, hx]
    refine ⟨hskip, by omega⟩
  case case16 hquote hslash hcontrol ih =>
    obtain ⟨hskip, hlength⟩ := ih h
    rw [skipQuoted.eq_def]
    simp [hquote, hslash, hcontrol]
    refine ⟨hskip, by omega⟩
  all_goals first
    | cases h
    | exact absurd h refuseUnit_ne_ok
    | exact absurd h refusePair_ne_ok

theorem length_next (c : Cursor) : c.next.rest.length ≤ c.rest.length := by
  rcases c with ⟨p, _ | ⟨ch, rest⟩⟩ <;> simp [Cursor.next]

theorem length_readDigitsFrom (p : Position) (cs : List Char) :
    (readDigitsFrom p cs).2.rest.length ≤ cs.length := by
  induction cs generalizing p with
  | nil => simp [readDigitsFrom]
  | cons ch cs ih =>
    unfold readDigitsFrom
    split
    · exact Nat.le_succ_of_le (ih (p.after ch))
    · simp

theorem length_readDigits_lt {c : Cursor} {ch : Char} {rest : List Char}
    (hrest : c.rest = ch :: rest) (hch : isDigit ch = true) :
    (readDigits c).2.rest.length < c.rest.length := by
  have h := length_readDigitsFrom (c.place.after ch) rest
  rw [readDigits, hrest, readDigitsFrom, if_pos hch]
  simp only [List.length_cons]
  omega

theorem skipWhole_of_readWhole {c c' : Cursor} {whole : List Char}
    (h : readWhole c = .ok (whole, c')) :
    skipWhole c = .ok c' ∧ c'.rest.length < c.rest.length := by
  unfold readWhole at h
  unfold skipWhole
  cases hrest : c.rest with
  | nil => simp [hrest, Cursor.fail] at h
  | cons ch rest =>
    have hnext : c.next.rest = rest := by simp [Cursor.next, hrest]
    simp only [hrest] at h ⊢
    split at h
    · next hzero =>
      rw [if_pos hzero]
      cases rest with
      | nil =>
        cases h
        exact ⟨rfl, by simp [hnext]⟩
      | cons d rest =>
        simp only at h ⊢
        split at h
        · cases h
        · next hd =>
          cases h
          rw [if_neg hd, hnext]
          exact ⟨rfl, by simp⟩
    · next hzero =>
      split at h
      · next hch =>
        have hlt := length_readDigits_lt hrest hch
        rw [if_neg hzero, if_pos hch]
        obtain rfl : (readDigits c).2 = c' := congrArg Prod.snd (Except.ok.inj h)
        rw [hrest] at hlt
        exact ⟨rfl, hlt⟩
      · cases h

theorem skipFraction_of_readFraction {c c' : Cursor} {fraction? : Option (List Char)}
    (h : readFraction c = .ok (fraction?, c')) :
    skipFraction c = .ok c' ∧ c'.rest.length ≤ c.rest.length := by
  have hdigits := length_readDigitsFrom c.next.place c.next.rest
  have hnext := length_next c
  unfold readFraction at h
  unfold skipFraction
  cases hrest : c.rest with
  | nil =>
    simp only [hrest] at h ⊢
    cases h
    exact ⟨rfl, by simp [hrest]⟩
  | cons ch rest =>
    rw [hrest] at hnext
    simp only [hrest] at h
    split at h
    · next hpoint =>
      subst hpoint
      simp only at h ⊢
      split at h
      · split at h <;> cases h
      · next hsome =>
        cases h
        rw [if_neg hsome]
        exact ⟨rfl, Nat.le_trans hdigits hnext⟩
    · next hpoint =>
      cases h
      split
      · next heq =>
        cases heq
        exact absurd rfl hpoint
      · exact ⟨rfl, by simp [hrest]⟩

theorem length_readExponentSign (c : Cursor) :
    (readExponentSign c).2.rest.length ≤ c.rest.length := by
  have hnext := length_next c
  unfold readExponentSign
  split
  · split
    · exact hnext
    · split
      · exact hnext
      · exact Nat.le_refl _
  · exact Nat.le_refl _

theorem skipExponent_of_readExponent {c c' d : Cursor} {exponent? : Option (Bool × List Char)}
    (h : readExponent c = .ok ((exponent?, d), c')) :
    skipExponent c = .ok c' ∧ c'.rest.length ≤ c.rest.length := by
  have hsign := length_readExponentSign c.next
  have hnext := length_next c
  unfold readExponent at h
  unfold skipExponent
  cases hrest : c.rest with
  | nil =>
    simp only [hrest] at h ⊢
    cases h
    exact ⟨rfl, by simp [hrest]⟩
  | cons ch rest =>
    rw [hrest] at hnext
    simp only [hrest] at h ⊢
    split at h
    · next hletter =>
      rw [if_pos hletter]
      cases hs : (readExponentSign c.next).2.rest with
      | nil => simp [hs, Cursor.fail] at h
      | cons e rest' =>
        simp only [hs] at h ⊢
        split at h
        · next he =>
          have hlt := length_readDigits_lt hs he
          cases h
          rw [if_pos he]
          exact ⟨rfl, by omega⟩
        · cases h
    · next hletter =>
      cases h
      rw [if_neg hletter]
      exact ⟨rfl, by simp [hrest]⟩

theorem skip_of_readUnsigned {minus : Bool} {c c' : Cursor} {n : Number}
    (h : readUnsigned minus c = .ok (n, c')) :
    (skipWhole c >>= fun c => skipFraction c >>= skipExponent) = .ok c' ∧
      c'.rest.length < c.rest.length := by
  unfold readUnsigned at h
  obtain ⟨⟨whole, c₁⟩, hwhole, h₁⟩ := bind_eq_ok_iff.1 h
  obtain ⟨⟨fraction?, c₂⟩, hfraction, h₂⟩ := bind_eq_ok_iff.1 h₁
  obtain ⟨⟨⟨exponent?, d⟩, c₃⟩, hexponent, h₃⟩ := bind_eq_ok_iff.1 h₂
  obtain ⟨hw, hwlen⟩ := skipWhole_of_readWhole hwhole
  obtain ⟨hf, hflen⟩ := skipFraction_of_readFraction hfraction
  obtain ⟨he, helen⟩ := skipExponent_of_readExponent hexponent
  obtain rfl : c₃ = c' := by
    simp only at h₃
    split at h₃ <;> cases h₃
    rfl
  rw [hw, ok_bind, hf, ok_bind, he]
  exact ⟨rfl, by omega⟩

theorem skipNumber_of_ne {ch : Char} (h : ch ≠ '-') (p : Position) (rest : List Char) :
    skipNumber ⟨p, ch :: rest⟩ =
      (skipWhole ⟨p, ch :: rest⟩ >>= fun c => skipFraction c >>= skipExponent) := by
  unfold skipNumber
  split
  · next heq => exact absurd (List.cons.inj heq).1 h
  · rfl

theorem skipNumber_of_readNumber {c c' : Cursor} {n : Number} (h : readNumber c = .ok (n, c')) :
    skipNumber c = .ok c' ∧ c'.rest.length < c.rest.length := by
  have hnext := length_next c
  rcases c with ⟨p, _ | ⟨ch, rest⟩⟩
  · exact skip_of_readUnsigned h
  · by_cases hminus : ch = '-'
    · subst hminus
      obtain ⟨hskip, hlength⟩ := skip_of_readUnsigned h
      exact ⟨hskip, by omega⟩
    · rw [readNumber_of_ne hminus] at h
      rw [skipNumber_of_ne hminus]
      exact skip_of_readUnsigned h

theorem length_skipBlanks (c : Cursor) : c.skipBlanks.rest.length ≤ c.rest.length := by
  rw [Cursor.rest_skipBlanks]
  exact (List.dropWhile_sublist _).length_le

theorem length_readLetters {letters : List Char} {c c' : Cursor}
    (h : readLetters letters c = .ok c') : c'.rest.length ≤ c.rest.length := by
  induction letters generalizing c with
  | nil =>
    cases h
    exact Nat.le_refl _
  | cons letter letters ih =>
    have hnext := length_next c
    unfold readLetters at h
    split at h
    · cases h
    · split at h
      · exact Nat.le_trans (ih h) hnext
      · cases h

theorem length_readColon {c c' : Cursor} (h : readColon c = .ok c') :
    c'.rest.length ≤ c.rest.length := by
  have hblanks := length_skipBlanks c
  have hnext := length_next c.skipBlanks
  unfold readColon at h
  cases hrest : c.skipBlanks.rest with
  | nil => simp [hrest, Cursor.fail] at h
  | cons ch rest =>
    simp only [hrest] at h
    split at h
    · cases h
      omega
    · cases h

theorem skipQuotation_of_readName {c c' : Cursor} {s : String} (h : readName c = .ok (s, c')) :
    skipQuotation c.next = .ok c' ∧ c'.rest.length < c.rest.length := by
  obtain ⟨hskip, hlength⟩ := skipQuoted_of_readQuoted h
  have hnext := length_next c
  exact ⟨hskip, by omega⟩

theorem passElement_of_seekElement {first : Bool} {c c' : Cursor}
    (h : seekElement first c = .ok (true, c')) :
    (∃ c₀, passElement first c = .ok (true, c₀) ∧ c₀.skipBlanks = c' ∧
      c₀.rest.length ≤ c.rest.length) ∧ c'.rest.length ≤ c.rest.length := by
  have hblanks := length_skipBlanks c
  have hnext := length_next c.skipBlanks
  have hbehind := length_skipBlanks c.skipBlanks.next
  unfold seekElement at h
  unfold passElement
  cases hrest : c.skipBlanks.rest with
  | nil => simp [hrest, Cursor.fail] at h
  | cons ch rest =>
    simp only [hrest] at h ⊢
    split at h
    · cases h
    · next hclose =>
      rw [if_neg hclose]
      split at h
      · next hfirst =>
        cases h
        rw [if_pos hfirst]
        exact ⟨⟨_, rfl, skipBlanks_skipBlanks c, hblanks⟩, hblanks⟩
      · next hfirst =>
        rw [if_neg hfirst]
        split at h
        · next hcomma =>
          rw [if_pos hcomma]
          cases hrest' : c.skipBlanks.next.skipBlanks.rest with
          | nil => simp [hrest', Cursor.fail] at h
          | cons d rest' =>
            simp only [hrest'] at h
            split at h
            · cases h
            · cases h
              exact ⟨⟨_, rfl, rfl, by omega⟩, by omega⟩
        · cases h

theorem length_of_seekElement {first more : Bool} {c c' : Cursor}
    (h : seekElement first c = .ok (more, c')) : c'.rest.length ≤ c.rest.length := by
  cases more with
  | true => exact (passElement_of_seekElement h).2
  | false => exact (seekElement_done h).1 ▸ length_skipBlanks c

theorem passElement_done {first : Bool} {c c' : Cursor}
    (h : seekElement first c = .ok (false, c')) :
    passElement first c = .ok (false, c'.next) ∧ c'.next.rest.length < c'.rest.length := by
  obtain ⟨rfl, rest, hrest⟩ := seekElement_done h
  exact ⟨by simp [passElement, hrest], by simp [Cursor.next, hrest]⟩

theorem length_readElements {α : Type} {element : Cursor → Except Stop (α × Cursor)}
    (hlength : ∀ d d' a, element d = .ok (a, d') → d'.rest.length < d.rest.length)
    {rounds : List Char} {first : Bool} {c c' : Cursor} {as : List α}
    (h : readElements element rounds first c = .ok (as, c')) :
    c'.rest.length ≤ c.rest.length := by
  induction as generalizing rounds first c with
  | nil => exact length_of_seekElement (readElements_nil h)
  | cons a as ih =>
    obtain ⟨ch, rounds, c₁, c₂, rfl, hseek, ha, htail⟩ := readElements_cons h
    have hc₁ := length_of_seekElement hseek
    have hc₂ := hlength _ _ _ ha
    have hc' := ih htail
    omega

theorem skipElements_of_readElements {α : Type} {element : Cursor → Except Stop (α × Cursor)}
    {skip : Cursor → Except Stop Cursor} {high low : Nat}
    (hlength : ∀ d d' a, element d = .ok (a, d') → d'.rest.length < d.rest.length)
    (hskip : ∀ d d' a, element d = .ok (a, d') → d.rest.length ≤ high → low ≤ d'.rest.length →
      skip d = .ok d') (hblanks : ∀ d, element d.skipBlanks = element d) {rounds : List Char}
    {first : Bool} {c c' : Cursor} {as : List α}
    (h : readElements element rounds first c = .ok (as, c')) (hhigh : c.rest.length ≤ high)
    (hlow : low ≤ c'.rest.length) {fuel : List Char}
    (hfuel : c.rest.length ≤ fuel.length + c'.next.rest.length) :
    skipElements skip fuel first c = .ok c'.next := by
  induction as generalizing rounds first c fuel with
  | nil =>
    have hseek := readElements_nil h
    obtain ⟨hpass, hclose⟩ := passElement_done hseek
    have hc := length_of_seekElement hseek
    obtain ⟨ch, fuel, rfl⟩ := List.exists_cons_of_length_pos (show 0 < fuel.length by omega)
    rw [skipElements, hpass, ok_bind]
  | cons a as ih =>
    obtain ⟨ch, rounds, c₁, c₂, rfl, hseek, ha, htail⟩ := readElements_cons h
    obtain ⟨⟨c₀, hpass, hc₀, hlen₀⟩, hc₁⟩ := passElement_of_seekElement hseek
    have hc₂ := hlength _ _ _ ha
    have hc' := length_readElements hlength htail
    have hnext := length_next c'
    obtain ⟨ch, fuel, rfl⟩ := List.exists_cons_of_length_pos (show 0 < fuel.length by omega)
    rw [← hc₀, hblanks] at ha
    have hvalue : skip c₀ = .ok c₂ := hskip _ _ _ ha (by omega) (by omega)
    rw [List.length_cons] at hfuel
    simp only [skipElements, hpass, ok_bind, hvalue]
    exact ih htail (by omega) (by omega)

theorem seekMember_more {first : Bool} {c c' : Cursor} (h : seekMember first c = .ok (true, c')) :
    (∃ rest, c'.rest = '"' :: rest) ∧ c'.rest.length ≤ c.rest.length ∧
      ∀ d, passName c' = .ok d → passMember first c = .ok (true, d) := by
  have hblanks := length_skipBlanks c
  have hnext := length_next c.skipBlanks
  have hbehind := length_skipBlanks c.skipBlanks.next
  have hname : ∀ d, passName d.skipBlanks = passName d := fun d => by
    unfold passName
    rw [skipBlanks_skipBlanks]
  unfold seekMember at h
  unfold passMember
  cases hrest : c.skipBlanks.rest with
  | nil => simp [hrest, Cursor.fail] at h
  | cons ch rest =>
    simp only [hrest] at h ⊢
    split at h
    · cases h
    · next hclose =>
      rw [if_neg hclose]
      split at h
      · next hfirst =>
        rw [if_pos hfirst]
        split at h
        · next hquote =>
          cases h
          exact ⟨⟨rest, hquote ▸ hrest⟩, hblanks, fun d hd => by rw [hd, ok_bind]⟩
        · cases h
      · next hfirst =>
        rw [if_neg hfirst]
        split at h
        · next hcomma =>
          rw [if_pos hcomma]
          cases hrest' : c.skipBlanks.next.skipBlanks.rest with
          | nil => simp [hrest', Cursor.fail] at h
          | cons e rest' =>
            simp only [hrest'] at h
            split at h
            · next hquote =>
              cases h
              refine ⟨⟨rest', hquote ▸ hrest'⟩, by omega, fun d hd => ?_⟩
              rw [← hname, hd, ok_bind]
            · split at h <;> cases h
        · cases h

theorem passMember_of_seekMember {first : Bool} {c c₁ c₂ c₃ : Cursor} {name : String}
    (hseek : seekMember first c = .ok (true, c₁)) (hname : readName c₁ = .ok (name, c₂))
    (hcolon : readColon c₂ = .ok c₃) :
    passMember first c = .ok (true, c₃) ∧ c₃.rest.length ≤ c.rest.length := by
  obtain ⟨⟨rest, hrest⟩, hc₁, hpass⟩ := seekMember_more hseek
  obtain ⟨hskip, hc₂⟩ := skipQuotation_of_readName hname
  have hc₃ := length_readColon hcolon
  refine ⟨hpass c₃ ?_, by omega⟩
  obtain ⟨p, _⟩ := c₁
  obtain rfl : _ = '"' :: rest := hrest
  rw [passName, skipBlanks_cons (by decide)]
  simp [hskip, ok_bind, hcolon]

theorem length_of_seekMember {first more : Bool} {c c' : Cursor}
    (h : seekMember first c = .ok (more, c')) : c'.rest.length ≤ c.rest.length := by
  cases more with
  | true => exact (seekMember_more h).2.1
  | false => exact (seekMember_done h).1 ▸ length_skipBlanks c

theorem passMember_done {first : Bool} {c c' : Cursor} (h : seekMember first c = .ok (false, c')) :
    passMember first c = .ok (false, c'.next) ∧ c'.next.rest.length < c'.rest.length := by
  obtain ⟨rfl, rest, hrest⟩ := seekMember_done h
  exact ⟨by simp [passMember, hrest], by simp [Cursor.next, hrest]⟩

theorem length_readMembers {α : Type} {value : Cursor → Except Stop (α × Cursor)}
    (hlength : ∀ d d' a, value d = .ok (a, d') → d'.rest.length < d.rest.length)
    {rounds : List Char} {first : Bool} {c c' : Cursor} {ms : List (String × α)}
    (h : readMembers readName value rounds first c = .ok (ms, c')) :
    c'.rest.length ≤ c.rest.length := by
  induction ms generalizing rounds first c with
  | nil => exact length_of_seekMember (readMembers_nil h)
  | cons m ms ih =>
    obtain ⟨ch, rounds, c₁, c₂, c₃, c₄, rfl, hseek, hname, hcolon, ha, htail⟩ := readMembers_cons h
    have hc₃ := (passMember_of_seekMember hseek hname hcolon).2
    have hc₄ := hlength _ _ _ ha
    have hc' := ih htail
    omega

theorem skipMembers_of_readMembers {α : Type} {value : Cursor → Except Stop (α × Cursor)}
    {skip : Cursor → Except Stop Cursor} {high low : Nat}
    (hlength : ∀ d d' a, value d = .ok (a, d') → d'.rest.length < d.rest.length)
    (hskip : ∀ d d' a, value d = .ok (a, d') → d.rest.length ≤ high → low ≤ d'.rest.length →
      skip d = .ok d') {rounds : List Char} {first : Bool} {c c' : Cursor} {ms : List (String × α)}
    (h : readMembers readName value rounds first c = .ok (ms, c')) (hhigh : c.rest.length ≤ high)
    (hlow : low ≤ c'.rest.length) {fuel : List Char}
    (hfuel : c.rest.length ≤ fuel.length + c'.next.rest.length) :
    skipMembers skip fuel first c = .ok c'.next := by
  induction ms generalizing rounds first c fuel with
  | nil =>
    have hseek := readMembers_nil h
    obtain ⟨hpass, hclose⟩ := passMember_done hseek
    have hc := length_of_seekMember hseek
    obtain ⟨ch, fuel, rfl⟩ := List.exists_cons_of_length_pos (show 0 < fuel.length by omega)
    rw [skipMembers, hpass, ok_bind]
  | cons m ms ih =>
    obtain ⟨ch, rounds, c₁, c₂, c₃, c₄, rfl, hseek, hname, hcolon, ha, htail⟩ := readMembers_cons h
    obtain ⟨hpass, hc₃⟩ := passMember_of_seekMember hseek hname hcolon
    have hc₄ := hlength _ _ _ ha
    have hc' := length_readMembers hlength htail
    have hnext := length_next c'
    obtain ⟨ch, fuel, rfl⟩ := List.exists_cons_of_length_pos (show 0 < fuel.length by omega)
    have hvalue : skip c₃ = .ok c₄ := hskip _ _ _ ha (by omega) (by omega)
    rw [List.length_cons] at hfuel
    simp only [skipMembers, hpass, ok_bind, hvalue]
    exact ih htail (by omega) (by omega)

/-- Passing over goes from one cursor to the other, which is behind it, whatever the fuel is that
reaches so far. -/
def Skips (c c' : Cursor) : Prop :=
  c'.rest.length < c.rest.length ∧
    ∀ fuel : List Char, c.rest.length ≤ fuel.length + c'.rest.length → skipWithin fuel c = .ok c'

theorem skips_of_passScalar {c c' : Cursor} (hpass : passScalar c = .ok (none, c'))
    (hlt : c'.rest.length < c.skipBlanks.rest.length) : Skips c c' := by
  have hblanks := length_skipBlanks c
  refine ⟨by omega, fun fuel hfuel => ?_⟩
  obtain ⟨ch, fuel, rfl⟩ := List.exists_cons_of_length_pos (show 0 < fuel.length by omega)
  rw [skipWithin, hpass, ok_bind]

theorem length_of_word {c c' : Cursor} {letter : Char} {letters rest : List Char}
    (hrest : c.rest = letter :: rest) (hletters : readLetters letters c.next = .ok c') :
    c'.rest.length < c.rest.length := by
  have hle := length_readLetters hletters
  simp only [Cursor.next, hrest] at hle
  rw [hrest, List.length_cons]
  omega

section

variable {depth : Nat} {c c' : Cursor} {rest : List Char}
  (ih : ∀ d d' j, readValue depth d = .ok (j, d') → Skips d d')
include ih

/-- A container is passed over if what is between its brackets is, with one character of fuel less
and within the reach of the values that were read there. -/
theorem skips_of_inner {c₁ : Cursor} {rest₁ : List Char} {opening closing : Char}
    (hrest : c.skipBlanks.rest = opening :: rest) (hrest₁ : c₁.rest = closing :: rest₁)
    (hle : c₁.rest.length ≤ c.skipBlanks.next.rest.length)
    (hinner : ∀ (ch : Char) (fuel : List Char), (∀ d d' j, readValue depth d = .ok (j, d') →
      d.rest.length ≤ c.skipBlanks.next.rest.length → c₁.rest.length ≤ d'.rest.length →
        skipWithin fuel d = .ok d') → skipWithin (ch :: fuel) c = .ok c₁.next) :
    Skips c c₁.next := by
  have hblanks := length_skipBlanks c
  have hend : c₁.next.rest.length < c₁.rest.length := by simp [Cursor.next, hrest₁]
  have hopen : c.skipBlanks.next.rest.length < c.skipBlanks.rest.length := by
    simp [Cursor.next, hrest]
  refine ⟨by omega, fun fuel hfuel => ?_⟩
  obtain ⟨ch, fuel, rfl⟩ := List.exists_cons_of_length_pos (show 0 < fuel.length by omega)
  rw [List.length_cons] at hfuel
  -- The bracket has used up one character, so the fuel that is left still reaches the end.
  refine hinner ch fuel fun d d' j hd hhigh hlow => ?_
  exact (ih d d' j hd).2 fuel (by omega)

theorem skips_of_readArray {es : List Json} (hrest : c.skipBlanks.rest = '[' :: rest)
    (harray : readArray (readValue depth) c.skipBlanks = .ok (es, c')) : Skips c c' := by
  obtain ⟨c₁, helements, hclose⟩ := settle_eq_ok_iff.1 harray
  obtain ⟨hskip, rest₁, hrest₁⟩ := readElements_end helements
  obtain rfl : c₁.next = c' := by
    rw [closeArray_done hskip hrest₁] at hclose
    exact congrArg Prod.snd hclose
  have hlength : ∀ d d' a, readValue depth d = .ok (a, d') → d'.rest.length < d.rest.length :=
    fun d d' a hd => (ih d d' a hd).1
  have hpass : passScalar c = .ok (some true, c.skipBlanks.next) := by
    simp [passScalar, hrest, isDigit]
  refine skips_of_inner ih hrest hrest₁ (length_readElements hlength helements) ?_
  intro ch fuel hvalue
  simp only [skipWithin, hpass, ok_bind]
  exact skipElements_of_readElements hlength hvalue (readValue_skipBlanks depth) helements
    (Nat.le_refl _) (Nat.le_refl _) (Nat.le_add_right _ _)

theorem skips_of_readObject {ms : List (String × Json)}
    (hrest : c.skipBlanks.rest = '\x7b' :: rest)
    (hobject : readObject readName (readValue depth) c.skipBlanks = .ok (ms, c')) :
    Skips c c' := by
  obtain ⟨c₁, hmembers, hclose⟩ := settle_eq_ok_iff.1 hobject
  obtain ⟨hskip, rest₁, hrest₁⟩ := readMembers_end hmembers
  obtain rfl : c₁.next = c' := by
    rw [closeObject_done hskip hrest₁] at hclose
    exact congrArg Prod.snd hclose
  have hlength : ∀ d d' a, readValue depth d = .ok (a, d') → d'.rest.length < d.rest.length :=
    fun d d' a hd => (ih d d' a hd).1
  have hpass : passScalar c = .ok (some false, c.skipBlanks.next) := by
    simp [passScalar, hrest, isDigit]
  refine skips_of_inner ih hrest hrest₁ (length_readMembers hlength hmembers) ?_
  intro ch fuel hvalue
  simp only [skipWithin, hpass, ok_bind]
  exact skipMembers_of_readMembers hlength hvalue hmembers (Nat.le_refl _) (Nat.le_refl _)
    (Nat.le_add_right _ _)

end

theorem skips_of_readValue {depth : Nat} {c c' : Cursor} {j : Json}
    (h : readValue depth c = .ok (j, c')) : Skips c c' := by
  induction depth using Nat.strongRecOn generalizing c c' j with
  | ind depth ih =>
    cases taken_of_readValue h with
    | null hrest hnull =>
      refine skips_of_passScalar ?_ (length_of_word hrest hnull)
      simp [passScalar, hrest, hnull, ok_bind]
    | yes hrest htrue =>
      refine skips_of_passScalar ?_ (length_of_word hrest htrue)
      simp [passScalar, hrest, htrue, ok_bind]
    | no hrest hfalse =>
      refine skips_of_passScalar ?_ (length_of_word hrest hfalse)
      simp [passScalar, hrest, hfalse, ok_bind]
    | @number _ ch rest n _ hrest hch hnumber =>
      obtain ⟨hskip, hlt⟩ := skipNumber_of_readNumber hnumber
      have hletter : ∀ letter, (letter = '-' || isDigit letter) = false → ch ≠ letter := by
        rintro letter hletter rfl
        rw [hletter] at hch
        exact absurd hch (by decide)
      refine skips_of_passScalar ?_ hlt
      simp only [passScalar, hrest, if_neg (hletter 'n' rfl), if_neg (hletter 't' rfl),
        if_neg (hletter 'f' rfl), hch, if_true, hskip, ok_bind]
    | text hrest hname =>
      obtain ⟨hskip, hlt⟩ := skipQuotation_of_readName hname
      refine skips_of_passScalar ?_ hlt
      simp [passScalar, hrest, hskip, ok_bind, isDigit]
    | @array depth rest es _ hrest harray =>
      exact skips_of_readArray (fun _ _ _ => ih depth (Nat.lt_succ_self depth)) hrest harray
    | @object depth rest ms _ hrest hobject =>
      exact skips_of_readObject (fun _ _ _ => ih depth (Nat.lt_succ_self depth)) hrest hobject

theorem skipValue_of_readValue {depth : Nat} {c c' : Cursor} {j : Json}
    (h : readValue depth c = .ok (j, c')) : skipValue c = .ok c' :=
  (skips_of_readValue h).2 c.rest (Nat.le_add_right _ _)

end UsbTopology.Json
