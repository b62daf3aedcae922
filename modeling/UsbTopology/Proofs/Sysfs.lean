import UsbTopology.Proofs.FileSystem.Ending
import UsbTopology.Proofs.Json.Reader
import UsbTopology.Proofs.Location.Name
import UsbTopology.Proofs.Text.Decoding
import UsbTopology.Proofs.Text.Utf8
import UsbTopology.Sysfs

set_option autoImplicit false

/-!
# What the nodes of a running system tell

The port count of a hub is any decimal text of a byte, with or without a plus sign and within any
blanks (`readPortCount_decided`). The driver of an interface is the name that the target of a link
ends in, and the driver of a root hub is that of the directory above the target of its node
(`readDriver_decided`). Each fault is told apart by its kind.
-/
namespace UsbTopology

/-- At least one decimal digit, perhaps behind a plus sign, with the number as their value. -/
def WritesByte (cs : List Char) (n : UInt8) : Prop :=
  ∃ sign digits, cs = sign ++ digits ∧ (sign = [] ∨ sign = ['+']) ∧ digits ≠ [] ∧
    (∀ c ∈ digits, c.isDigit = true) ∧ Nat.ofDigitChars 10 digits 0 = n.toNat

def WritesCount (text : String) (n : UInt8) : Prop :=
  ∃ core, Text.Within core text.toList ∧ WritesByte core n

theorem isDigit_iff {c : Char} : c.isDigit = true ↔ '0' ≤ c ∧ c ≤ '9' := by
  have hdigit : c.isDigit = (decide ('0' ≤ c) && decide (c ≤ '9')) := rfl
  rw [hdigit, Bool.and_eq_true, decide_eq_true_iff, decide_eq_true_iff]

/-- The digits are taken as long as the number fits, which it does at every digit if it does at the
last one. -/
theorem countOfDigits_eq_ok_iff {digits : List Char} {n : Nat} {b : UInt8} (hn : n < 256) :
    countOfDigits n digits = .ok b ↔
      (∀ c ∈ digits, c.isDigit = true) ∧ Nat.ofDigitChars 10 digits n = b.toNat := by
  induction digits generalizing n with
  | nil =>
    have hvalue : UInt8.ofNat n = b ↔ n = b.toNat := by
      rw [← UInt8.toNat_inj, UInt8.toNat_ofNat_of_lt' hn]
    simp [countOfDigits, hvalue]
  | cons c digits ih =>
    have hb := b.toNat_lt
    have hzero : '0'.toNat = 48 := rfl
    have hle := le_ofDigitChars digits (10 * n + (c.toNat - 48))
    rw [countOfDigits, List.forall_mem_cons, isDigit_iff, Nat.ofDigitChars_cons, hzero]
    by_cases hc : '0' ≤ c ∧ c ≤ '9'
    · rw [if_pos hc]
      by_cases hm : 10 * n + (c.toNat - 48) < 256
      · rw [if_pos hm, ih hm]
        simp [hc]
      · -- The digits behind this one can only make the number larger.
        have hvalue : Nat.ofDigitChars 10 digits (10 * n + (c.toNat - 48)) ≠ b.toNat := by
          omega
        simp [if_neg hm, hvalue]
    · simp [hc]

theorem writesByte_plus_iff {digits : List Char} {n : UInt8} : WritesByte ('+' :: digits) n ↔
    digits ≠ [] ∧ (∀ c ∈ digits, c.isDigit = true) ∧ Nat.ofDigitChars 10 digits 0 = n.toNat := by
  constructor
  · rintro ⟨sign, digits', hcs, rfl | rfl, hne, hdigits, hvalue⟩
    · rw [List.nil_append] at hcs
      exact absurd (hdigits '+' (hcs ▸ List.mem_cons_self)) (by decide)
    · obtain rfl := (List.cons.inj hcs).2
      exact ⟨hne, hdigits, hvalue⟩
  · exact fun h => ⟨['+'], digits, rfl, .inr rfl, h⟩

theorem writesByte_iff_of_ne {cs : List Char} {n : UInt8} (h : ∀ digits, cs ≠ '+' :: digits) :
    WritesByte cs n ↔
      cs ≠ [] ∧ (∀ c ∈ cs, c.isDigit = true) ∧ Nat.ofDigitChars 10 cs 0 = n.toNat := by
  constructor
  · rintro ⟨sign, digits, rfl, rfl | rfl, hdigits⟩
    · exact hdigits
    · exact absurd rfl (h digits)
  · exact fun hdigits => ⟨[], cs, rfl, .inl rfl, hdigits⟩

theorem countOfText_eq_ok_iff {cs : List Char} {n : UInt8} :
    countOfText cs = .ok n ↔ WritesByte cs n := by
  unfold countOfText
  split
  · simp [writesByte_iff_of_ne]
  · simp [writesByte_plus_iff]
  · next digits hdigits =>
    rw [countOfDigits_eq_ok_iff (by decide), writesByte_plus_iff]
    exact ⟨fun h => ⟨fun hnil => hdigits (hnil ▸ rfl), h⟩, And.right⟩
  · next hempty _ hplus =>
    rw [countOfDigits_eq_ok_iff (by decide), writesByte_iff_of_ne hplus]
    exact ⟨fun h => ⟨hempty, h⟩, And.right⟩

theorem isBlank_of_isDigit {c : Char} (h : c.isDigit = true) : Text.isBlank c = false := by
  obtain ⟨hlow, hhigh⟩ := isDigit_iff.1 h
  have hlow : 48 ≤ c.toNat := hlow
  have hhigh : c.toNat ≤ 57 := hhigh
  simp [Text.isBlank]
  omega

theorem WritesByte.isBlank_eq_false {cs : List Char} {n : UInt8} (h : WritesByte cs n) :
    ∀ c ∈ cs, Text.isBlank c = false := by
  obtain ⟨sign, digits, rfl, hsign, -, hdigits, -⟩ := h
  intro c hc
  rcases List.mem_append.1 hc with hc | hc
  · rcases hsign with rfl | rfl
    · cases hc
    · obtain rfl := List.mem_singleton.1 hc
      decide
  · exact isBlank_of_isDigit (hdigits c hc)

theorem countOfText_trim_eq_ok_iff {text : String} {n : UInt8} :
    countOfText (Text.trim text.toList) = .ok n ↔ WritesCount text n := by
  rw [countOfText_eq_ok_iff]
  constructor
  · intro h
    exact ⟨_, Text.within_trim _, h⟩
  · rintro ⟨core, hwithin, hcore⟩
    rwa [Text.trim_of_within hwithin
      (fun c hc => hcore.isBlank_eq_false c (List.mem_of_mem_head? hc))
      (fun c hc => hcore.isBlank_eq_false c (List.mem_of_mem_getLast? hc))]

theorem writesCount_byteText (n : UInt8) {before after : List Char}
    (hbefore : ∀ c ∈ before, Text.isBlank c = true) (hafter : ∀ c ∈ after, Text.isBlank c = true) :
    WritesCount (String.ofList (before ++ ((byteText n).toList ++ after))) n := by
  have hvalue : Nat.ofDigitChars 10 (byteText n).toList 0 = n.toNat := by
    rw [toList_byteText, Nat.ofDigitChars_ten_toDigits]
  have hne : (byteText n).toList ≠ [] := by
    rw [toList_byteText]
    exact Nat.toDigits_ne_nil
  exact ⟨(byteText n).toList, ⟨before, after, String.toList_ofList, hbefore, hafter⟩,
    [], (byteText n).toList, rfl, .inl rfl, hne, fun c => isDigit_of_mem_byteText, hvalue⟩

namespace Sysfs

def kind? {α : Type} : Except SysfsFault α → Option Fault.Kind
  | .ok _ => none
  | .error f => some f.toFault.kind

/-- A look-up that gives the values that are found, a fault of the system where something cannot be
read, and a fault of one other kind where what is read is of no use. -/
structure Decided {α : Type} (r : Except SysfsFault α) (found : α → Prop) (unread : Prop)
    (kind : Fault.Kind) (unusable : Prop) : Prop where
  ok_iff : ∀ a, r = .ok a ↔ found a
  io_iff : kind? r = some .io ↔ unread
  kind_iff : kind? r = some kind ↔ unusable
  exhausted : (∃ a, r = .ok a) ∨ kind? r = some .io ∨ kind? r = some kind

section

variable {α : Type} {found : α → Prop} {unread unusable : Prop} {kind : Fault.Kind}

theorem decided_ok {a : α} (hfound : ∀ b, found b ↔ a = b) (hread : ¬ unread)
    (husable : ¬ unusable) : Decided (.ok a) found unread kind unusable where
  ok_iff b := by rw [hfound, Except.ok.injEq]
  io_iff := by simp [kind?, hread]
  kind_iff := by simp [kind?, husable]
  exhausted := .inl ⟨a, rfl⟩

theorem decided_io {f : IoFault} (hkind : kind ≠ .io) (hfound : ∀ a, ¬ found a) (hread : unread)
    (husable : ¬ unusable) :
    Decided (.error (.io f) : Except SysfsFault α) found unread kind unusable where
  ok_iff a := by simp [hfound a]
  io_iff := by simp [kind?, SysfsFault.toFault, IoFault.toFault, hread]
  kind_iff := by simp [kind?, SysfsFault.toFault, IoFault.toFault, husable, hkind.symm]
  exhausted := .inr (.inl rfl)

theorem decided_unusable {f : SysfsFault} (hkind : kind ≠ .io) (hf : f.toFault.kind = kind)
    (hfound : ∀ a, ¬ found a) (hread : ¬ unread) (husable : unusable) :
    Decided (.error f : Except SysfsFault α) found unread kind unusable where
  ok_iff a := by simp [hfound a]
  io_iff := by simp [kind?, hf, hkind, hread]
  kind_iff := by simp [kind?, hf, husable]
  exhausted := .inr (.inr (by simp [kind?, hf]))

theorem Decided.congr {r : Except SysfsFault α} {found' : α → Prop} {unread' unusable' : Prop}
    (h : Decided r found unread kind unusable) (hfound : ∀ a, found a ↔ found' a)
    (hread : unread ↔ unread') (husable : unusable ↔ unusable') :
    Decided r found' unread' kind unusable' where
  ok_iff a := (h.ok_iff a).trans (hfound a)
  io_iff := h.io_iff.trans hread
  kind_iff := h.kind_iff.trans husable
  exhausted := h.exhausted

theorem Decided.toOption_eq_none_iff {r : Except SysfsFault α}
    (h : Decided r found unread kind unusable) :
    r.toOption = none ↔ kind? r = some .io ∨ kind? r = some kind := by
  cases r with
  | ok a => simp [Except.toOption, kind?]
  | error fault => simpa [Except.toOption] using h.exhausted

end

def HoldsText (files : FileSystem) (p : Path) (text : String) : Prop :=
  files.readBytes p = .ok (Text.encode text)

/-- There is no file at the path that can be read, or its bytes are no text. -/
def HoldsNoText (files : FileSystem) (p : Path) : Prop :=
  (∃ fault, files.readBytes p = .error fault) ∨
    ∃ bytes, files.readBytes p = .ok bytes ∧ ∀ text, bytes ≠ Text.encode text

def HoldsCount (files : FileSystem) (p : Path) (n : UInt8) : Prop :=
  ∃ text, HoldsText files p text ∧ WritesCount text n

def HoldsNoCount (files : FileSystem) (p : Path) : Prop :=
  ∃ text, HoldsText files p text ∧ ∀ n, ¬ WritesCount text n

theorem HoldsText.unique {files : FileSystem} {p : Path} {text text' : String}
    (h : HoldsText files p text) (h' : HoldsText files p text') : text = text' := by
  rw [HoldsText, h] at h'
  exact Text.encode_injective (Except.ok.inj h')

theorem HoldsNoText.not_holdsText {files : FileSystem} {p : Path} (h : HoldsNoText files p)
    (text : String) : ¬ HoldsText files p text := by
  intro htext
  rcases h with ⟨fault, hfault⟩ | ⟨bytes, hbytes, hnone⟩
  · rw [HoldsText, hfault] at htext
    cases htext
  · rw [HoldsText, hbytes] at htext
    exact hnone text (Except.ok.inj htext)

theorem toOption_eq_some_iff {ε α : Type} {r : Except ε α} {a : α} :
    r.toOption = some a ↔ r = .ok a := by
  cases r <;> simp [Except.toOption]

theorem readText_cases (files : FileSystem) (p : Path) :
    (∃ text, files.readText p = .ok text ∧ HoldsText files p text) ∨
      ∃ fault, files.readText p = .error fault ∧ HoldsNoText files p := by
  cases hbytes : files.readBytes p with
  | error fault =>
    refine .inr ⟨fault, ?_, .inl ⟨fault, hbytes⟩⟩
    rw [FileSystem.readText, hbytes]
    rfl
  | ok bytes =>
    cases htext : Text.decode? bytes with
    | some text =>
      refine .inl ⟨text, ?_, hbytes.trans (congrArg _ (Text.decode?_eq_some_iff.1 htext))⟩
      rw [FileSystem.readText, hbytes]
      simp only [Json.ok_bind, htext]
    | none =>
      refine .inr ⟨.notUtf8, ?_, .inr ⟨bytes, hbytes, fun text h => ?_⟩⟩
      · rw [FileSystem.readText, hbytes]
        simp only [Json.ok_bind, htext]
      · rw [Text.decode?_eq_some_iff.2 h] at htext
        cases htext

def portCountFile (s : Sysfs) (l : Location) : Path :=
  (s.root.join (.ofString l.deviceName)).join (.ofString "maxchild")

theorem decided_countOfText {files : FileSystem} {p : Path} {text : String}
    (htext : HoldsText files p text) :
    Decided ((countOfText (Text.trim text.toList)).mapError
        (.badCount (String.ofList (Text.trim text.toList)) p))
      (HoldsCount files p) (HoldsNoText files p) .parsing (HoldsNoCount files p) := by
  have hread : ¬ HoldsNoText files p := fun h => h.not_holdsText text htext
  have hcount : ∀ n, HoldsCount files p n ↔ countOfText (Text.trim text.toList) = .ok n := by
    intro n
    rw [countOfText_trim_eq_ok_iff]
    constructor
    · rintro ⟨text', htext', hn⟩
      rwa [htext.unique htext']
    · exact fun hn => ⟨text, htext, hn⟩
  cases htrimmed : countOfText (Text.trim text.toList) with
  | ok n =>
    simp only [htrimmed, Except.ok.injEq] at hcount
    refine decided_ok hcount hread ?_
    rintro ⟨text', htext', hnone⟩
    obtain rfl := htext.unique htext'
    exact hnone n (countOfText_trim_eq_ok_iff.1 htrimmed)
  | error fault =>
    simp only [htrimmed, reduceCtorEq, iff_false] at hcount
    exact decided_unusable (by decide) rfl hcount hread
      ⟨text, htext, fun n hn => hcount n ⟨text, htext, hn⟩⟩

theorem decided_readPortCount (s : Sysfs) (l : Location) :
    Decided (s.readPortCount l) (HoldsCount s.files (s.portCountFile l))
      (HoldsNoText s.files (s.portCountFile l)) .parsing
      (HoldsNoCount s.files (s.portCountFile l)) := by
  have hcount : s.readPortCount l = ((s.files.readText (s.portCountFile l)).mapError .io).bind
      fun text => (countOfText (Text.trim text.toList)).mapError
        (.badCount (String.ofList (Text.trim text.toList)) (s.portCountFile l)) := rfl
  rw [hcount]
  rcases readText_cases s.files (s.portCountFile l) with
    ⟨text, hread, htext⟩ | ⟨fault, hread, hnone⟩
  · rw [hread]
    exact decided_countOfText htext
  · rw [hread]
    refine decided_io (by decide) ?_ hnone ?_
    · rintro n ⟨text, htext, -⟩
      exact hnone.not_holdsText text htext
    · rintro ⟨text, htext, -⟩
      exact hnone.not_holdsText text htext

/-- A root hub whose controller is bound, and a hub behind its port 3. -/
def hubSysfs : Sysfs where
  files := ⟨[([Text.encode "usb"], .directory),
    ([Text.encode "usb", Text.encode "usb1"], .link (.ofString "../pci0/usb1/.")),
    ([Text.encode "usb", Text.encode "1-3"], .directory),
    ([Text.encode "usb", Text.encode "1-3", Text.encode "maxchild"],
      .file (Text.encode "\t+007\n")),
    ([Text.encode "usb", Text.encode "1-3:1.0"], .directory),
    ([Text.encode "usb", Text.encode "1-3:1.0", Text.encode "driver"],
      .link (.ofString "/missing/../hub/.//")),
    ([Text.encode "pci0"], .directory),
    ([Text.encode "pci0", Text.encode "driver"], .link (.ofString "xhci_hcd"))], []⟩
  root := .ofString "/usb/"

/-- The port count of a hub is what its file writes: a fault of the system tells that there is no
text, a fault of parsing that the text is no count. -/
theorem readPortCount_decided (s : Sysfs) (l : Location) :
    Decided (s.readPortCount l) (HoldsCount s.files (s.portCountFile l))
        (HoldsNoText s.files (s.portCountFile l)) .parsing
        (HoldsNoCount s.files (s.portCountFile l)) ∧
      (∀ n, s.sideData.portCount l = some n ↔ HoldsCount s.files (s.portCountFile l) n) ∧
      ∀ (n : UInt8) (before after : List Char), (∀ c ∈ before, Text.isBlank c = true) →
        (∀ c ∈ after, Text.isBlank c = true) →
        HoldsText s.files (s.portCountFile l)
          (String.ofList (before ++ ((byteText n).toList ++ after))) →
        s.readPortCount l = .ok n := by
  have hdecided := s.decided_readPortCount l
  refine ⟨hdecided, fun n => ?_, fun n before after hbefore hafter htext => ?_⟩
  · rw [← hdecided.ok_iff]
    exact toOption_eq_some_iff
  · exact (hdecided.ok_iff n).2 ⟨_, htext, writesCount_byteText n hbefore hafter⟩

theorem readPortCount_hubSysfs : hubSysfs.readPortCount (.encode 1 [3]) = .ok 7 := by
  refine ((readPortCount_decided hubSysfs (.encode 1 [3])).1.ok_iff 7).2 ⟨"\t+007\n", ?_, ?_⟩
  · unfold HoldsText
    decide +kernel
  · have hdigits : ∀ c ∈ ['0', '0', '7'], c.isDigit = true := List.all_eq_true.1 rfl
    have hwithin : Text.Within ['+', '0', '0', '7'] "\t+007\n".toList :=
      ⟨['\t'], ['\n'], rfl, List.forall_mem_singleton.2 rfl, List.forall_mem_singleton.2 rfl⟩
    exact ⟨_, hwithin, ['+'], ['0', '0', '7'], rfl, .inr rfl, List.cons_ne_nil _ _, hdigits, rfl⟩

/-- The path leads to a symbolic link with the target, which may lead nowhere. -/
def LinksTo (files : FileSystem) (p target : Path) : Prop :=
  ∃ place, files.resolve false p = .ok place ∧ files.node? place = some (.link target)

def LinksToName (files : FileSystem) (p : Path) (name : String) : Prop :=
  ∃ target, LinksTo files p target ∧ target.EndsIn (Text.encode name)

def NoLink (files : FileSystem) (p : Path) : Prop := ∀ target, ¬ LinksTo files p target

def LinksToNoName (files : FileSystem) (p : Path) : Prop :=
  ∃ target, LinksTo files p target ∧ ∀ name, ¬ target.EndsIn (Text.encode name)

theorem readLink_eq_ok_iff {files : FileSystem} {p target : Path} :
    files.readLink p = .ok target ↔ LinksTo files p target := by
  rw [FileSystem.readLink, Json.bind_eq_ok_iff]
  refine exists_congr fun place => and_congr_right fun _ => ?_
  split
  · next h => simp [h]
  · next h =>
    constructor
    · nofun
    · exact fun hlink => absurd hlink (h target)

theorem linksTo_iff_of_readLink {files : FileSystem} {p target t : Path}
    (h : files.readLink p = .ok target) : LinksTo files p t ↔ target = t := by
  rw [← readLink_eq_ok_iff, h, Except.ok.injEq]

theorem noLink_of_readLink {files : FileSystem} {p : Path} {fault : IoFault}
    (h : files.readLink p = .error fault) : NoLink files p := by
  intro target htarget
  rw [readLink_eq_ok_iff.2 htarget] at h
  cases h

theorem hasParent_iff_of_parent? {target c d : Path} (h : target.parent? = some c) :
    target.HasParent d ↔ c = d := by
  rw [← Path.parent?_eq_some_iff, h, Option.some.injEq]

theorem bind_decode?_eq_some_iff {target : Path} {name : String} :
    target.fileName?.bind Text.decode? = some name ↔ target.EndsIn (Text.encode name) := by
  rw [Option.bind_eq_some_iff]
  simp only [Path.fileName?_eq_some_iff, Text.decode?_eq_some_iff, exists_eq_right]

theorem linkName_decided (files : FileSystem) (p : Path) :
    Decided (linkName files p) (LinksToName files p) (NoLink files p) .notFound
      (LinksToNoName files p) := by
  rw [linkName]
  cases hlink : files.readLink p with
  | error fault =>
    have hnone := noLink_of_readLink hlink
    refine decided_io (by decide) ?_ hnone ?_
    · rintro name ⟨target, htarget, -⟩
      exact hnone target htarget
    · rintro ⟨target, htarget, -⟩
      exact hnone target htarget
  | ok target =>
    have hread : ¬ NoLink files p := fun h => h target (readLink_eq_ok_iff.1 hlink)
    simp only [Except.mapError, Json.ok_bind]
    cases hname : target.fileName?.bind Text.decode? with
    | some name =>
      refine decided_ok (fun other => ?_) hread ?_
      · simp [LinksToName, linksTo_iff_of_readLink hlink, ← bind_decode?_eq_some_iff, hname]
      · simp [LinksToNoName, linksTo_iff_of_readLink hlink, ← bind_decode?_eq_some_iff, hname]
    | none =>
      refine decided_unusable (by decide) rfl ?_ hread ?_
      · simp [LinksToName, linksTo_iff_of_readLink hlink, ← bind_decode?_eq_some_iff, hname]
      · simp [LinksToNoName, linksTo_iff_of_readLink hlink, ← bind_decode?_eq_some_iff, hname]

/-- The link `driver` below a path that is seen from the root. -/
def driverLink (s : Sysfs) (p : Path) : Path := (s.root.join p).join (.ofString "driver")

def busNode (s : Sysfs) (l : Location) : Path := s.root.join (.ofString ("usb" ++ byteText l.bus))

theorem readDriver_of_interface {s : Sysfs} {l : Location} {i : UInt8} (h : l.isRootHub = false) :
    s.readDriver l i = linkName s.files (s.driverLink (.ofString (l.driverNode i))) := by
  rw [readDriver, h]
  rfl

theorem readDriver_of_rootHub {s : Sysfs} {l : Location} {i : UInt8} (h : l.isRootHub = true) :
    s.readDriver l i = ((s.files.readLink (s.busNode l)).mapError .io).bind fun target =>
      target.parent?.elim (.error (.noController target)) fun c =>
        linkName s.files (s.driverLink c) := by
  have hname : l.deviceName = "usb" ++ byteText l.bus := by
    rw [Location.deviceName, deviceName, Location.isRootHub_iff.1 h]
    rfl
  rw [readDriver, if_pos h, hname, busNode]
  cases s.files.readLink (s.root.join (.ofString ("usb" ++ byteText l.bus))) with
  | error fault => rfl
  | ok target =>
    cases hparent : target.parent? <;>
      simp [Except.mapError, Json.ok_bind, hparent, Except.bind, driverLink]

theorem readController_decided {s : Sysfs} {l : Location} (i : UInt8) (h : l.isRootHub = true) :
    Decided (s.readDriver l i)
      (fun name => ∃ target c, LinksTo s.files (s.busNode l) target ∧ target.HasParent c ∧
        LinksToName s.files (s.driverLink c) name)
      (NoLink s.files (s.busNode l) ∨ ∃ target c, LinksTo s.files (s.busNode l) target ∧
        target.HasParent c ∧ NoLink s.files (s.driverLink c)) .notFound
      ((∃ target, LinksTo s.files (s.busNode l) target ∧ ∀ c, ¬ target.HasParent c) ∨
        ∃ target c, LinksTo s.files (s.busNode l) target ∧ target.HasParent c ∧
          LinksToNoName s.files (s.driverLink c)) := by
  rw [readDriver_of_rootHub h]
  cases hlink : s.files.readLink (s.busNode l) with
  | error fault =>
    have hnone := noLink_of_readLink hlink
    refine decided_io (by decide) ?_ (.inl hnone) ?_
    · rintro name ⟨target, c, htarget, -⟩
      exact hnone target htarget
    · rintro (⟨target, htarget, -⟩ | ⟨target, c, htarget, -⟩)
      · exact hnone target htarget
      · exact hnone target htarget
  | ok target =>
    have hread : ¬ NoLink s.files (s.busNode l) := fun h => h target (readLink_eq_ok_iff.1 hlink)
    simp only [Except.mapError, Except.bind, linksTo_iff_of_readLink hlink, hread, false_or]
    cases hparent : target.parent? with
    | none =>
      have hno : ∀ c, ¬ target.HasParent c := by
        intro c hc
        rw [Path.parent?_eq_some_iff.2 hc] at hparent
        cases hparent
      refine decided_unusable (by decide) rfl ?_ ?_ (.inl ⟨target, rfl, hno⟩)
      · rintro name ⟨_, c, rfl, hc, -⟩
        exact hno c hc
      · rintro ⟨_, c, rfl, hc, -⟩
        exact hno c hc
    | some c =>
      have hc : target.HasParent c := Path.parent?_eq_some_iff.1 hparent
      refine (linkName_decided s.files (s.driverLink c)).congr (fun name => ?_) ?_ ?_
      · simp [hasParent_iff_of_parent? hparent]
      · simp [hasParent_iff_of_parent? hparent]
      · simp [hasParent_iff_of_parent? hparent]

/-- The driver of an interface is the name that its link gives, and the driver of a root hub that
of its controller, whichever interface is asked for. A fault of the system tells that a link is
missing, a fault of another kind that a target has no parent or no name. -/
theorem readDriver_decided (s : Sysfs) (l : Location) (i : UInt8) :
    (l.isRootHub = false → Decided (s.readDriver l i)
        (LinksToName s.files (s.driverLink (.ofString (l.driverNode i))))
        (NoLink s.files (s.driverLink (.ofString (l.driverNode i)))) .notFound
        (LinksToNoName s.files (s.driverLink (.ofString (l.driverNode i))))) ∧
      (l.isRootHub = true → Decided (s.readDriver l i)
          (fun name => ∃ target c, LinksTo s.files (s.busNode l) target ∧ target.HasParent c ∧
            LinksToName s.files (s.driverLink c) name)
          (NoLink s.files (s.busNode l) ∨ ∃ target c, LinksTo s.files (s.busNode l) target ∧
            target.HasParent c ∧ NoLink s.files (s.driverLink c)) .notFound
          ((∃ target, LinksTo s.files (s.busNode l) target ∧ ∀ c, ¬ target.HasParent c) ∨
            ∃ target c, LinksTo s.files (s.busNode l) target ∧ target.HasParent c ∧
              LinksToNoName s.files (s.driverLink c)) ∧
        ∀ j, s.readDriver l j = s.readDriver l i) ∧
      (∀ name, s.sideData.driver l i = some name ↔ s.readDriver l i = .ok name) ∧
      (s.sideData.driver l i = none ↔
        kind? (s.readDriver l i) = some .io ∨ kind? (s.readDriver l i) = some .notFound) := by
  refine ⟨fun h => ?_, fun h => ⟨readController_decided i h, fun j => ?_⟩,
    fun name => toOption_eq_some_iff, ?_⟩
  · rw [readDriver_of_interface h]
    exact linkName_decided _ _
  · rw [readDriver_of_rootHub h, readDriver_of_rootHub h]
  · cases h : l.isRootHub with
    | true => exact (readController_decided i h).toOption_eq_none_iff
    | false =>
      have hlink := linkName_decided s.files (s.driverLink (.ofString (l.driverNode i)))
      rw [← readDriver_of_interface h] at hlink
      exact hlink.toOption_eq_none_iff

theorem readDriver_hubSysfs : hubSysfs.readDriver (.encode 1 []) 0 = .ok "xhci_hcd" ∧
    hubSysfs.readDriver (.encode 1 [3]) 0 = .ok "hub" := by
  obtain ⟨hcontroller, -⟩ := (readDriver_decided hubSysfs (.encode 1 []) 0).2.1 (by decide)
  have hinterface := (readDriver_decided hubSysfs (.encode 1 [3]) 0).1 (by decide)
  constructor
  · have hnode : LinksTo hubSysfs.files (hubSysfs.busNode (.encode 1 []))
        (.ofString "../pci0/usb1/.") := readLink_eq_ok_iff.1 (by decide +kernel)
    have hparent : (Path.ofString "../pci0/usb1/.").HasParent (.ofString "../pci0") :=
      @Path.HasParent.inner _ (Text.encode "../pci0") [] (Text.encode "usb1") (Text.encode "/.")
        (by decide) ⟨by decide, by decide⟩ .nil (by decide) (by decide) (by decide)
        (.slashDot .nil)
    have hdriver : LinksTo hubSysfs.files (hubSysfs.driverLink (.ofString "../pci0"))
        (.ofString "xhci_hcd") := readLink_eq_ok_iff.1 (by decide +kernel)
    refine (hcontroller.ok_iff "xhci_hcd").2 ⟨_, _, hnode, hparent, _, hdriver, ?_⟩
    exact ⟨⟨[], [], by decide, .inl rfl, .nil⟩, by decide, by decide, by decide, by decide⟩
  · have hdriver : LinksTo hubSysfs.files (hubSysfs.driverLink (.ofString "1-3:1.0"))
        (.ofString "/missing/../hub/.//") := readLink_eq_ok_iff.1 (by decide +kernel)
    refine (hinterface.ok_iff "hub").2 ⟨_, hdriver, ?_⟩
    exact ⟨⟨Text.encode "/missing/../", Text.encode "/.//", by decide, .inr (by decide),
      .slashDot (.slash (.slash .nil))⟩, by decide, by decide, by decide, by decide⟩

end Sysfs

end UsbTopology
