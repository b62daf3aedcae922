import Mathlib.Data.List.Basic
import UsbTopology.Proofs.Tree.Line

set_option autoImplicit false

/-!
# Lines as documented

The lines of a tree follow three layouts, in which names in angle brackets stand for fields. A root
hub has one line whatever its configurations are. Any other device has one line for each interface,
configuration by configuration, with numbers that start anew in each of them
(`ofDevice_follows_layouts`).
-/
namespace UsbTopology

namespace Layout

/-- Copies a layout. A name in angle brackets, of which a part may have been read already, stands
for its field. -/
def fillFrom (field : String → String) : Option (List Char) → List Char → List Char
  | _, [] => []
  | none, c :: rest =>
    if c = '<' then fillFrom field (some []) rest else c :: fillFrom field none rest
  | some name, c :: rest =>
    if c = '>' then (field (String.ofList name)).toList ++ fillFrom field none rest
    else fillFrom field (some (name ++ [c])) rest

def fill (layout : String) (field : String → String) : String :=
  String.ofList (fillFrom field none layout.toList)

def rootHub : String :=
  "/:  Bus <bus>.Port 1: Dev <dev>, Class=root_hub, Driver=<driver>/<ports>p, <speed>M\n"

def interface : String :=
  "<pad>|__ Port <port>: Dev <dev>, If <num>, Class=<class>, Driver=<driver>, <speed>M\n"

/-- The line of an interface that is a hub tells the number of its ports, too. -/
def hub : String :=
  "<pad>|__ Port <port>: Dev <dev>, If <num>, Class=<class>, Driver=<driver>/<ports>p, <speed>M\n"

variable (field : String → String)

theorem fillFrom_text {text : List Char} (rest : List Char) (h : '<' ∉ text) :
    fillFrom field none (text ++ rest) = text ++ fillFrom field none rest := by
  induction text with
  | nil => rfl
  | cons c text ih =>
    obtain ⟨hc, htext⟩ := List.ne_and_not_mem_of_not_mem_cons h
    rw [List.cons_append, fillFrom, if_neg hc.symm, ih htext, List.cons_append]

theorem fillFrom_name (read : List Char) {name : List Char} (rest : List Char) (h : '>' ∉ name) :
    fillFrom field (some read) (name ++ '>' :: rest) =
      (field (String.ofList (read ++ name))).toList ++ fillFrom field none rest := by
  induction name generalizing read with
  | nil => simp [fillFrom]
  | cons c name ih =>
    obtain ⟨hc, hname⟩ := List.ne_and_not_mem_of_not_mem_cons h
    rw [List.cons_append, fillFrom, if_neg hc.symm, ih (read ++ [c]) hname, List.append_assoc]
    rfl

theorem fillFrom_pieces {pieces : List (String × String)} {last : String}
    (htext : ∀ p ∈ pieces, '<' ∉ p.1.toList ∧ '>' ∉ p.2.toList) (hlast : '<' ∉ last.toList) :
    fillFrom field none
        ((pieces.flatMap fun p => p.1.toList ++ ('<' :: (p.2.toList ++ ['>']))) ++ last.toList) =
      (String.join (pieces.map fun p => p.1 ++ field p.2)).toList ++ last.toList := by
  induction pieces with
  | nil => simpa [fillFrom] using fillFrom_text field [] hlast
  | cons p pieces ih =>
    obtain ⟨hp, hname⟩ := htext p (by simp)
    have hrest := ih fun q hq => htext q (by simp [hq])
    rw [List.flatMap_cons, List.append_assoc, List.append_assoc, fillFrom_text field _ hp,
      List.cons_append, List.append_assoc, List.singleton_append, fillFrom, if_pos rfl,
      fillFrom_name field [] _ hname, hrest, List.map_cons, String.join_cons]
    simp

theorem fill_eq_join {layout : String} (pieces : List (String × String)) (last : String)
    (hlayout : layout.toList =
      (pieces.flatMap fun p => p.1.toList ++ ('<' :: (p.2.toList ++ ['>']))) ++ last.toList)
    (htext : ∀ p ∈ pieces, '<' ∉ p.1.toList ∧ '>' ∉ p.2.toList) (hlast : '<' ∉ last.toList) :
    fill layout field = String.join (pieces.map fun p => p.1 ++ field p.2) ++ last := by
  apply String.toList_inj.1
  rw [fill, String.toList_ofList, hlayout, fillFrom_pieces field htext hlast, String.toList_append]

theorem fill_rootHub : fill rootHub field =
    String.join ([("/:  Bus ", "bus"), (".Port 1: Dev ", "dev"),
      (", Class=root_hub, Driver=", "driver"), ("/", "ports"), ("p, ", "speed")].map fun p =>
        p.1 ++ field p.2) ++ "M\n" :=
  fill_eq_join field _ _ (by simp [rootHub]) (by simp) (by simp)

theorem fill_interface : fill interface field =
    String.join ([("", "pad"), ("|__ Port ", "port"), (": Dev ", "dev"),
      (", If ", "num"), (", Class=", "class"), (", Driver=", "driver"), (", ", "speed")].map
        fun p => p.1 ++ field p.2) ++ "M\n" :=
  fill_eq_join field _ _ (by simp [interface]) (by simp) (by simp)

theorem fill_hub : fill hub field =
    String.join ([("", "pad"), ("|__ Port ", "port"), (": Dev ", "dev"),
      (", If ", "num"), (", Class=", "class"), (", Driver=", "driver"), ("/", "ports"),
      ("p, ", "speed")].map fun p => p.1 ++ field p.2) ++ "M\n" :=
  fill_eq_join field _ _ (by simp [hub]) (by simp) (by simp)

end Layout

/-- A speed in Mb/s. -/
def Layout.speedText : Speed → String
  | .unknown => "Unknown"
  | .low => "1.5"
  | .full => "12"
  | .high => "480"
  | .super => "5000"

theorem Speed.rate_eq (v : Speed) : v.rate = Layout.speedText v := by
  cases v <;> rfl

namespace Device

variable (names : ClassNames) (side : SideData) (d : Device)

def rootHubField : String → String
  | "bus" => String.ofList (List.leftpad 2 '0' (toString d.bus.toNat).toList)
  | "dev" => toString d.address.toNat
  | "driver" => (side.driver d.location 0).getD "Unknown"
  | "ports" => toString ((side.portCount d.location).getD 0).toNat
  | "speed" => Layout.speedText d.speed
  | _ => ""

/-- What the fields stand for in the line of an interface with `j` interfaces before it in its
configuration. -/
def interfaceField (j : Nat) (i : Interface) : String → String
  | "pad" => String.ofList (List.replicate (4 * d.location.depth) ' ')
  | "port" => String.ofList (Nat.toDigits 16 (d.location.ports.getLast?.getD 0).toNat)
  | "dev" => toString d.address.toNat
  | "num" => toString (min j 255)
  | "class" => (names i.baseClass).getD ""
  | "driver" => (side.driver d.location (UInt8.ofNat (min j 255))).getD "Unknown"
  | "ports" => toString ((side.portCount d.location).getD 0).toNat
  | "speed" => Layout.speedText d.speed
  | _ => ""

def layoutLine (j : Nat) (i : Interface) : String :=
  Layout.fill (if i.baseClass = 9 then Layout.hub else Layout.interface)
    (d.interfaceField names side j i)

theorem twoDigits_eq (b : UInt8) :
    twoDigits b = String.ofList (List.leftpad 2 '0' (toString b.toNat).toList) := by
  apply String.toList_inj.1
  rw [String.toList_ofList, Nat.toString_eq_ofList_toDigits, String.toList_ofList, List.leftpad]
  unfold twoDigits
  split
  · next hlt =>
    have hn : b.toNat < 10 := UInt8.lt_iff_toNat_lt.1 hlt
    rw [String.toList_append, toList_byteText, Nat.toDigits_of_lt_base hn]
    rfl
  · next hge =>
    have hn : 10 ≤ b.toNat := Nat.not_lt.1 fun h => hge (UInt8.lt_iff_toNat_lt.2 h)
    rw [toList_byteText, Nat.toDigits_of_base_le (by decide) hn, List.length_append,
      List.length_singleton]
    have hpos : 0 < (Nat.toDigits 10 (b.toNat / 10)).length :=
      List.length_pos_iff.2 Nat.toDigits_ne_nil
    have hnone : 2 - ((Nat.toDigits 10 (b.toNat / 10)).length + 1) = 0 := by omega
    rw [hnone]
    rfl

theorem singleton_hexDigit : ∀ n < 16,
    String.singleton (Text.hexDigit n) = String.ofList (Nat.toDigits 16 n) := by
  decide

theorem rootHubLine_eq_fill (h : d.location.depth = 0) :
    d.rootHubLine side = Layout.fill Layout.rootHub (d.rootHubField side) := by
  have hports : d.location.ports = [] := List.length_eq_zero_iff.1 h
  have hport : d.location.port? = none := by rw [Location.port?, hports, List.getLast?_nil]
  rw [Layout.fill_rootHub]
  apply String.toList_inj.1
  simp only [rootHubLine, Location.branch, if_pos h, Location.portDigit, hport, lineEnd, withPorts,
    twoDigits_eq, Speed.rate_eq, rootHubField, List.map_cons, List.map_nil, String.join_cons,
    String.join_nil]
  simp [unknownDriver, byteText, Text.hexDigit]

theorem portDigit_eq (h : d.location.depth ≠ 0) :
    d.location.portDigit =
      String.ofList (Nat.toDigits 16 (d.location.ports.getLast?.getD 0).toNat) := by
  cases hport : d.location.ports.getLast? with
  | none => exact absurd (congrArg List.length (List.getLast?_eq_none_iff.1 hport)) h
  | some p =>
    have hlt : p.toNat < 16 := (Location.isPort_of_mem_ports (List.mem_of_getLast? hport)).toNat_lt
    rw [Location.portDigit, Location.port?, hport]
    exact singleton_hexDigit p.toNat hlt

theorem interfaceLine_eq_fill (h : d.location.depth ≠ 0) (j : Nat) (i : Interface) :
    d.interfaceLine names side (UInt8.ofNat (min j 255)) i = d.layoutLine names side j i := by
  have hnumber : byteText (UInt8.ofNat (min j 255)) = toString (min j 255) := by
    rw [byteText, toNat_number]
  have hhub : i.classCode.isHub = true ↔ i.baseClass = 9 := ClassCode.isHub_ofId i.baseClass
  unfold layoutLine
  apply String.toList_inj.1
  by_cases hclass : i.baseClass = 9
  · rw [if_pos hclass, Layout.fill_hub]
    simp only [interfaceLine, Location.branch, if_neg h, d.portDigit_eq h, lineEnd, hnumber,
      if_pos (hhub.2 hclass), withPorts, Speed.rate_eq, interfaceField, List.map_cons, List.map_nil,
      String.join_cons, String.join_nil]
    simp [unknownDriver, byteText]
  · rw [if_neg hclass, Layout.fill_interface]
    simp only [interfaceLine, Location.branch, if_neg h, d.portDigit_eq h, lineEnd, hnumber,
      if_neg (mt hhub.1 hclass), Speed.rate_eq, interfaceField, List.map_cons, List.map_nil,
      String.join_cons, String.join_nil]
    simp [unknownDriver, byteText]

def layoutLines : List String :=
  d.configurations.flatMap fun c => c.interfaces.mapIdx (d.layoutLine names side)

theorem render_eq_layoutLines (h : d.location.depth ≠ 0) :
    d.render names side = String.join (d.layoutLines names side) := by
  rw [render, if_neg h, numberedInterfaces, List.map_flatMap, layoutLines]
  refine congrArg String.join (List.flatMap_congr fun c _ => ?_)
  rw [List.mapIdx_eq_zipIdx_map, List.map_map]
  exact List.map_congr_left fun i _ => d.interfaceLine_eq_fill names side h i.2 i.1

theorem length_layoutLines :
    (d.layoutLines names side).length =
      (d.configurations.flatMap Configuration.interfaces).length := by
  simp [layoutLines, List.length_flatMap]

theorem getElem?_layoutLines {before after : List Configuration} {c : Configuration}
    (hconfig : d.configurations = before ++ c :: after) {j : Nat} {i : Interface}
    (hi : c.interfaces[j]? = some i) :
    (d.layoutLines names side)[(before.flatMap Configuration.interfaces).length + j]? =
      some (d.layoutLine names side j i) := by
  have hj : j < c.interfaces.length := (List.getElem?_eq_some_iff.1 hi).1
  have hbefore : (before.flatMap fun c => c.interfaces.mapIdx (d.layoutLine names side)).length =
      (before.flatMap Configuration.interfaces).length := by
    simp [List.length_flatMap]
  rw [layoutLines, hconfig, List.flatMap_append, List.getElem?_append_right (by omega), hbefore,
    Nat.add_sub_cancel_left, List.flatMap_cons, List.getElem?_append_left (by simpa using hj),
    List.getElem?_mapIdx, hi, Option.map_some]

end Device

namespace Entry

/-- An entry carries the location and index of its device, and its text follows the layouts: the one
line of a root hub, or a line for each interface, none left out and none added. -/
theorem ofDevice_follows_layouts (names : ClassNames) (side : SideData) (index : Nat)
    (d : Device) :
    (ofDevice names side index d).location = .encode d.bus d.ports ∧
    (ofDevice names side index d).index = index ∧
    (d.location.depth = 0 →
      (ofDevice names side index d).text = Layout.fill Layout.rootHub (d.rootHubField side)) ∧
    (d.location.depth ≠ 0 →
      (ofDevice names side index d).text = String.join (d.configurations.flatMap fun c =>
        c.interfaces.mapIdx (d.layoutLine names side))) ∧
    (d.layoutLines names side).length =
      (d.configurations.flatMap Configuration.interfaces).length ∧
    ∀ before c after, d.configurations = before ++ c :: after → ∀ j i, c.interfaces[j]? = some i →
      (d.layoutLines names side)[(before.flatMap Configuration.interfaces).length + j]? =
        some (d.layoutLine names side j i) := by
  refine ⟨rfl, rfl, fun h => ?_, fun h => d.render_eq_layoutLines names side h,
    d.length_layoutLines names side, ?_⟩
  · change d.render names side = _
    rw [Device.render, if_pos h, d.rootHubLine_eq_fill side h]
  · intro before c after hconfig j i hi
    exact d.getElem?_layoutLines names side hconfig hi

/-- A hub of one unnamed interface besides, with another configuration behind the first. -/
def compoundHub : Device :=
  ⟨2, [1, 11], 3, .full, [⟨1, [⟨9, 0, 1⟩, ⟨66, 0, 0⟩]⟩, ⟨2, [⟨8, 6, 80⟩]⟩]⟩

def plainRootHub : Device := ⟨3, [], 1, .high, [⟨1, [⟨9, 0, 1⟩]⟩]⟩

theorem ofDevice_follows_layouts_compoundHub :
    compoundHub.location.depth ≠ 0 ∧
    (ofDevice .registered (.ofTables .empty .empty) 0 compoundHub).text =
      String.join (compoundHub.configurations.flatMap fun c =>
        c.interfaces.mapIdx (compoundHub.layoutLine .registered (.ofTables .empty .empty))) ∧
    (compoundHub.layoutLines .registered (.ofTables .empty .empty))[2]? =
      some (compoundHub.layoutLine .registered (.ofTables .empty .empty) 0 ⟨8, 6, 80⟩) ∧
    plainRootHub.location.depth = 0 ∧
    (ofDevice .registered (.ofTables .empty .empty) 1 plainRootHub).text =
      Layout.fill Layout.rootHub (plainRootHub.rootHubField (.ofTables .empty .empty)) := by
  have hdepth : compoundHub.location.depth ≠ 0 := by decide
  have hroot : plainRootHub.location.depth = 0 := by decide
  obtain ⟨-, -, -, htext, -, hline⟩ :=
    ofDevice_follows_layouts .registered (.ofTables .empty .empty) 0 compoundHub
  obtain ⟨-, -, hrootText, -⟩ :=
    ofDevice_follows_layouts .registered (.ofTables .empty .empty) 1 plainRootHub
  have hlast := hline [⟨1, [⟨9, 0, 1⟩, ⟨66, 0, 0⟩]⟩] ⟨2, [⟨8, 6, 80⟩]⟩ [] rfl 0 _ rfl
  exact ⟨hdepth, htext hdepth, hlast, hroot, hrootText hroot⟩

example : compoundHub.layoutLine .registered (.ofTables .empty .empty) 0 ⟨9, 0, 1⟩ =
    "        |__ Port b: Dev 3, If 0, Class=Hub, Driver=Unknown/0p, 12M\n" := by cbv

end Entry

end UsbTopology
