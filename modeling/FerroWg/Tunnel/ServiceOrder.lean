import FerroWg.Lib.Lines
import FerroWg.Tunnel.Dns
import Mathlib.Data.List.Nodup

/-!
# The primary network service

`detect_primary_service` of `dns.rs` on macOS: the interface of the default route is looked up in
the listing of `networksetup -listnetworkserviceorder`.
-/

namespace FerroWg.Tunnel.ServiceOrder

open Lib Lib.Text

structure Output where
  success : Bool
  stdout : String
  stderr : String

/-- What a command prints, if it starts and succeeds. -/
def stdoutOf (name : String) : Except String Output → Except DnsError String
  | .error e => .error (.io e)
  | .ok out =>
    if out.success then .ok out.stdout
    else .error (.serviceDetection s!"{name} failed: {trim out.stderr}")

def defaultInterface (routed : String) : Option String :=
  (lines routed).findSome? fun line => (stripPrefix "interface:" (trim line)).map trim

/-- Of a line such as `(1) Wi-Fi`, what follows the first `)`. -/
def serviceOf (line : String) : Option String :=
  if startsWith '(' line then (splitOnce ')' line).map fun (_, rest) => trim rest else none

/-- Of a line such as `(Hardware Port: Wi-Fi, Device: en0)`, the device. -/
def deviceOf (line : String) : Option String :=
  if contains "Device:" line then
    (splitSecond "Device:" line).map fun dev => trim (trimEndMatches ')' (trim dev))
  else none

/-- The loop over the lines, with the service that was last seen. -/
def scan (iface : String) : Option String → List String → Option String
  | _, [] => none
  | lastService, raw :: rest =>
    let line := trim raw
    let lastService := (serviceOf line).or lastService
    if deviceOf line = some iface then lastService else scan iface lastService rest

def detectPrimaryService (route listing : Except String Output) : Except DnsError String := do
  let routed ← stdoutOf "route -n get default" route
  match defaultInterface routed with
  | none => .error (.serviceDetection "could not parse default route interface")
  | some iface =>
    let listed ← stdoutOf "networksetup -listnetworkserviceorder" listing
    match scan iface none (lines listed) with
    | some name => .ok name
    | none => .error (.serviceDetection
        s!"interface {iface} not found in networksetup service list")

/-! ## The listing -/

structure NetworkService where
  name : String
  port : String
  device : String

def NetworkService.lines (k : Nat) (s : NetworkService) : List String :=
  [s!"({k}) {s.name}", s!"(Hardware Port: {s.port}, Device: {s.device})"]

structure Listing where
  header : String
  services : List NetworkService
  headerLine : '\n' ∉ header.toList
  named : ∀ s ∈ services, s.name ≠ ""
  nameLine : ∀ s ∈ services, '\n' ∉ s.name.toList
  portLine : ∀ s ∈ services, '\n' ∉ s.port.toList
  devices : ∀ s ∈ services, ∀ c ∈ s.device.toList, c ≠ ')' ∧ isWhitespace c = false
  distinct : (services.map (·.device)).Nodup

namespace Listing

def lines (l : Listing) : List String :=
  l.header :: l.services.zipIdx.flatMap fun (s, i) => s.lines (i + 1)

def render (l : Listing) : String := unlines l.lines

/-- What the first line that has the interface behind `Device:` has behind its `)`. -/
def shown (l : Listing) (iface : String) : Option String :=
  ((l.lines.map trim).find? fun line => deviceOf line = some iface).bind serviceOf

end Listing

/-- The line of its device, without the line feed. -/
def NetworkService.deviceLine (s : NetworkService) : List Char :=
  '(' :: ("Hardware Port: ".toList ++ s.port.toList ++ ", Device: ".toList ++
    s.device.toList ++ [')'])

/-- The service paired with the interface is found, and no service for an interface that is not
listed. -/
def Correct (l : Listing) (iface : String) (found : Except DnsError String) : Prop :=
  (∀ s ∈ l.services, s.device = iface → found = .ok s.name) ∧
    ((∀ s ∈ l.services, s.device ≠ iface) → ∃ reason, found = .error (.serviceDetection reason))

/-! ## Which lines point to an interface -/

/-- What marks a device. -/
def mark : List Char := "Device:".toList

/-- Between the first mark of a text and the next there is the interface, blanks and closing
brackets at the ends aside. -/
def Points (iface : String) (text : List Char) : Prop :=
  ∃ before between after, text = before ++ (mark ++ (between ++ after)) ∧
    ¬ mark <:+: before ∧ ¬ mark <:+: between ∧ (after = [] ∨ mark <+: after) ∧
    trim (trimEndMatches ')' (trim (.ofList between))) = iface

/-- A text begins with `(`, blanks aside, and behind its first `)` there is the name. -/
def Labels (name : String) (text : List Char) : Prop :=
  ∃ blanks inner after, text = blanks ++ '(' :: (inner ++ ')' :: after) ∧ Blank blanks ∧
    ')' ∉ inner ∧ trim (.ofList after) = name

theorem mark_eq : mark = "Device:".toList := rfl

theorem mark_solid : ∀ c ∈ mark, isWhitespace c = false := by
  have solid : mark.all (fun c => !isWhitespace c) = true := by decide
  simpa using solid

theorem splitOnceAt_mark {text before after : List Char} :
    splitOnceAt mark text = some (before, after) ↔
      text = before ++ (mark ++ after) ∧ ¬ mark <:+: before :=
  splitOnceAt_eq_some_iff (by decide)

theorem splitOnceAt_mark_append {front : List Char} (free : 'D' ∉ front) (text : List Char) :
    splitOnceAt mark (front ++ text) =
      (splitOnceAt mark text).map fun (before, after) => (front ++ before, after) :=
  splitOnceAt_append_left free

theorem splitOnceAt_mark_blank (text : List Char) {w : List Char} (blank : Blank w) :
    splitOnceAt mark (text ++ w) =
      (splitOnceAt mark text).map fun (before, after) => (before, after ++ w) :=
  splitOnceAt_append_blank mark_solid (by decide) blank

/-- A text up to the next mark. -/
def upToMark (text : List Char) : List Char :=
  match splitOnceAt mark text with
  | some (part, _) => part
  | none => text

theorem deviceOf_eq (line : String) :
    deviceOf line = (splitOnceAt mark line.toList).map fun (_, after) =>
      trim (trimEndMatches ')' (trim (.ofList (upToMark after)))) := by
  rw [deviceOf]
  by_cases marked : mark <:+: line.toList
  · have inside : contains "Device:" line = true := decide_eq_true marked
    rw [if_pos inside, splitSecond, ← mark_eq]
    generalize splitOnceAt mark line.toList = found
    cases found with
    | none => rfl
    | some parts =>
      simp only [Option.map_some, upToMark]
      generalize splitOnceAt mark parts.2 = next
      cases next <;> rfl
  · have absent : contains "Device:" line = false := decide_eq_false marked
    rw [absent, splitOnceAt_of_not_infix marked]
    rfl

theorem deviceOf_iff {line iface : String} :
    deviceOf line = some iface ↔ Points iface line.toList := by
  rw [deviceOf_eq]
  constructor
  · intro found
    obtain ⟨⟨before, after⟩, split, same⟩ := Option.map_eq_some_iff.mp found
    obtain ⟨text, first⟩ := splitOnceAt_mark.mp split
    simp only [upToMark] at same
    cases next : splitOnceAt mark after with
    | none =>
      rw [next] at same
      refine ⟨before, after, [], ?_, first, splitOnceAt_eq_none_iff.mp next, .inl rfl, same⟩
      rw [text, List.append_nil]
    | some parts =>
      obtain ⟨part, rest⟩ := parts
      obtain ⟨rfl, inside⟩ := splitOnceAt_mark.mp next
      rw [next] at same
      exact ⟨before, part, mark ++ rest, text, first, inside, .inr (List.prefix_append _ _), same⟩
  · rintro ⟨before, between, after, text, first, inside, ends, rfl⟩
    simp only [splitOnceAt_mark.mpr ⟨text, first⟩, Option.map_some, upToMark]
    rcases ends with rfl | ⟨rest, rfl⟩
    · rw [List.append_nil, splitOnceAt_of_not_infix inside]
    · rw [splitOnceAt_mark.mpr ⟨rfl, inside⟩]

theorem trim_append_blank (text : List Char) {w : List Char} (blank : Blank w) :
    trim (.ofList (text ++ w)) = trim (.ofList text) := by
  rw [trim_eq, trim_eq, String.toList_ofList, String.toList_ofList, trimChars_append_blank _ blank]

theorem trim_upToMark_blank (text : List Char) {w : List Char} (blank : Blank w) :
    trim (.ofList (upToMark (text ++ w))) = trim (.ofList (upToMark text)) := by
  simp only [upToMark, splitOnceAt_mark_blank text blank]
  generalize splitOnceAt mark text = found
  cases found with
  | none => exact trim_append_blank text blank
  | some parts => rfl

/-- Blanks around a line make no difference. -/
theorem deviceOf_trim (line : String) : deviceOf (trim line) = deviceOf line := by
  obtain ⟨left, right, blankLeft, blankRight, whole⟩ := trimChars_spec line.toList
  have free : 'D' ∉ left := fun member => absurd (blankLeft _ member) (by decide)
  rw [deviceOf_eq, deviceOf_eq, toList_trim]
  generalize trimChars line.toList = core at whole
  rw [whole, List.append_assoc, splitOnceAt_mark_append free, splitOnceAt_mark_blank _ blankRight]
  generalize splitOnceAt mark core = found
  cases found with
  | none => rfl
  | some parts =>
    simp only [Option.map_some, trim_upToMark_blank _ blankRight]

theorem scan_eq (iface : String) (last : Option String) (ls : List String)
    (labelled : ∀ line ∈ ls, (serviceOf (trim line)).isSome) :
    scan iface last ls =
      ((ls.map trim).find? fun line => deviceOf line = some iface).bind serviceOf := by
  induction ls generalizing last with
  | nil => rfl
  | cons raw rest ih =>
    obtain ⟨service, label⟩ := Option.isSome_iff_exists.mp (labelled raw (.head _))
    rw [scan, List.map_cons, List.find?_cons]
    by_cases here : deviceOf (trim raw) = some iface
    · simp [here, label]
    · simp [here, label, ih (some service) fun line member => labelled line (.tail _ member)]

theorem serviceOf_trim {line : String} {rest : List Char} (text : line.toList = '(' :: rest) :
    serviceOf (trim line) = (splitOnce ')' line).map fun (_, rest) => trim rest := by
  have solid : isWhitespace ')' = false := rfl
  have parts := congrArg (Option.map Prod.snd) (map_trim_splitOnce_trim solid line)
  rw [serviceOf, startsWith_trim (by decide) text]
  simpa [Option.map_map, Function.comp_def] using parts

theorem serviceOf_name (k : Nat) (s : NetworkService) :
    serviceOf (trim s!"({k}) {s.name}") = some (trim s.name) := by
  have text : s!"({k}) {s.name}".toList =
      ('(' :: (toString k).toList) ++ ')' :: ([' '] ++ s.name.toList) := by
    simp [toString]
  have number : ')' ∉ '(' :: (toString k).toList := by
    intro member
    rcases List.mem_cons.mp member with same | member
    · cases same
    · exact absurd (isDigit_of_mem_toString member) (by decide)
  have blank : Blank [' '] := by simp [Blank, isWhitespace]
  have after : trim (.ofList ([' '] ++ s.name.toList)) = trim s.name := by
    rw [trim_eq, String.toList_ofList, trimChars_blank_append blank, trim_eq]
  rw [serviceOf_trim text, splitOnce_of_eq text number]
  exact congrArg some after

theorem device_text (s : NetworkService) :
    s!"(Hardware Port: {s.port}, Device: {s.device})".toList = s.deviceLine := by
  simp [toString, NetworkService.deviceLine]

/-- A line for a device looks like one for a service: it begins with `(` and has a `)`. -/
theorem serviceOf_isSome {k : Nat} {s : NetworkService} {line : String}
    (member : line ∈ s.lines k) : (serviceOf (trim line)).isSome := by
  rcases List.mem_pair.mp member with rfl | rfl
  · rw [serviceOf_name, Option.isSome_some]
  · rw [serviceOf_trim (device_text s), Option.isSome_map, Option.isSome_iff_ne_none, ne_eq,
      splitOnce_eq_none_iff, not_not, device_text]
    simp [NetworkService.deviceLine]

theorem Listing.mem_lines {l : Listing} {line : String} (member : line ∈ l.lines) :
    line = l.header ∨ ∃ s ∈ l.services, ∃ k, line ∈ s.lines k := by
  rcases List.mem_cons.mp member with first | member
  · exact .inl first
  · obtain ⟨⟨s, i⟩, listed, member⟩ := List.mem_flatMap.mp member
    exact .inr ⟨s, List.fst_mem_of_mem_zipIdx listed, i + 1, member⟩

theorem Listing.line_free (l : Listing) : ∀ line ∈ l.lines, '\n' ∉ line.toList := by
  intro line member
  rcases mem_lines member with rfl | ⟨s, listed, k, member⟩
  · exact l.headerLine
  · rcases List.mem_pair.mp member with rfl | rfl
    · have number : '\n' ∉ (toString k).toList := fun member =>
        absurd (isDigit_of_mem_toString member) (by decide)
      simpa [toString, l.nameLine s listed] using number
    · have device : '\n' ∉ s.device.toList := fun member => by
        have := (l.devices s listed _ member).2
        simp [isWhitespace] at this
      rw [device_text]
      simp [NetworkService.deviceLine, l.portLine s listed, device]

theorem scan_map_trim (iface : String) (last : Option String) (ls : List String) :
    scan iface last (ls.map trim) = scan iface last ls := by
  induction ls generalizing last with
  | nil => rfl
  | cons raw rest ih =>
    simp only [List.map_cons, scan, trim_trim, ih]

/-- The device line is read as a service line too, so what was remembered is gone by then. -/
theorem scan_listing (l : Listing) (iface : String) :
    scan iface none (Text.lines l.render) = l.shown iface := by
  have labelled : ∀ line ∈ l.services.zipIdx.flatMap (fun (s, i) => s.lines (i + 1)),
      (serviceOf (trim line)).isSome := by
    intro line member
    obtain ⟨⟨s, i⟩, -, member⟩ := List.mem_flatMap.mp member
    exact serviceOf_isSome member
  rw [← scan_map_trim, Listing.render, map_trim_lines_unlines l.line_free, scan_map_trim,
    Listing.shown, Listing.lines, scan, List.map_cons, List.find?_cons]
  by_cases here : deviceOf (trim l.header) = some iface
  · simp [here]
  · simp [here, scan_eq iface _ _ labelled]

/-- What the function makes of what the scan finds. -/
theorem detectPrimaryService_eq (l : Listing) {iface routed : String}
    (route : defaultInterface routed = some iface) (warning warning' : String) :
    detectPrimaryService (.ok ⟨true, routed, warning⟩) (.ok ⟨true, l.render, warning'⟩) =
      match l.shown iface with
      | some name => .ok name
      | none => .error (.serviceDetection
          s!"interface {iface} not found in networksetup service list") := by
  simp only [detectPrimaryService, stdoutOf, ↓reduceIte, bind, Except.bind, route, scan_listing]

/-! ## Which line counts -/

theorem serviceOf_iff {line name : String} :
    serviceOf (trim line) = some name ↔ Labels name line.toList := by
  constructor
  · obtain ⟨left, right, blankLeft, blankRight, whole⟩ := trimChars_spec line.toList
    intro found
    rw [serviceOf, startsWith, toList_trim] at found
    cases core : trimChars line.toList with
    | nil => simp [core] at found
    | cons c rest =>
      obtain rfl : c = '(' := by
        by_contra other
        simp [core, other] at found
      rw [core, List.head?_cons, beq_self_eq_true, if_pos rfl] at found
      obtain ⟨⟨before, after⟩, split, rfl⟩ := Option.map_eq_some_iff.mp found
      have bracket : ')' ∈ '(' :: rest := by
        by_contra absent
        rw [← core, ← toList_trim] at absent
        simp [splitOnce_eq_none_iff.mpr absent] at split
      obtain ⟨inner, behind, text, first⟩ := List.eq_append_cons_of_mem bracket
      cases inner with
      | nil => cases text
      | cons c inner =>
        obtain ⟨rfl, rest_eq⟩ := List.cons.inj text
        have cut := splitOnce_of_eq (toList_trim line ▸ core.trans text) first
        rw [cut] at split
        obtain ⟨rfl, rfl⟩ := Prod.mk.inj (Option.some.inj split)
        refine ⟨left, inner, behind ++ right, ?_, blankLeft, fun member => first (.tail _ member),
          trim_append_blank behind blankRight⟩
        rw [whole, core, rest_eq]
        simp
  · rintro ⟨blanks, inner, after, text, blank, first, rfl⟩
    have bare : trim line = trim (.ofList ('(' :: (inner ++ ')' :: after))) := by
      rw [trim_eq, trim_eq, text, String.toList_ofList, trimChars_blank_append blank]
    have whole : (String.ofList ('(' :: (inner ++ ')' :: after))).toList =
        ('(' :: inner) ++ ')' :: after := String.toList_ofList ..
    rw [bare, serviceOf_trim whole, splitOnce_of_eq whole (by simp [first])]
    rfl

instance (iface : String) (text : List Char) : Decidable (Points iface text) :=
  decidable_of_iff (deviceOf (.ofList text) = some iface) (by
    rw [deviceOf_iff, String.toList_ofList])

theorem deviceOf_nameLine (k : Nat) (s : NetworkService) (iface : String) :
    deviceOf (trim s!"({k}) {s.name}") = some iface ↔ Points iface s.name.toList := by
  have text : s!"({k}) {s.name}".toList =
      ('(' :: ((toString k).toList ++ [')', ' '])) ++ s.name.toList := by
    simp [toString]
  have free : 'D' ∉ '(' :: ((toString k).toList ++ [')', ' ']) := by
    intro member
    have digit : 'D' ∈ (toString k).toList := by simpa using member
    exact absurd (isDigit_of_mem_toString digit) (by decide)
  rw [← deviceOf_iff, deviceOf_trim, deviceOf_eq, deviceOf_eq, text, splitOnceAt_mark_append free,
    Option.map_map]
  rfl

theorem deviceOf_deviceLine (s : NetworkService) (iface : String) :
    deviceOf (trim s!"(Hardware Port: {s.port}, Device: {s.device})") = some iface ↔
      Points iface s.deviceLine := by
  rw [deviceOf_trim, deviceOf_iff, device_text]

theorem serviceOf_deviceLine (s : NetworkService) (name : String) :
    serviceOf (trim s!"(Hardware Port: {s.port}, Device: {s.device})") = some name ↔
      Labels name s.deviceLine := by
  rw [serviceOf_iff, device_text]

/-- One of its two lines points to the interface. -/
def NetworkService.Points (s : NetworkService) (iface : String) : Prop :=
  ServiceOrder.Points iface s.name.toList ∨ ServiceOrder.Points iface s.deviceLine

/-- The first of its two lines to point to the interface has the name: what is behind the number of
the service, or what is behind the first `)` of the line for its device. -/
def NetworkService.Tells (s : NetworkService) (iface name : String) : Prop :=
  ServiceOrder.Points iface s.name.toList ∧ trim s.name = name ∨
    ¬ ServiceOrder.Points iface s.name.toList ∧ ServiceOrder.Points iface s.deviceLine ∧
      Labels name s.deviceLine

/-- The first line to point to the interface has the name: it is the header, or one of a service. -/
inductive Listing.Tells (l : Listing) (iface name : String) : Prop
  | header (points : Points iface l.header.toList) (labels : Labels name l.header.toList)
  | service (passed : ¬ Points iface l.header.toList) {earlier later : List NetworkService}
      {s : NetworkService} (split : l.services = earlier ++ s :: later)
      (others : ∀ t ∈ earlier, ¬ t.Points iface) (tells : s.Tells iface name)

/-- No line points to the interface, or a header does first that looks like no service. -/
inductive Listing.Silent (l : Listing) (iface : String) : Prop
  | header (points : Points iface l.header.toList) (bare : ∀ name, ¬ Labels name l.header.toList)
  | nowhere (passed : ¬ Points iface l.header.toList) (others : ∀ s ∈ l.services, ¬ s.Points iface)

theorem exists_split_cons {α : Type} {p q : α → Prop} {a : α} {rest : List α} :
    (∃ earlier t later, a :: rest = earlier ++ t :: later ∧ (∀ u ∈ earlier, ¬ p u) ∧ q t) ↔
      q a ∨ ¬ p a ∧
        ∃ earlier t later, rest = earlier ++ t :: later ∧ (∀ u ∈ earlier, ¬ p u) ∧ q t := by
  constructor
  · rintro ⟨earlier, t, later, split, passed, here⟩
    cases earlier with
    | nil =>
      obtain ⟨rfl, -⟩ := List.cons.inj split
      exact .inl here
    | cons b earlier =>
      obtain ⟨rfl, rfl⟩ := List.cons.inj split
      exact .inr ⟨passed _ (.head _), earlier, t, later, rfl,
        fun u member => passed u (.tail _ member), here⟩
  · rintro (here | ⟨no, earlier, t, later, rfl, passed, here⟩)
    · exact ⟨[], a, rest, rfl, by simp, here⟩
    · exact ⟨a :: earlier, t, later, rfl, List.forall_mem_cons.mpr ⟨no, passed⟩, here⟩

section

variable (iface : String)

/-- What the lines of some services have for the interface. -/
def shownAmong (services : List NetworkService) (k : Nat) : Option String :=
  ((((services.zipIdx k).flatMap fun (s, i) => s.lines (i + 1)).map trim).find?
    fun line => deviceOf line = some iface).bind serviceOf

/-- The name of a service, the line for its device, and then the others. -/
theorem shownAmong_cons (s : NetworkService) (rest : List NetworkService) (k : Nat) :
    shownAmong iface (s :: rest) k =
      if Points iface s.name.toList then some (trim s.name)
      else if Points iface s.deviceLine then
        serviceOf (trim s!"(Hardware Port: {s.port}, Device: {s.device})")
      else shownAmong iface rest (k + 1) := by
  rw [shownAmong, List.zipIdx_cons, List.flatMap_cons, List.map_append, List.find?_append]
  simp only [NetworkService.lines, List.map_cons, List.map_nil, List.find?_cons]
  by_cases named : Points iface s.name.toList
  · have first := (deviceOf_nameLine (k + 1) s iface).mpr named
    simp only [first, decide_true, Option.some_or, Option.bind_some, serviceOf_name, if_pos named]
  · have first := mt (deviceOf_nameLine (k + 1) s iface).mp named
    by_cases device : Points iface s.deviceLine
    · have second := (deviceOf_deviceLine s iface).mpr device
      simp only [first, second, decide_true, decide_false, Option.some_or, Option.bind_some,
        if_neg named, if_pos device]
    · have second := mt (deviceOf_deviceLine s iface).mp device
      simp only [first, second, decide_false, List.find?_nil, Option.none_or, if_neg named,
        if_neg device]
      rfl

theorem shownAmong_some_iff {name : String} (services : List NetworkService) (k : Nat) :
    shownAmong iface services k = some name ↔
      ∃ earlier s later, services = earlier ++ s :: later ∧
        (∀ t ∈ earlier, ¬ NetworkService.Points t iface) ∧ s.Tells iface name := by
  induction services generalizing k with
  | nil => simp [shownAmong]
  | cons s rest ih =>
    rw [exists_split_cons, shownAmong_cons, ← ih (k + 1)]
    split_ifs with named device
    · simp [NetworkService.Tells, NetworkService.Points, named]
    · rw [serviceOf_deviceLine]
      simp [NetworkService.Tells, NetworkService.Points, named, device]
    · simp [NetworkService.Tells, NetworkService.Points, named, device]

theorem shownAmong_none_iff (services : List NetworkService) (k : Nat) :
    shownAmong iface services k = none ↔ ∀ s ∈ services, ¬ s.Points iface := by
  induction services generalizing k with
  | nil => simp [shownAmong]
  | cons s rest ih =>
    rw [List.forall_mem_cons, shownAmong_cons, ← ih (k + 1)]
    split_ifs with named device
    · simp [NetworkService.Points, named]
    · have labelled := Option.isSome_iff_ne_none.mp
        (serviceOf_isSome (List.mem_pair.mpr (.inr rfl) : _ ∈ s.lines k))
      simp [NetworkService.Points, device, labelled]
    · simp [NetworkService.Points, named, device]

variable {iface}

theorem Listing.shown_eq (l : Listing) :
    l.shown iface =
      if Points iface l.header.toList then serviceOf (trim l.header)
      else shownAmong iface l.services 0 := by
  rw [shown, lines, List.map_cons, List.find?_cons, shownAmong]
  by_cases points : Points iface l.header.toList
  · have first : deviceOf (trim l.header) = some iface := by rwa [deviceOf_trim, deviceOf_iff]
    simp [first, points]
  · have first : deviceOf (trim l.header) ≠ some iface := by rwa [deviceOf_trim, Ne, deviceOf_iff]
    simp [first, points]

theorem Listing.shown_some_iff {l : Listing} {name : String} :
    l.shown iface = some name ↔ l.Tells iface name := by
  rw [shown_eq]
  constructor
  · intro found
    split at found
    · next points => exact .header points (serviceOf_iff.mp found)
    · next passed =>
      obtain ⟨earlier, s, later, split, others, tells⟩ :=
        (shownAmong_some_iff iface l.services 0).mp found
      exact .service passed split others tells
  · rintro (⟨points, labels⟩ | ⟨passed, split, others, tells⟩)
    · rw [if_pos points, serviceOf_iff]
      exact labels
    · rw [if_neg passed, shownAmong_some_iff]
      exact ⟨_, _, _, split, others, tells⟩

theorem Listing.shown_none_iff {l : Listing} : l.shown iface = none ↔ l.Silent iface := by
  rw [shown_eq]
  constructor
  · intro missed
    split at missed
    · next points =>
      refine .header points fun name labels => ?_
      rw [serviceOf_iff.mpr labels] at missed
      cases missed
    · next passed => exact .nowhere passed ((shownAmong_none_iff iface l.services 0).mp missed)
  · rintro (⟨points, bare⟩ | ⟨passed, others⟩)
    · rw [if_pos points, Option.eq_none_iff_forall_ne_some]
      exact fun name found => bare name (serviceOf_iff.mp found)
    · rw [if_neg passed, shownAmong_none_iff]
      exact others

end

/-! ## When the function is right -/

/-- What the listing has to be like: the first line to point to an interface that is listed has the
name of its service, and for another interface no service's does. -/
structure Listing.Serves (l : Listing) (iface : String) : Prop where
  listed : ∀ s ∈ l.services, s.device = iface → l.Tells iface s.name
  unlisted : (∀ s ∈ l.services, s.device ≠ iface) → l.Silent iface

theorem correct_iff (l : Listing) {iface routed : String}
    (route : defaultInterface routed = some iface) (warning warning' : String) :
    Correct l iface
        (detectPrimaryService (.ok ⟨true, routed, warning⟩) (.ok ⟨true, l.render, warning'⟩)) ↔
      l.Serves iface := by
  have named (name : String) : (detectPrimaryService (.ok ⟨true, routed, warning⟩)
      (.ok ⟨true, l.render, warning'⟩) = .ok name) ↔ l.Tells iface name := by
    rw [detectPrimaryService_eq l route, ← Listing.shown_some_iff]
    cases l.shown iface <;> simp
  have failed : (∃ reason, detectPrimaryService (.ok ⟨true, routed, warning⟩)
      (.ok ⟨true, l.render, warning'⟩) = .error (.serviceDetection reason)) ↔ l.Silent iface := by
    rw [detectPrimaryService_eq l route, ← Listing.shown_none_iff]
    cases l.shown iface <;> simp
  simp only [Correct, named, failed]
  exact ⟨fun both => ⟨both.1, both.2⟩, fun serves => ⟨serves.listed, serves.unlisted⟩⟩

/-! ## Plain listings -/

/-- The mark stands in the device lines alone, and once in each. -/
structure Listing.Plain (l : Listing) : Prop where
  header : ¬ mark <:+: l.header.toList
  name : ∀ s ∈ l.services, ¬ mark <:+: s.name.toList
  port : ∀ s ∈ l.services, ¬ mark <:+: s.port.toList
  device : ∀ s ∈ l.services, ¬ mark <:+: s.device.toList

theorem Points.unique {iface other : String} {text : List Char} (here : Points iface text)
    (there : Points other text) : iface = other := by
  rw [← String.toList_ofList (l := text)] at here there
  exact Option.some.inj ((deviceOf_iff.mpr here).symm.trans (deviceOf_iff.mpr there))

theorem Points.marked {iface : String} {text : List Char} (points : Points iface text) :
    mark <:+: text := by
  obtain ⟨before, between, after, rfl, -⟩ := points
  exact List.infix_append_of_infix_right (List.prefix_append mark _).isInfix

/-- The closing bracket of a device line comes off, and nothing of the device. -/
theorem trimEndMatches_device {device : String}
    (solid : ∀ c ∈ device.toList, c ≠ ')' ∧ isWhitespace c = false) :
    trim (trimEndMatches ')' (trim (.ofList ([] ++ ' ' :: (device.toList ++ ')' :: []))))) =
      device := by
  have blank : Blank [' '] := by simp [Blank, isWhitespace]
  have front : trim (.ofList ([] ++ ' ' :: (device.toList ++ ')' :: []))) =
      .ofList (device.toList ++ [')']) := by
    have bare := trim_of_no_whitespace (.ofList (device.toList ++ [')'])) (by
      intro c member
      rw [String.toList_ofList] at member
      rcases List.mem_append.mp member with member | last
      · exact (solid c member).2
      · rw [List.mem_singleton.mp last]
        rfl)
    rw [trim_eq, String.toList_ofList, List.nil_append, ← List.singleton_append,
      trimChars_blank_append blank, ← bare, trim_eq, String.toList_ofList]
  have last : device.toList.rdropWhile (· == ')') = device.toList := by
    rw [List.rdropWhile_eq_self_iff]
    intro nonempty
    simpa using (solid _ (List.getLast_mem nonempty)).1
  rw [front, trimEndMatches, String.toList_ofList, List.rdropWhile_concat_pos _ _ _ (by rfl), last,
    String.ofList_toList, trim_of_no_whitespace device fun c member => (solid c member).2]

theorem points_device {s : NetworkService} (port : ¬ mark <:+: s.port.toList)
    (device : ¬ mark <:+: s.device.toList)
    (solid : ∀ c ∈ s.device.toList, c ≠ ')' ∧ isWhitespace c = false) :
    Points s.device s.deviceLine := by
  have before : ¬ mark <:+: "(Hardware".toList ++ ' ' :: ("Port:".toList ++
      ' ' :: (s.port.toList ++ ',' :: ([] ++ ' ' :: []))) := by
    simp only [infix_around (by decide : ' ' ∉ mark), infix_around (by decide : ',' ∉ mark)]
    rintro (first | second | inside | third | last)
    · exact absurd first (by decide)
    · exact absurd second (by decide)
    · exact port inside
    · exact absurd third (by decide)
    · exact absurd last (by decide)
  have between : ¬ mark <:+: [] ++ ' ' :: (s.device.toList ++ ')' :: []) := by
    rw [infix_around (by decide), infix_around (by decide)]
    rintro (first | inside | last)
    · exact absurd first (by decide)
    · exact device inside
    · exact absurd last (by decide)
  refine ⟨_, _, [], ?_, before, between, .inl rfl, trimEndMatches_device solid⟩
  simp [NetworkService.deviceLine, mark_eq]

/-- In a plain listing a service points to its own device. -/
theorem Listing.Plain.points_iff {l : Listing} (plain : l.Plain) {s : NetworkService}
    (listed : s ∈ l.services) {iface : String} : s.Points iface ↔ s.device = iface := by
  have own := points_device (plain.port s listed) (plain.device s listed) (l.devices s listed)
  constructor
  · rintro (name | device)
    · exact absurd name.marked (plain.name s listed)
    · exact own.unique device
  · rintro rfl
    exact .inr own

theorem NetworkService.Tells.points {s : NetworkService} {iface name : String}
    (tells : s.Tells iface name) : s.Points iface := by
  rcases tells with ⟨name, -⟩ | ⟨-, device, -⟩
  · exact .inl name
  · exact .inr device

/-- A line for a device has nothing behind its first `)`, unless the port has one; and then it has
what is left of the port, with the mark. -/
theorem labels_deviceLine_ne {s : NetworkService} (named : s.name ≠ "")
    (plain : ¬ mark <:+: s.name.toList)
    (solid : ∀ c ∈ s.device.toList, c ≠ ')' ∧ isWhitespace c = false) :
    ¬ Labels s.name s.deviceLine := by
  rw [← serviceOf_deviceLine, serviceOf_trim (device_text s)]
  have device : ')' ∉ s.device.toList := fun member => (solid _ member).1 rfl
  by_cases bracket : ')' ∈ s.port.toList
  · obtain ⟨before, after, port, first⟩ := List.eq_append_cons_of_mem bracket
    have text : s!"(Hardware Port: {s.port}, Device: {s.device})".toList =
        ('(' :: ("Hardware Port: ".toList ++ before)) ++
          ')' :: (after ++ ", ".toList ++ (mark ++ (' ' :: s.device.toList ++ [')']))) := by
      rw [device_text, NetworkService.deviceLine, port]
      simp [mark_eq]
    rw [splitOnce_of_eq text (by simp [first])]
    intro same
    apply plain
    rw [← Option.some.inj same, toList_trim, infix_trimChars mark_solid, String.toList_ofList]
    exact List.infix_append_of_infix_right (List.prefix_append mark _).isInfix
  · have text : s!"(Hardware Port: {s.port}, Device: {s.device})".toList =
        ('(' :: ("Hardware Port: ".toList ++ s.port.toList ++ ", Device: ".toList ++
          s.device.toList)) ++ ')' :: [] := device_text s
    rw [splitOnce_of_eq text (by simp [bracket, device])]
    exact fun same => named (Option.some.inj same).symm

/-- The line that points to an interface is the one of its device, which does not have the name. -/
theorem Listing.Plain.not_tells {l : Listing} (plain : l.Plain) {s : NetworkService}
    (listed : s ∈ l.services) : ¬ l.Tells s.device s.name := by
  rintro (⟨points, -⟩ | ⟨-, split, -, tells⟩)
  · exact plain.header points.marked
  · rename_i earlier later t
    have member : t ∈ l.services := split ▸ List.mem_append_right _ (.head _)
    have same := (plain.points_iff member).mp tells.points
    obtain rfl := List.inj_on_of_nodup_map l.distinct member listed same
    rcases tells with ⟨name, -⟩ | ⟨-, -, labels⟩
    · exact plain.name t member name.marked
    · exact labels_deviceLine_ne (l.named t member) (plain.name t member) (l.devices t member) labels

/-- In a plain listing no interface that is listed is told. -/
theorem Listing.Plain.serves_iff {l : Listing} (plain : l.Plain) (iface : String) :
    l.Serves iface ↔ ∀ s ∈ l.services, s.device ≠ iface := by
  constructor
  · intro serves s listed same
    subst same
    exact plain.not_tells listed (serves.listed s listed rfl)
  · intro unlisted
    refine ⟨fun s listed same => absurd same (unlisted s listed), fun _ => .nowhere ?_ ?_⟩
    · exact fun points => plain.header points.marked
    · exact fun s listed points => unlisted s listed ((plain.points_iff listed).mp points)

/-- The function is right when the very line that points to the interface has the name of the
service, which the line before it was meant to have. In a plain listing that is so for the
interfaces alone that are not listed. -/
theorem primary_service_iff (l : Listing) {iface routed : String}
    (route : defaultInterface routed = some iface) (warning warning' : String) :
    (Correct l iface
        (detectPrimaryService (.ok ⟨true, routed, warning⟩) (.ok ⟨true, l.render, warning'⟩)) ↔
      l.Serves iface) ∧
    (l.Plain → (Correct l iface
        (detectPrimaryService (.ok ⟨true, routed, warning⟩) (.ok ⟨true, l.render, warning'⟩)) ↔
      ∀ s ∈ l.services, s.device ≠ iface)) := by
  refine ⟨correct_iff l route warning warning', fun plain => ?_⟩
  rw [correct_iff l route, plain.serves_iff]

/-- One service, as the command lists it. -/
def wifi : Listing where
  header := "An asterisk (*) denotes that a network service is disabled."
  services := [⟨"Wi-Fi", "Wi-Fi", "en0"⟩]
  headerLine := by decide +kernel
  named := by decide
  nameLine := by decide
  portLine := by decide
  devices := by
    have solid : "en0".toList.all (fun c => c != ')' && !isWhitespace c) = true := by decide
    simpa using solid
  distinct := by decide

theorem wifi_plain : wifi.Plain := ⟨by decide +kernel, by decide, by decide, by decide⟩

/-- A service whose name points to its interface. -/
def self : Listing where
  header := ""
  services := [⟨"Device: en0", "Wi-Fi", "en0"⟩]
  headerLine := by decide
  named := by decide
  nameLine := by decide
  portLine := by decide
  devices := by
    have solid : "en0".toList.all (fun c => c != ')' && !isWhitespace c) = true := by decide
    simpa using solid
  distinct := by decide

theorem self_serves : self.Serves "en0" := by
  refine ⟨fun s listed _ => ?_, fun unlisted => absurd rfl (unlisted _ (.head _))⟩
  obtain rfl := List.mem_singleton.mp listed
  exact .service (by decide) (List.nil_append _).symm (by simp) (.inl ⟨by decide, by decide⟩)

theorem primary_service_iff_wifi :
    Correct wifi "en1" (detectPrimaryService (.ok ⟨true, "interface: en1", ""⟩)
      (.ok ⟨true, wifi.render, ""⟩)) ∧
    Correct self "en0" (detectPrimaryService (.ok ⟨true, "interface: en0", ""⟩)
      (.ok ⟨true, self.render, ""⟩)) :=
  ⟨((primary_service_iff wifi (by decide) "" "").2 wifi_plain).mpr (by decide),
    (primary_service_iff self (by decide) "" "").1.mpr self_serves⟩

theorem wifi_found_unnamed :
    ¬ Correct wifi "en0" (detectPrimaryService (.ok ⟨true, "interface: en0", ""⟩)
        (.ok ⟨true, wifi.render, ""⟩)) := by
  rw [correct_iff wifi (by decide), wifi_plain.serves_iff]
  decide

variable [Externals]

/-- The service that carries the default route then keeps its own settings. -/
theorem apply_misses_service {l : Listing} (plain : l.Plain) {s : NetworkService}
    (listed : s ∈ l.services) {routed : String} (route : defaultInterface routed = some s.device)
    (warning warning' : String) {a : DnsAnswers}
    (detect : a.detect =
      detectPrimaryService (.ok ⟨true, routed, warning⟩) (.ok ⟨true, l.render, warning'⟩))
    (iface : String) (servers : List IpAddr) (search : List String) (before : System) :
    let s' := after (applyDns .macos a iface servers search) before
    s'.servers s.name = before.servers s.name ∧
      s'.searchDomains s.name = before.searchDomains s.name := by
  have missed : a.detect.toOption ≠ some s.name := by
    rw [detect, detectPrimaryService_eq l route]
    intro found
    apply plain.not_tells listed
    rw [← Listing.shown_some_iff]
    cases shown : l.shown s.device with
    | none => simp [shown, Except.toOption] at found
    | some name => simpa [shown, Except.toOption] using found
  have changes := (applyDns_changes .macos a iface servers search before).settings
  constructor
  · simpa [Setting.get, dnsChange, missed, Undo.applied] using changes (.servers s.name)
  · simpa [Setting.get, dnsChange, missed, Undo.applied] using changes (.search s.name)

end FerroWg.Tunnel.ServiceOrder
