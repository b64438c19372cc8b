import FerroWg.Core.Disk
import FerroWg.Core.WgQuickGrammar

/-!
# Export and import of the `wg-quick` format

`export_to_string` writes the segments that `load_from_str` reads, all but for the firewall mark.
-/

namespace FerroWg.Grammar

open Lib Lib.Text Lib.Sections

section

variable [Externals]

/-! ## What is written -/

/-- The values of each label, as entries. -/
def entriesOf (groups : List (String × List String)) : List Entry :=
  groups.flatMap fun (label, values) => values.map (label, ·)

/-- Zero is not written. -/
def number (n : Nat) : List String := if n = 0 then [] else [toString n]

def joined (tokens : List String) : List String :=
  if tokens = [] then [] else [", ".intercalate tokens]

def interfaceGroups (i : InterfaceConfig) : List (String × List String) := [
  ("PrivateKey", [i.privateKey.toBase64]),
  ("ListenPort", number i.listenPort.toNat),
  ("Address", i.addresses),
  ("DNS", joined (i.dns.map Externals.showIp ++ i.dnsSearch)),
  ("MTU", number i.mtu.toNat),
  ("PreUp", i.preUp),
  ("PostUp", i.postUp),
  ("PreDown", i.preDown),
  ("PostDown", i.postDown)]

def peerGroups (p : PeerConfig) : List (String × List String) := [
  ("PublicKey", [p.publicKey.toBase64]),
  ("PresharedKey", (p.presharedKey.map (·.toBase64)).toList),
  ("Endpoint", p.endpoint.toList),
  ("AllowedIPs", joined p.allowedIps),
  ("PersistentKeepalive", number p.persistentKeepalive.toNat)]

def lineOf (e : Entry) : String := s!"{e.1} = {e.2}"

def peerLines (p : PeerConfig) : List String :=
  ["", "[Peer]"] ++ (if p.name = "" then [] else [s!"# Name = {p.name}"]) ++
    (entriesOf (peerGroups p)).map lineOf

def exportLines (c : WgConfig) : List String :=
  ["[Interface]"] ++ (entriesOf (interfaceGroups c.interface)).map lineOf ++
    c.peers.flatMap peerLines

section

omit [Externals]

variable (label : String)

@[simp] theorem entriesOf_nil : entriesOf [] = [] := rfl

@[simp] theorem entriesOf_cons (values : List String) (groups : List (String × List String)) :
    entriesOf ((label, values) :: groups) = values.map (label, ·) ++ entriesOf groups := rfl

theorem lineOf_newline (v : String) : lineOf (label, v) ++ "\n" = s!"{label} = {v}\n" := rfl

theorem unlines_each (values : List String) :
    unlines ((values.map (label, ·)).map lineOf) =
      String.join (values.map fun v => s!"{label} = {v}\n") := by
  rw [unlines, List.map_map, List.map_map]
  congr

theorem unlines_number (n : Nat) :
    unlines (((number n).map (label, ·)).map lineOf) = numberLine label n := by
  by_cases zero : n = 0
  · simp [number, numberLine, zero]
  · rw [number, if_neg zero, numberLine, if_neg zero, List.map_singleton, List.map_singleton,
      unlines_cons, unlines_nil, String.append_empty, lineOf_newline]
    rfl

theorem unlines_joined (tokens : List String) :
    unlines (((joined tokens).map (label, ·)).map lineOf) =
      if tokens = [] then "" else label ++ " = " ++ ", ".intercalate tokens ++ "\n" := by
  by_cases none : tokens = []
  · simp [joined, none]
  · rw [joined, if_neg none, if_neg none, List.map_singleton, List.map_singleton, unlines_cons,
      unlines_nil, String.append_empty, lineOf_newline]
    rfl

theorem unlines_single (v : String) :
    unlines (([v].map (label, ·)).map lineOf) = label ++ " = " ++ v ++ "\n" := by
  rw [List.map_singleton, List.map_singleton, unlines_cons, unlines_nil, String.append_empty]
  rfl

theorem unlines_option (value : Option String) :
    unlines ((value.toList.map (label, ·)).map lineOf) =
      value.elim "" fun v => label ++ " = " ++ v ++ "\n" := by
  cases value with
  | none => rfl
  | some v => exact unlines_single label v

end

theorem unlines_peerLines (p : PeerConfig) : unlines (peerLines p) = exportPeer p := by
  have named : unlines (if p.name = "" then [] else [s!"# Name = {p.name}"]) =
      if p.name = "" then "" else s!"# Name = {p.name}\n" := by
    by_cases unnamed : p.name = "" <;> simp [unnamed, toString, String.append_assoc]
  have start : unlines ["", "[Peer]"] = "\n[Peer]\n" := by decide
  have publicKey : "PublicKey" ++ " = " = "PublicKey = " := by decide
  have preshared : "PresharedKey" ++ " = " = "PresharedKey = " := by decide
  have endpoint : "Endpoint" ++ " = " = "Endpoint = " := by decide
  have allowed : "AllowedIPs" ++ " = " = "AllowedIPs = " := by decide
  simp only [peerLines, peerGroups, entriesOf_cons, entriesOf_nil, List.append_nil,
    List.map_append, unlines_append, unlines_number, unlines_joined, unlines_single,
    unlines_option, named, start, publicKey, preshared, endpoint, allowed]
  rw [exportPeer]
  cases p.presharedKey <;> simp [toString, String.append_assoc]

/-- Every line that is written is ended. -/
theorem exportToString_eq (c : WgConfig) : exportToString c = unlines (exportLines c) := by
  have peers : unlines (c.peers.flatMap peerLines) = String.join (c.peers.map exportPeer) := by
    induction c.peers with
    | nil => simp
    | cons p rest ih => simp [unlines_peerLines, ih]
  have dns : (c.interface.dns.map Externals.showIp ++ c.interface.dnsSearch = []) =
      (c.interface.dns = [] ∧ c.interface.dnsSearch = []) := by
    simp
  have start : unlines ["[Interface]"] = "[Interface]\n" := by decide
  have key : "PrivateKey" ++ " = " = "PrivateKey = " := by decide
  have server : "DNS" ++ " = " = "DNS = " := by decide
  simp only [exportLines, interfaceGroups, entriesOf_cons, entriesOf_nil, List.append_nil,
    List.map_append, unlines_append, unlines_number, unlines_joined, unlines_single, dns, peers,
    start, key, server]
  unfold exportToString
  dsimp only
  simp only [unlines_each, String.append_assoc, toString]

/-! ## How it is read -/

section

omit [Externals]

/-- A word that no comment and no header begins with, and that ends before the `=`. -/
def isLabel (label : String) : Bool :=
  label.toList.all (fun c => !isWhitespace c && c != '=') &&
    label.toList.head?.any fun c => c != '#' && c != ';' && asciiLower c != '['

def readEntry (e : Entry) : Entry := (e.1, trim e.2)

theorem toList_lineOf (e : Entry) :
    (lineOf e).toList = (e.1.toList ++ [' ']) ++ '=' :: ' ' :: e.2.toList := by
  simp [lineOf, toString]

theorem eqIgnoreAsciiCase_head {a b : String} (same : eqIgnoreAsciiCase a b) :
    a.toList.head?.map asciiLower = b.toList.head?.map asciiLower := by
  rw [eqIgnoreAsciiCase, beq_iff_eq] at same
  have chars := congrArg String.toList same
  rw [toAsciiLowercase, toAsciiLowercase, String.toList_ofList, String.toList_ofList] at chars
  rw [← List.head?_map, chars, List.head?_map]

/-- The two sides of the first `=`. -/
theorem splitOnce_lineOf {e : Entry} (label : isLabel e.1) :
    (splitOnce '=' (trim (lineOf e))).map (Prod.map trim trim) = some (readEntry e) := by
  simp only [isLabel, Bool.and_eq_true, List.all_eq_true, Bool.not_eq_true', bne_iff_ne] at label
  have blank : Blank [' '] := by simp [Blank, isWhitespace]
  have first : '=' ∉ e.1.toList ++ [' '] := by
    simpa using fun member => (label.1 '=' member).2 rfl
  have bare := trim_of_no_whitespace e.1 fun c member => (label.1 c member).1
  rw [map_trim_splitOnce_trim (by decide), splitOnce_of_eq (toList_lineOf e) first, Option.map_some,
    Prod.map_apply, trim_eq, String.toList_ofList, trimChars_append_blank _ blank, ← trim_eq, bare,
    ← List.singleton_append, trim_eq, String.toList_ofList, trimChars_blank_append blank,
    ← trim_eq, readEntry]

theorem lineOf_read {e : Entry} (label : isLabel e.1) :
    isNoise (trim (lineOf e)) = false ∧ classify (trim (lineOf e)) = some (.entry (readEntry e)) := by
  have parts := splitOnce_lineOf label
  simp only [isLabel, Bool.and_eq_true, List.all_eq_true, Bool.not_eq_true', bne_iff_ne] at label
  cases word : e.1.toList with
  | nil => simp [word] at label
  | cons c rest =>
    have solid : isWhitespace c = false := (label.1 c (word ▸ .head _)).1
    have head : (trim (lineOf e)).toList.head? = some c :=
      head_trim solid ((toList_lineOf e).trans (by rw [word]; rfl))
    have other : c ≠ '#' ∧ c ≠ ';' ∧ asciiLower c ≠ '[' := by
      simpa [word, and_assoc] using label.2
    have noHeader {header : String} (bracket : header.toList.head?.map asciiLower = some '[') :
        eqIgnoreAsciiCase (trim (lineOf e)) header = false := by
      rw [← Bool.not_eq_true]
      intro same
      have heads := eqIgnoreAsciiCase_head same
      rw [head, bracket] at heads
      exact other.2.2 (Option.some.inj heads)
    have nonempty : trim (lineOf e) ≠ "" := fun empty => by simp [empty] at head
    constructor
    · simp [-toList_trim, isNoise, nonempty, startsWith, head, other]
    · rw [classify, noHeader (by decide), noHeader (by decide)]
      obtain ⟨⟨key, value⟩, split, read⟩ := Option.map_eq_some_iff.mp parts
      simp [split, ← read]

/-- The lines that count of a written text, as the grammar takes them. -/
def kinds (ls : List String) : List (Option (Item Section Entry)) :=
  ((ls.map trim).filter fun line => !isNoise line).map classify

theorem kinds_append (ls more : List String) : kinds (ls ++ more) = kinds ls ++ kinds more := by
  simp [kinds]

theorem kinds_cons (l : String) (ls : List String) : kinds (l :: ls) =
    (if isNoise (trim l) then [] else [classify (trim l)]) ++ kinds ls := by
  by_cases noise : isNoise (trim l) <;> simp [kinds, noise]

theorem kinds_entries {es : List Entry} (labels : ∀ e ∈ es, isLabel e.1) :
    kinds (es.map lineOf) = (es.map readEntry).map (some ∘ .entry) := by
  induction es with
  | nil => rfl
  | cons e rest ih =>
    obtain ⟨counts, kind⟩ := lineOf_read (labels e (.head _))
    rw [List.map_cons, kinds_cons, counts, kind, ih fun other member => labels other (.tail _ member)]
    rfl

theorem labels_entriesOf {groups : List (String × List String)}
    (labels : (groups.map Prod.fst).all isLabel) : ∀ e ∈ entriesOf groups, isLabel e.1 := by
  intro e member
  obtain ⟨group, listed, member⟩ := List.mem_flatMap.mp member
  obtain ⟨value, -, rfl⟩ := List.mem_map.mp member
  exact List.all_eq_true.mp labels group.1 (List.mem_map_of_mem listed)

end

theorem labels_interface (i : InterfaceConfig) :
    ∀ e ∈ entriesOf (interfaceGroups i), isLabel e.1 := by
  apply labels_entriesOf
  simp only [interfaceGroups, List.map_cons, List.map_nil]
  decide

theorem labels_peer (p : PeerConfig) : ∀ e ∈ entriesOf (peerGroups p), isLabel e.1 := by
  apply labels_entriesOf
  simp only [peerGroups, List.map_cons, List.map_nil]
  decide

def interfaceSegment (i : InterfaceConfig) : Segment Section Entry :=
  ⟨.interface, (entriesOf (interfaceGroups i)).map readEntry⟩

def peerSegment (p : PeerConfig) : Segment Section Entry :=
  ⟨.peer, (entriesOf (peerGroups p)).map readEntry⟩

def exported (c : WgConfig) : List (Segment Section Entry) :=
  interfaceSegment c.interface :: c.peers.map peerSegment

/-- The name of a peer is written in a comment. -/
theorem kinds_peerLines (p : PeerConfig) :
    kinds (peerLines p) = (peerSegment p).items.map some := by
  have name : kinds (if p.name = "" then [] else [s!"# Name = {p.name}"]) = [] := by
    by_cases unnamed : p.name = ""
    · simp [unnamed, kinds]
    · have text : s!"# Name = {p.name}".toList = '#' :: (" Name = ".toList ++ p.name.toList) := by
        simp [toString]
      have noise : isNoise (trim s!"# Name = {p.name}") := by
        simp [isNoise, startsWith_trim (by decide) text]
      rw [if_neg unnamed, kinds_cons, if_pos noise]
      rfl
  have start : kinds ["", "[Peer]"] = [some (.header .peer)] := by decide
  rw [peerLines, kinds_append, kinds_append, start, name, kinds_entries (labels_peer p)]
  simp [peerSegment, Segment.items]

theorem kinds_exportLines (c : WgConfig) :
    kinds (exportLines c) = ((exported c).flatMap Segment.items).map some := by
  have start : kinds ["[Interface]"] = [some (.header .interface)] := by decide
  have peers : kinds (c.peers.flatMap peerLines) =
      ((c.peers.map peerSegment).flatMap Segment.items).map some := by
    induction c.peers with
    | nil => rfl
    | cons p rest ih => simp [kinds_append, kinds_peerLines, ih]
  rw [exportLines, kinds_append, kinds_append, start, peers,
    kinds_entries (labels_interface c.interface)]
  simp [exported, interfaceSegment, Segment.items]

/-! ## What can be written -/

/-- A value that stands on a line as it is. -/
structure Clean (s : String) : Prop where
  trimmed : trim s = s
  whole : '\n' ∉ s.toList

/-- A value that also stands in a list. -/
structure Token (s : String) : Prop extends Clean s where
  noComma : ',' ∉ s.toList

/-- The encoding of a key can be decoded, and has no blanks. -/
structure KeyWritable (bytes : KeyBytes) : Prop where
  decoded : Externals.base64Decode (encodeKeyBytes bytes) = .ok bytes.toList
  solid : ∀ c ∈ (encodeKeyBytes bytes).toList, isWhitespace c = false

structure IpWritable (ip : IpAddr) : Prop where
  parsed : Externals.parseIp (Externals.showIp ip) = some ip
  nonempty : Externals.showIp ip ≠ ""
  token : Token (Externals.showIp ip)

structure InterfaceWritable (i : InterfaceConfig) : Prop where
  privateKey : KeyWritable i.privateKey.bytes
  addresses : ∀ a ∈ i.addresses, Token a
  dns : ∀ ip ∈ i.dns, IpWritable ip
  dnsSearch : ∀ d ∈ i.dnsSearch, Token d ∧ d ≠ "" ∧ Externals.parseIp d = none
  preUp : ∀ h ∈ i.preUp, Clean h
  postUp : ∀ h ∈ i.postUp, Clean h
  preDown : ∀ h ∈ i.preDown, Clean h
  postDown : ∀ h ∈ i.postDown, Clean h

structure PeerWritable (p : PeerConfig) : Prop where
  name : p.name = ""
  publicKey : KeyWritable p.publicKey.bytes
  presharedKey : ∀ k ∈ p.presharedKey, KeyWritable k.bytes
  endpoint : ∀ e ∈ p.endpoint, Clean e
  allowedIps : ∀ a ∈ p.allowedIps, Token a

structure Writable (c : WgConfig) : Prop where
  interface : InterfaceWritable c.interface
  peers : ∀ p ∈ c.peers, PeerWritable p

theorem KeyWritable.clean {bytes : KeyBytes} (key : KeyWritable bytes) :
    Clean (encodeKeyBytes bytes) where
  trimmed := trim_of_no_whitespace _ key.solid
  whole member := by simpa [isWhitespace] using key.solid _ member

theorem KeyWritable.decode {bytes : KeyBytes} (key : KeyWritable bytes) :
    decodeKeyBytes (encodeKeyBytes bytes) = .ok bytes := by
  have same : bytes.toList.toArray = bytes.toArray := Array.toArray_toList
  rw [decodeKeyBytes, key.clean.trimmed, key.decoded]
  simp [same]

omit [Externals] in
theorem clean_number (n : Nat) : ∀ v ∈ number n, Clean v := by
  intro v member
  by_cases zero : n = 0
  · simp [number, zero] at member
  · obtain rfl : v = toString n := by simpa [number, zero] using member
    refine ⟨trim_toString n, fun inside => ?_⟩
    exact absurd (isDigit_of_mem_toString inside) (by decide)

omit [Externals] in
theorem whole_joined {tokens : List String} (each : ∀ t ∈ tokens, Token t) :
    ∀ v ∈ joined tokens, '\n' ∉ v.toList := by
  have whole : '\n' ∉ (", ".intercalate tokens).toList := by
    induction tokens with
    | nil => simp
    | cons t rest ih =>
      by_cases last : rest = []
      · simpa [last] using (each t (.head _)).whole
      · rw [String.intercalate_cons_of_ne_nil last]
        simp [-String.toList_intercalate, (each t (.head _)).whole,
          ih fun other member => each other (.tail _ member)]
  intro v member
  by_cases none : tokens = []
  · simp [joined, none] at member
  · obtain rfl : v = ", ".intercalate tokens := by simpa [joined, none] using member
    exact whole

omit [Externals] in
theorem whole_lineOf {e : Entry} (label : isLabel e.1) (value : '\n' ∉ e.2.toList) :
    '\n' ∉ (lineOf e).toList := by
  have word : '\n' ∉ e.1.toList := by
    simp only [isLabel, Bool.and_eq_true, List.all_eq_true] at label
    intro member
    simpa [isWhitespace] using label.1 _ member
  rw [toList_lineOf]
  simp [word, value]

omit [Externals] in
theorem whole_entries {groups : List (String × List String)}
    (labels : ∀ e ∈ entriesOf groups, isLabel e.1)
    (values : ∀ g ∈ groups, ∀ v ∈ g.2, '\n' ∉ v.toList) :
    ∀ l ∈ (entriesOf groups).map lineOf, '\n' ∉ l.toList := by
  intro l member
  obtain ⟨e, listed, rfl⟩ := List.mem_map.mp member
  obtain ⟨g, group, inside⟩ := List.mem_flatMap.mp listed
  obtain ⟨v, value, rfl⟩ := List.mem_map.mp inside
  exact whole_lineOf (labels _ listed) (values g group v value)

theorem InterfaceWritable.tokens {i : InterfaceConfig} (writable : InterfaceWritable i) :
    ∀ t ∈ i.dns.map Externals.showIp ++ i.dnsSearch, Token t := by
  intro t member
  rcases List.mem_append.mp member with address | domain
  · obtain ⟨ip, listed, rfl⟩ := List.mem_map.mp address
    exact (writable.dns ip listed).token
  · exact (writable.dnsSearch t domain).1

theorem InterfaceWritable.whole {i : InterfaceConfig} (writable : InterfaceWritable i) :
    ∀ g ∈ interfaceGroups i, ∀ v ∈ g.2, '\n' ∉ v.toList := by
  simp only [interfaceGroups, List.forall_mem_cons, List.not_mem_nil, false_implies, implies_true,
    and_true]
  exact ⟨writable.privateKey.clean.whole, fun v member => (clean_number _ v member).whole,
    fun a member => (writable.addresses a member).whole, whole_joined writable.tokens,
    fun v member => (clean_number _ v member).whole, fun h member => (writable.preUp h member).whole,
    fun h member => (writable.postUp h member).whole,
    fun h member => (writable.preDown h member).whole,
    fun h member => (writable.postDown h member).whole⟩

theorem PeerWritable.whole {p : PeerConfig} (writable : PeerWritable p) :
    ∀ g ∈ peerGroups p, ∀ v ∈ g.2, '\n' ∉ v.toList := by
  simp only [peerGroups, List.forall_mem_cons, List.not_mem_nil, false_implies, implies_true,
    and_true, Option.mem_toList]
  refine ⟨writable.publicKey.clean.whole, ?_, fun e member => (writable.endpoint e member).whole,
    whole_joined writable.allowedIps, fun v member => (clean_number _ v member).whole⟩
  intro v member
  obtain ⟨k, given, rfl⟩ := Option.map_eq_some_iff.mp member
  exact (writable.presharedKey k given).clean.whole

/-- The lines of what can be written have no line feeds of their own. -/
theorem Writable.whole {c : WgConfig} (writable : Writable c) :
    ∀ l ∈ exportLines c, '\n' ∉ l.toList := by
  simp only [exportLines, List.forall_mem_append, List.forall_mem_singleton, List.mem_flatMap,
    forall_exists_index, and_imp]
  refine ⟨⟨by decide, whole_entries (labels_interface _) writable.interface.whole⟩, ?_⟩
  intro l p listed member
  have peer := writable.peers p listed
  rw [peerLines, if_pos peer.name, List.append_nil] at member
  rcases List.mem_append.mp member with start | member
  · rcases List.mem_pair.mp start with rfl | rfl <;> decide
  · exact whole_entries (labels_peer p) peer.whole l member

/-- Lines that make up segments are read as those. -/
theorem loadFromStr_unlines {ls : List String} {segs : List (Segment Section Entry)}
    (whole : ∀ l ∈ ls, '\n' ∉ l.toList)
    (kinds_ls : kinds ls = (segs.flatMap Segment.items).map some)
    (fits : ∀ seg ∈ segs, ∀ e ∈ seg.entries, takes seg.sect e) :
    loadFromStr (unlines ls) = assemble segs := by
  have read : (texts (unlines ls)).map classify = (segs.flatMap Segment.items).map some := by
    rw [texts_lines, map_trim_lines_unlines whole, ← kinds_ls]
    rfl
  have items : (texts (unlines ls)).filterMap classify = segs.flatMap Segment.items := by
    have mapped : (texts (unlines ls)).filterMap classify =
        ((texts (unlines ls)).map classify).filterMap id := by
      rw [List.filterMap_map]
      rfl
    rw [mapped, read, List.filterMap_map]
    exact List.filterMap_some
  have segments : segmentsOf (unlines ls) = segs := by
    rw [segmentsOf, filterMap_significant, items, segments_items]
  rw [loadFromStr_good, segments]
  rw [firstBadLine_eq_none_iff, segments, items, lead_items]
  refine ⟨fun line member => ?_, by simp, fits⟩
  obtain ⟨it, -, kind⟩ := List.mem_map.mp (read ▸ List.mem_map_of_mem member)
  rw [← kind]
  rfl

/-! ## The values come back -/

section

omit [Externals]

theorem lowered : toAsciiLowercase "PrivateKey" = "privatekey" ∧
    toAsciiLowercase "ListenPort" = "listenport" ∧ toAsciiLowercase "Address" = "address" ∧
    toAsciiLowercase "DNS" = "dns" ∧ toAsciiLowercase "MTU" = "mtu" ∧
    toAsciiLowercase "PreUp" = "preup" ∧ toAsciiLowercase "PostUp" = "postup" ∧
    toAsciiLowercase "PreDown" = "predown" ∧ toAsciiLowercase "PostDown" = "postdown" ∧
    toAsciiLowercase "PublicKey" = "publickey" ∧
    toAsciiLowercase "PresharedKey" = "presharedkey" ∧
    toAsciiLowercase "Endpoint" = "endpoint" ∧ toAsciiLowercase "AllowedIPs" = "allowedips" ∧
    toAsciiLowercase "PersistentKeepalive" = "persistentkeepalive" := by decide

theorem valuesOf_entriesOf (label : String) (groups : List (String × List String)) :
    valuesOf label ((entriesOf groups).map readEntry) =
      groups.flatMap fun g => if toAsciiLowercase g.1 = label then g.2.map trim else [] := by
  induction groups with
  | nil => rfl
  | cons g rest ih =>
    have here : valuesOf label ((g.2.map (g.1, ·)).map readEntry) =
        if toAsciiLowercase g.1 = label then g.2.map trim else [] := by
      by_cases named : toAsciiLowercase g.1 = label <;>
        simp [valuesOf, readEntry, named, Function.comp_def, List.filter_map]
    rw [List.flatMap_cons, ← ih, ← here]
    simp [entriesOf, valuesOf]

theorem map_trim_clean {values : List String} (clean : ∀ v ∈ values, Clean v) :
    values.map trim = values := by
  rw [List.map_congr_left fun v member => (clean v member).trimmed, List.map_id']

theorem split_token {v : String} (token : Token v) : (split ',' v).map trim = [v] := by
  have free : ∀ c ∈ v.toList, (c == ',') = false := fun c member =>
    beq_eq_false_iff_ne.mpr fun same => token.noComma (same ▸ member)
  rw [map_trim_split, List.splitOnP_eq_singleton free, List.map_singleton, List.map_singleton,
    ← trim_eq, token.trimmed]

theorem parts_tokens {values : List String} (tokens : ∀ v ∈ values, Token v) :
    (values.map trim).flatMap (fun v => (split ',' v).map trim) = values := by
  rw [map_trim_clean fun v member => (tokens v member).toClean]
  induction values with
  | nil => rfl
  | cons v rest ih =>
    rw [List.flatMap_cons, split_token (tokens v (.head _)),
      ih fun other member => tokens other (.tail _ member), List.singleton_append]

theorem glue_comma : Glue ',' ", " where
  solid := by decide
  shape := ⟨[], [' '], by simp [Blank], by simp [Blank, isWhitespace], by decide⟩

theorem parts_joined {tokens : List String} (each : ∀ t ∈ tokens, Token t) :
    ((joined tokens).map trim).flatMap (fun v => (split ',' v).map trim) = tokens := by
  by_cases none : tokens = []
  · simp [joined, none]
  · rw [joined, if_neg none, List.map_singleton, List.flatMap_singleton,
      map_trim_split_trim glue_comma.solid,
      map_trim_split_intercalate glue_comma none fun t member => (each t member).noComma,
      map_trim_clean fun t member => (each t member).toClean]

theorem parseU16_toString (n : UInt16) : parseU16 (trim (toString n.toNat)) = .ok n := by
  have fits : n.toNat ≤ 65535 := Nat.le_of_lt_succ n.toNat_lt
  rw [trim_toString, parseU16, parseUint_toString fits, Except.map, UInt16.ofNat_toNat]

/-- Zero is the default of a key that is not written. -/
theorem parseU16_number (n : UInt16) :
    (((number n.toNat).map trim).getLast?.bind fun v => (parseU16 v).toOption).getD 0 = n := by
  by_cases zero : n.toNat = 0
  · have same : n = 0 := UInt16.toNat_inj.mp zero
    simp [number, same]
  · rw [number, if_neg zero, List.map_singleton, List.getLast?_singleton, Option.bind_some,
      parseU16_toString]
    rfl

end

theorem KeyWritable.decode_trim {bytes : KeyBytes} (key : KeyWritable bytes) :
    decodeKeyBytes (trim (encodeKeyBytes bytes)) = .ok bytes := by
  rw [key.clean.trimmed, key.decode]

theorem KeyWritable.readPrivate {k : PrivateKey} (key : KeyWritable k.bytes) :
    PrivateKey.fromBase64 (trim k.toBase64) = .ok k := by
  rw [PrivateKey.fromBase64, PrivateKey.toBase64, key.decode_trim, Except.map]

theorem KeyWritable.readPublic {k : PublicKey} (key : KeyWritable k.bytes) :
    PublicKey.fromBase64 (trim k.toBase64) = .ok k := by
  rw [PublicKey.fromBase64, PublicKey.toBase64, key.decode_trim, Except.map]

theorem KeyWritable.readPreshared {k : PresharedKey} (key : KeyWritable k.bytes) :
    PresharedKey.fromBase64 (trim k.toBase64) = .ok k := by
  rw [PresharedKey.fromBase64, PresharedKey.toBase64, key.decode_trim, Except.map]

theorem InterfaceWritable.filterMap_parseIp {i : InterfaceConfig} (writable : InterfaceWritable i) :
    (i.dns.map Externals.showIp ++ i.dnsSearch).filterMap Externals.parseIp = i.dns := by
  have addresses : (i.dns.map Externals.showIp).filterMap Externals.parseIp = i.dns := by
    rw [List.filterMap_map, List.filterMap_congr (f := Externals.parseIp ∘ Externals.showIp)
      fun ip member => (writable.dns ip member).parsed, List.filterMap_some]
  have domains : i.dnsSearch.filterMap Externals.parseIp = [] :=
    List.filterMap_eq_nil_iff.mpr fun d member => (writable.dnsSearch d member).2.2
  rw [List.filterMap_append, addresses, domains, List.append_nil]

theorem InterfaceWritable.filter_parseIp {i : InterfaceConfig} (writable : InterfaceWritable i) :
    (i.dns.map Externals.showIp ++ i.dnsSearch).filter (fun t => Externals.parseIp t = none) =
      i.dnsSearch := by
  have addresses : (i.dns.map Externals.showIp).filter (fun t => Externals.parseIp t = none) = [] := by
    simpa [List.filter_eq_nil_iff] using fun ip member => by simp [(writable.dns ip member).parsed]
  have domains : i.dnsSearch.filter (fun t => Externals.parseIp t = none) = i.dnsSearch :=
    List.filter_eq_self.mpr fun d member => decide_eq_true (writable.dnsSearch d member).2.2
  rw [List.filter_append, addresses, domains, List.nil_append]

theorem InterfaceWritable.filter_nonempty {i : InterfaceConfig} (writable : InterfaceWritable i) :
    (i.dns.map Externals.showIp ++ i.dnsSearch).filter (· ≠ "") =
      i.dns.map Externals.showIp ++ i.dnsSearch := by
  refine List.filter_eq_self.mpr fun t member => decide_eq_true ?_
  rcases List.mem_append.mp member with address | domain
  · obtain ⟨ip, listed, rfl⟩ := List.mem_map.mp address
    exact (writable.dns ip listed).nonempty
  · exact (writable.dnsSearch t domain).2.1

theorem interfaceOf_exported {i : InterfaceConfig} (writable : InterfaceWritable i) :
    interfaceOf (interfaceSegment i).entries = {
      privateKey := some i.privateKey, listenPort := i.listenPort, addresses := i.addresses
      dns := i.dns, dnsSearch := i.dnsSearch, mtu := i.mtu, fwmark := 0, preUp := i.preUp
      postUp := i.postUp, preDown := i.preDown, postDown := i.postDown } := by
  simp only [interfaceOf, lastOf, partsOf, interfaceSegment, valuesOf_entriesOf, interfaceGroups,
    List.flatMap_cons, List.flatMap_nil, lowered, String.reduceEq, ↓reduceIte, List.nil_append,
    List.append_nil, parseU16_number, parts_tokens writable.addresses, parts_joined writable.tokens,
    writable.filter_nonempty, writable.filterMap_parseIp, writable.filter_parseIp,
    map_trim_clean writable.preUp, map_trim_clean writable.postUp, map_trim_clean writable.preDown,
    map_trim_clean writable.postDown, List.map_cons, List.map_nil, List.getLast?_singleton,
    Option.bind_some, writable.privateKey.readPrivate]
  rfl

theorem peerOf_exported {p : PeerConfig} (writable : PeerWritable p) :
    peerOf (peerSegment p).entries = {
      publicKey := some p.publicKey, presharedKey := p.presharedKey, endpoint := p.endpoint
      allowedIps := p.allowedIps, persistentKeepalive := p.persistentKeepalive } := by
  have preshared : ((p.presharedKey.map (·.toBase64)).toList.map trim).getLast?.bind
      (fun v => (PresharedKey.fromBase64 v).toOption) = p.presharedKey := by
    cases given : p.presharedKey with
    | none => rfl
    | some k =>
      have decoded := (writable.presharedKey k given).readPreshared
      simp [decoded, Except.toOption]
  have endpoint : (p.endpoint.toList.map trim).getLast? = p.endpoint := by
    cases given : p.endpoint with
    | none => rfl
    | some e => simp [(writable.endpoint e given).trimmed]
  simp only [peerOf, lastOf, partsOf, peerSegment, valuesOf_entriesOf, peerGroups,
    List.flatMap_cons, List.flatMap_nil, lowered, String.reduceEq, ↓reduceIte, List.nil_append,
    List.append_nil, parseU16_number, preshared, endpoint, parts_joined writable.allowedIps,
    List.map_cons, List.map_nil, List.getLast?_singleton, Option.bind_some,
    writable.publicKey.readPublic]
  rfl

theorem takes_entriesOf {sect : Section} {groups : List (String × List String)}
    (fits : ∀ g ∈ groups, ∀ v ∈ g.2, takes sect (g.1, trim v)) :
    ∀ e ∈ (entriesOf groups).map readEntry, takes sect e := by
  intro e member
  obtain ⟨raw, written, rfl⟩ := List.mem_map.mp member
  obtain ⟨g, listed, inside⟩ := List.mem_flatMap.mp written
  obtain ⟨v, value, rfl⟩ := List.mem_map.mp inside
  exact fits g listed v value

omit [Externals] in
theorem isOk_number (n : UInt16) : ∀ v ∈ number n.toNat, (parseU16 (trim v)).isOk := by
  intro v member
  by_cases zero : n.toNat = 0
  · simp [number, zero] at member
  · obtain rfl : v = toString n.toNat := by simpa [number, zero] using member
    rw [parseU16_toString]
    rfl

theorem takes_interface {i : InterfaceConfig} (writable : InterfaceWritable i) :
    ∀ e ∈ (interfaceSegment i).entries, takes .interface e := by
  have key : (PrivateKey.fromBase64 (trim i.privateKey.toBase64)).isOk := by
    rw [writable.privateKey.readPrivate]
    rfl
  apply takes_entriesOf
  simp only [interfaceGroups, takes, keys, lowered, List.forall_mem_cons, List.any_cons,
    List.any_nil, String.reduceBEq, Bool.false_and, Bool.true_and, Bool.false_or, Bool.or_false,
    List.not_mem_nil, false_implies, implies_true, and_true, true_and]
  exact ⟨key, isOk_number _, isOk_number _⟩

theorem takes_peer {p : PeerConfig} (writable : PeerWritable p) :
    ∀ e ∈ (peerSegment p).entries, takes .peer e := by
  have key : (PublicKey.fromBase64 (trim p.publicKey.toBase64)).isOk := by
    rw [writable.publicKey.readPublic]
    rfl
  apply takes_entriesOf
  simp only [peerGroups, takes, keys, lowered, List.forall_mem_cons, List.any_cons,
    List.any_nil, String.reduceBEq, Bool.false_and, Bool.true_and, Bool.false_or, Bool.or_false,
    List.not_mem_nil, false_implies, implies_true, and_true, true_and, Option.mem_toList]
  refine ⟨key, fun v member => ?_, isOk_number _⟩
  obtain ⟨k, given, rfl⟩ := Option.map_eq_some_iff.mp member
  rw [(writable.presharedKey k given).readPreshared]
  rfl

/-- Export is read back as it was, but for the firewall mark. -/
theorem load_export {c : WgConfig} (writable : Writable c) (valid : c.validate = .ok ()) :
    loadFromStr (exportToString c) =
      .ok { c with interface := { c.interface with fwmark := 0 } } := by
  have fits : ∀ seg ∈ exported c, ∀ e ∈ seg.entries, takes seg.sect e := by
    intro seg listed
    rcases List.mem_cons.mp listed with rfl | later
    · exact takes_interface writable.interface
    · obtain ⟨p, peer, rfl⟩ := List.mem_map.mp later
      exact takes_peer (writable.peers p peer)
  have interface : interfaceEntries (exported c) = (interfaceSegment c.interface).entries := by
    simp [interfaceEntries, exported, interfaceSegment, peerSegment, List.filter_map,
      Function.comp_def]
  have peers : ((peerEntries (exported c)).map peerOf).mapM PeerBuilder.build = .ok c.peers := by
    have entries : peerEntries (exported c) = c.peers.map fun p => (peerSegment p).entries := by
      simp [peerEntries, exported, interfaceSegment, peerSegment, List.filter_map,
        Function.comp_def]
    rw [mapM_eq_ok, entries, List.map_map, List.forall₂_map_left_iff, List.forall₂_same]
    intro p listed
    have writable := writable.peers p listed
    rw [Function.comp_apply, peerOf_exported writable, PeerBuilder.build, ← writable.name]
  rw [exportToString_eq, loadFromStr_unlines writable.whole (kinds_exportLines c) fits, assemble,
    interface, peers, interfaceOf_exported writable.interface]
  simp only [InterfaceBuilder.build, bind, Except.bind]
  have same : WgConfig.validate { c with interface := { c.interface with fwmark := 0 } } = .ok () :=
    valid
  rw [same]
  rfl

/-! ## What was read can be written -/

/-- A text that decodes has a canonical form, which decodes to the same. -/
def Base64RoundTrip : Prop := ∀ s bytes, Externals.base64Decode s = .ok bytes →
  Externals.base64Decode (Externals.base64Encode bytes) = .ok bytes

/-- An address that was parsed is printed so that it parses to the same. -/
def IpRoundTrip : Prop := ∀ s ip, Externals.parseIp s = some ip →
  Externals.parseIp (Externals.showIp ip) = some ip

/-- Hexadecimal digits, `.` and `:`, by code point. -/
def isIpChar (c : Char) : Bool :=
  let n := c.toNat
  (48 ≤ n && n ≤ 57) || (97 ≤ n && n ≤ 102) || (65 ≤ n && n ≤ 70) || n == 46 || n == 58

/-- The parser takes no empty text, and no character that is not of an address. -/
def IpAlphabet : Prop := ∀ s ip, Externals.parseIp s = some ip →
  s ≠ "" ∧ ∀ c ∈ s.toList, isIpChar c = true

section

omit [Externals]

variable {label : String} {entries : List Entry}

theorem mem_valuesOf {v : String} (member : v ∈ valuesOf label entries) :
    ∃ e ∈ entries, e.2 = v := by
  obtain ⟨e, listed, rfl⟩ := List.mem_map.mp member
  exact ⟨e, List.mem_of_mem_filter listed, rfl⟩

theorem clean_valuesOf (clean : ∀ e ∈ entries, Clean e.2) :
    ∀ v ∈ valuesOf label entries, Clean v := by
  intro v member
  obtain ⟨e, listed, rfl⟩ := mem_valuesOf member
  exact clean e listed

theorem token_partsOf (clean : ∀ e ∈ entries, Clean e.2) :
    ∀ t ∈ partsOf label entries, Token t := by
  intro t member
  obtain ⟨v, value, inside⟩ := List.mem_flatMap.mp member
  obtain ⟨part, split, rfl⟩ := List.mem_map.mp inside
  obtain ⟨noComma, from_⟩ := split_part split
  exact {
    trimmed := trim_trim part
    whole := fun feed => (clean_valuesOf clean v value).whole (from_ _ (mem_of_mem_trim feed))
    noComma := fun comma => noComma (mem_of_mem_trim comma) }

theorem parsed_of_lastOf {ε N : Type} {parse : String → Except ε N} {n : N}
    (last : lastOf parse label entries = some n) : ∃ v, parse v = .ok n := by
  obtain ⟨v, -, parsed⟩ := Option.bind_eq_some_iff.mp last
  cases result : parse v with
  | error e => simp [result, Except.toOption] at parsed
  | ok n' =>
    obtain rfl : n' = n := by simpa [result, Except.toOption] using parsed
    exact ⟨v, result⟩

theorem clean_classify {s line : String} {e : Entry} (counts : line ∈ texts s)
    (kind : classify line = some (.entry e)) : Clean e.2 := by
  rw [texts_split] at counts
  obtain ⟨raw, split, rfl⟩ := List.mem_map.mp (List.mem_of_mem_filter counts)
  rw [classify] at kind
  split_ifs at kind
  · cases kind
  · cases kind
  · obtain ⟨⟨key, value⟩, parts, whole⟩ := Option.map_eq_some_iff.mp kind
    cases whole
    refine ⟨trim_trim value, fun feed => (split_part split).1 ?_⟩
    exact mem_of_mem_trim (mem_of_splitOnce parts _ (mem_of_mem_trim feed))

/-- Every value of a text was cut out of one of its lines. -/
theorem clean_segments {s : String} {seg : Segment Section Entry} (listed : seg ∈ segmentsOf s) :
    ∀ e ∈ seg.entries, Clean e.2 := by
  intro e member
  rw [segmentsOf, filterMap_significant] at listed
  obtain ⟨line, counts, kind⟩ := List.mem_filterMap.mp (entry_mem_of_segments listed member)
  exact clean_classify counts kind

theorem clean_interfaceEntries (s : String) :
    ∀ e ∈ interfaceEntries (segmentsOf s), Clean e.2 := by
  intro e member
  obtain ⟨seg, listed, inside⟩ := List.mem_flatMap.mp member
  exact clean_segments (List.mem_of_mem_filter listed) e inside

theorem clean_peerEntries (s : String) :
    ∀ entries ∈ peerEntries (segmentsOf s), ∀ e ∈ entries, Clean e.2 := by
  intro entries member
  obtain ⟨seg, listed, rfl⟩ := List.mem_map.mp member
  exact clean_segments (List.mem_of_mem_filter listed)

end

/-- What is built of the segments, builder by builder. -/
theorem built_of_loaded {s : String} {c : WgConfig} (loaded : loadFromStr s = .ok c) :
    (interfaceOf (interfaceEntries (segmentsOf s))).build = .ok c.interface ∧
      List.Forall₂ (fun entries p => (peerOf entries).build = .ok p) (peerEntries (segmentsOf s))
        c.peers := by
  have built := (loadFromStr_eq_ok_iff.mp loaded).2
  rw [assemble] at built
  obtain ⟨interface, first, built⟩ := bind_eq_ok.mp built
  obtain ⟨peers, second, built⟩ := bind_eq_ok.mp built
  obtain ⟨-, whole⟩ := then_eq_ok.mp built
  cases whole
  rw [mapM_eq_ok, List.forall₂_map_left_iff] at second
  exact ⟨first, second⟩

theorem keyWritable_of_decoded (base64 : Base64RoundTrip) (alphabet : Base64Alphabet) {v : String}
    {bytes : KeyBytes} (decoded : decodeKeyBytes v = .ok bytes) : KeyWritable bytes := by
  have text : Externals.base64Decode (trim v) = .ok bytes.toList := by
    rw [decodeKeyBytes] at decoded
    split at decoded
    · cases decoded
    · next list accepted =>
      split at decoded
      · cases decoded
        simpa [Vector.toList] using accepted
      · cases decoded
  have again := base64 _ _ text
  exact ⟨again, fun c member => isWhitespace_of_isBase64Char (alphabet _ _ again c member)⟩

omit [Externals] in
theorem isIpChar_plain {c : Char} (good : isIpChar c = true) :
    isWhitespace c = false ∧ c ≠ ',' := by
  simp only [isIpChar, Bool.or_eq_true, Bool.and_eq_true, decide_eq_true_eq, beq_iff_eq] at good
  constructor
  · simp only [isWhitespace, Bool.or_eq_false_iff, Bool.and_eq_false_iff, decide_eq_false_iff_not,
      beq_eq_false_iff_ne, ne_eq]
    omega
  · rintro rfl
    simp at good

theorem ipWritable_of_parsed (ip : IpRoundTrip) (ipText : IpAlphabet) {v : String} {a : IpAddr}
    (parsed : Externals.parseIp v = some a) : IpWritable a := by
  have again := ip v a parsed
  obtain ⟨nonempty, chars⟩ := ipText _ _ again
  have plain := fun c member => isIpChar_plain (chars c member)
  refine ⟨again, nonempty, ?_⟩
  exact {
    trimmed := trim_of_no_whitespace _ fun c member => (plain c member).1
    whole := fun member => by simpa [isWhitespace] using (plain _ member).1
    noComma := fun member => (plain _ member).2 rfl }

omit [Externals] in
/-- A key is its bytes. -/
theorem map_eq_ok {ε K : Type} {make : KeyBytes → K} {bytesOf : K → KeyBytes}
    {x : Except ε KeyBytes} {k : K} (inverse : ∀ b, bytesOf (make b) = b)
    (made : x.map make = .ok k) : x = .ok (bytesOf k) := by
  cases x with
  | error e => cases made
  | ok bytes =>
    cases made
    rw [inverse]

/-- Every kind of key is parsed as bytes. -/
theorem keyWritable_of_lastOf (base64 : Base64RoundTrip) (alphabet : Base64Alphabet) {K : Type}
    {make : KeyBytes → K} {bytesOf : K → KeyBytes} {parse : String → Except KeyError K}
    (decodes : ∀ v, parse v = (decodeKeyBytes v).map make) (inverse : ∀ b, bytesOf (make b) = b)
    {label : String} {entries : List Entry} {key : K}
    (given : lastOf parse label entries = some key) : KeyWritable (bytesOf key) := by
  obtain ⟨v, parsed⟩ := parsed_of_lastOf given
  rw [decodes] at parsed
  exact keyWritable_of_decoded base64 alphabet (map_eq_ok inverse parsed)

theorem interfaceWritable_of_built (base64 : Base64RoundTrip) (alphabet : Base64Alphabet)
    (ip : IpRoundTrip) (ipText : IpAlphabet) {entries : List Entry}
    (clean : ∀ e ∈ entries, Clean e.2) {i : InterfaceConfig}
    (built : (interfaceOf entries).build = .ok i) : InterfaceWritable i := by
  rw [InterfaceBuilder.build] at built
  split at built
  · cases built
  · next key given =>
    cases built
    have writable : KeyWritable key.bytes :=
      keyWritable_of_lastOf base64 alphabet (fun _ => rfl) (fun _ => rfl) given
    refine ⟨writable, token_partsOf clean, fun a member => ?_, fun d member => ?_,
      clean_valuesOf clean, clean_valuesOf clean, clean_valuesOf clean, clean_valuesOf clean⟩
    · obtain ⟨token, -, parsed⟩ := List.mem_filterMap.mp member
      exact ipWritable_of_parsed ip ipText parsed
    · obtain ⟨listed, domain⟩ := List.mem_filter.mp member
      obtain ⟨part, nonempty⟩ := List.mem_filter.mp listed
      exact ⟨token_partsOf clean d part, by simpa using nonempty, by simpa using domain⟩

theorem peerWritable_of_built (base64 : Base64RoundTrip) (alphabet : Base64Alphabet)
    {entries : List Entry} (clean : ∀ e ∈ entries, Clean e.2) {p : PeerConfig}
    (built : (peerOf entries).build = .ok p) : PeerWritable p := by
  rw [PeerBuilder.build] at built
  split at built
  · cases built
  · next key given =>
    cases built
    have writable : KeyWritable key.bytes :=
      keyWritable_of_lastOf base64 alphabet (fun _ => rfl) (fun _ => rfl) given
    refine ⟨rfl, writable, fun k given => ?_, fun e given => ?_, token_partsOf clean⟩
    · exact keyWritable_of_lastOf base64 alphabet (fun _ => rfl) (fun _ => rfl) given
    · exact clean_valuesOf clean e (List.mem_of_getLast? given)

theorem writable_of_loaded (base64 : Base64RoundTrip) (alphabet : Base64Alphabet)
    (ip : IpRoundTrip) (ipText : IpAlphabet) {s : String} {c : WgConfig}
    (loaded : loadFromStr s = .ok c) : Writable c := by
  obtain ⟨interface, peers⟩ := built_of_loaded loaded
  refine ⟨interfaceWritable_of_built base64 alphabet ip ipText (clean_interfaceEntries s) interface,
    fun p listed => ?_⟩
  have clean := clean_peerEntries s
  generalize peerEntries (segmentsOf s) = groups, c.peers = built at peers clean listed
  induction peers with
  | nil => cases listed
  | cons first _ ih =>
    rcases List.mem_cons.mp listed with rfl | later
    · exact peerWritable_of_built base64 alphabet (clean _ (.head _)) first
    · exact ih (fun entries member => clean entries (.tail _ member)) later

theorem fwmark_of_loaded {s : String} {c : WgConfig} (loaded : loadFromStr s = .ok c) :
    c.interface.fwmark = (lastOf parseU32 "fwmark" (interfaceEntries (segmentsOf s))).getD 0 := by
  have built := (built_of_loaded loaded).1
  generalize interfaceEntries (segmentsOf s) = entries at built ⊢
  rw [InterfaceBuilder.build] at built
  split at built
  · cases built
  · have same := congrArg InterfaceConfig.fwmark (Except.ok.inj built)
    exact same.symm

/-- Export undoes import when no firewall mark is set. -/
theorem export_undoes_load_iff (base64 : Base64RoundTrip) (alphabet : Base64Alphabet)
    (ip : IpRoundTrip) (ipText : IpAlphabet) {s : String} {c : WgConfig}
    (loaded : loadFromStr s = .ok c) :
    loadFromStr (exportToString c) = .ok c ↔
      (lastOf parseU32 "fwmark" (interfaceEntries (segmentsOf s))).getD 0 = 0 := by
  rw [load_export (writable_of_loaded base64 alphabet ip ipText loaded) (loadFromStr_ok loaded).1,
    ← fwmark_of_loaded loaded]
  constructor
  · intro same
    have interface := congrArg (·.interface.fwmark) (Except.ok.inj same)
    exact interface.symm
  · intro zero
    rw [← zero]

end

namespace ExportSample

def zeroKey : String := "AAAAAAAAAAAAAAAAAAAAAAAAAAAAAAAAAAAAAAAAAAA="

def resolver : IpAddr := .v4 0xC0000235

/-- One key, and one address. -/
@[reducible] def externals : Externals :=
  { Externals.tabulated [(zeroKey, List.replicate 32 0)] [] [] with
    parseIp := fun s => if s = "192.0.2.53" then some resolver else none
    showIp := fun ip => if ip = resolver then "192.0.2.53" else "::" }

def interfaceText : List Entry :=
  [("PrivateKey", zeroKey), ("DNS", "corp, 192.0.2.53"), ("FwMark", "1")]

def peerText : List Entry := [("PublicKey", zeroKey), ("AllowedIPs", "10.0.0.2/32")]

/-- `[Interface]` and `[Peer]`, each with its pairs as `Key = Value`. -/
def inputLines : List String :=
  ["[Interface]"] ++ interfaceText.map lineOf ++ (["[Peer]"] ++ peerText.map lineOf)

def input : String := unlines inputLines

def inputSegments : List (Segment Section Entry) :=
  [⟨.interface, interfaceText.map readEntry⟩, ⟨.peer, peerText.map readEntry⟩]

def config (fwmark : UInt32) : WgConfig :=
  let bytes : KeyBytes := Vector.replicate 32 0
  { interface := ⟨⟨bytes⟩, 0, [], [resolver], ["corp"], 0, fwmark, [], [], [], []⟩
    peers := [⟨"", ⟨bytes⟩, none, none, ["10.0.0.2/32"], 0⟩] }

theorem kinds_inputLines : kinds inputLines = (inputSegments.flatMap Segment.items).map some := by
  have interface : kinds ["[Interface]"] = [some (.header .interface)] := by decide
  have peer : kinds ["[Peer]"] = [some (.header .peer)] := by decide
  rw [inputLines, kinds_append, kinds_append, kinds_append, interface, peer,
    kinds_entries (by decide), kinds_entries (by decide)]
  rfl

theorem loaded_input : @loadFromStr externals input = .ok (config 1) := by
  have whole : inputLines.all (fun l => l.toList.all (· != '\n')) = true := by decide +kernel
  have fits : inputSegments.all (fun seg => seg.entries.all fun e =>
      @takes externals seg.sect e) = true := by
    decide +kernel
  have built : @assemble externals inputSegments = .ok (config 1) := by decide +kernel
  rw [input, @loadFromStr_unlines externals _ _ _ kinds_inputLines, built]
  · intro seg listed e member
    exact List.all_eq_true.mp (List.all_eq_true.mp fits seg listed) e member
  · intro l listed member
    simpa using List.all_eq_true.mp (List.all_eq_true.mp whole l listed) _ member

theorem decoded {s : String} {bytes : List UInt8} (text : externals.base64Decode s = .ok bytes) :
    s = zeroKey ∧ bytes = List.replicate 32 0 := by
  have found := @tabulated_decoded _ [] [] _ _ text
  by_cases same : s = zeroKey
  · rw [same, List.lookup_cons_self] at found
    exact ⟨same, (Option.some.inj found).symm⟩
  · rw [List.lookup_cons, beq_false_of_ne same] at found
    cases found

theorem base64 : @Base64RoundTrip externals := by
  intro s bytes text
  rw [(decoded text).2]
  decide +kernel

theorem alphabet : @Base64Alphabet externals := by
  intro s bytes text
  rw [(decoded text).1]
  exact List.all_eq_true.mp (by decide +kernel : zeroKey.toList.all isBase64Char = true)

theorem parsed {s : String} {a : IpAddr} (text : externals.parseIp s = some a) :
    s = "192.0.2.53" ∧ a = resolver := by
  change (if s = "192.0.2.53" then some resolver else none) = some a at text
  split_ifs at text with same
  exact ⟨same, (Option.some.inj text).symm⟩

theorem ip : @IpRoundTrip externals := by
  intro s a text
  rw [(parsed text).2]
  decide +kernel

theorem ipText : @IpAlphabet externals := by
  intro s a text
  rw [(parsed text).1]
  exact ⟨by decide, List.all_eq_true.mp (by decide +kernel : "192.0.2.53".toList.all isIpChar = true)⟩

theorem reloaded_input :
    @loadFromStr externals (@exportToString externals (config 1)) = .ok (config 0) :=
  @load_export externals _ (@writable_of_loaded externals base64 alphabet ip ipText _ _ loaded_input)
    (@loadFromStr_ok externals _ _ loaded_input).1

end ExportSample

open ExportSample in
/-- An exported file has no mark, and is exported as it was. -/
theorem export_undoes_load_again :
    @loadFromStr externals (@exportToString externals (config 0)) = .ok (config 0) ↔
      (lastOf parseU32 "fwmark" (interfaceEntries
        (segmentsOf (@exportToString externals (config 1))))).getD 0 = 0 :=
  @export_undoes_load_iff externals base64 alphabet ip ipText _ _ reloaded_input

open ExportSample in
/-- The writer has no line for the mark. -/
theorem export_drops_fwmark :
    @loadFromStr externals input = .ok (config 1) ∧
      @loadFromStr externals (@exportToString externals (config 1)) ≠ .ok (config 1) := by
  refine ⟨loaded_input, ?_⟩
  rw [reloaded_input]
  decide

end FerroWg.Grammar
