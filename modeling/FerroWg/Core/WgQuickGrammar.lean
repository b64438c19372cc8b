import FerroWg.Core.WgQuick
import FerroWg.Lib.Lines
import FerroWg.Lib.Sections

/-!
# The grammar of the `wg-quick` format

What the loop of `wg_quick.rs` is for: the lines that count form segments under their headers, the
segments of a kind are read as a whole, and the first line out of place is reported.
-/

namespace FerroWg.Grammar

open Lib Lib.Text Lib.Sections

abbrev Entry := String × String

def isNoise (line : String) : Bool := line == "" || startsWith '#' line || startsWith ';' line

/-- The lines that count, trimmed and with their numbers. -/
def significant (input : String) : List (Nat × String) :=
  ((lines input).zipIdx.map fun (raw, i) => (i + 1, trim raw)).filter fun (_, line) => !isNoise line

def classify (line : String) : Option (Item Section Entry) :=
  if eqIgnoreAsciiCase line "[interface]" then some (.header .interface)
  else if eqIgnoreAsciiCase line "[peer]" then some (.header .peer)
  else (splitOnce '=' line).map fun (key, value) => .entry (trim key, trim value)

section

variable [Externals]

/-- The keys of a section, in lower case, and the values that each takes. -/
def keys : Section → List (String × (String → Bool))
  | .none => []
  | .interface => [
      ("privatekey", fun v => (PrivateKey.fromBase64 v).isOk),
      ("listenport", fun v => (parseU16 v).isOk),
      ("address", fun _ => true),
      ("dns", fun _ => true),
      ("mtu", fun v => (parseU16 v).isOk),
      ("fwmark", fun v => (parseU32 v).isOk),
      ("preup", fun _ => true),
      ("postup", fun _ => true),
      ("predown", fun _ => true),
      ("postdown", fun _ => true)]
  | .peer => [
      ("publickey", fun v => (PublicKey.fromBase64 v).isOk),
      ("presharedkey", fun v => (PresharedKey.fromBase64 v).isOk),
      ("endpoint", fun _ => true),
      ("allowedips", fun _ => true),
      ("persistentkeepalive", fun v => (parseU16 v).isOk)]

def takes (sect : Section) (e : Entry) : Bool :=
  (keys sect).any fun (label, check) => toAsciiLowercase e.1 == label && check e.2

end

/-- The values given for a key, in order. -/
def valuesOf (label : String) (entries : List Entry) : List String :=
  (entries.filter fun e => toAsciiLowercase e.1 = label).map (·.2)

/-- A scalar key has its last value. -/
def lastOf {ε N : Type} (parse : String → Except ε N) (label : String) (entries : List Entry) :
    Option N :=
  (valuesOf label entries).getLast?.bind fun v => (parse v).toOption

/-- A list key has the parts of all its values. -/
def partsOf (label : String) (entries : List Entry) : List String :=
  (valuesOf label entries).flatMap fun v => (split ',' v).map trim

section

variable [Externals]

def interfaceOf (entries : List Entry) : InterfaceBuilder :=
  let tokens := (partsOf "dns" entries).filter (· ≠ "")
  { privateKey := lastOf PrivateKey.fromBase64 "privatekey" entries
    listenPort := (lastOf parseU16 "listenport" entries).getD 0
    addresses := partsOf "address" entries
    dns := tokens.filterMap Externals.parseIp
    dnsSearch := tokens.filter fun token => Externals.parseIp token = none
    mtu := (lastOf parseU16 "mtu" entries).getD 0
    fwmark := (lastOf parseU32 "fwmark" entries).getD 0
    preUp := valuesOf "preup" entries
    postUp := valuesOf "postup" entries
    preDown := valuesOf "predown" entries
    postDown := valuesOf "postdown" entries }

def peerOf (entries : List Entry) : PeerBuilder where
  publicKey := lastOf PublicKey.fromBase64 "publickey" entries
  presharedKey := lastOf PresharedKey.fromBase64 "presharedkey" entries
  endpoint := (valuesOf "endpoint" entries).getLast?
  allowedIps := partsOf "allowedips" entries
  persistentKeepalive := (lastOf parseU16 "persistentkeepalive" entries).getD 0

/-- The entries of all `[Interface]` segments. -/
def interfaceEntries (segs : List (Segment Section Entry)) : List Entry :=
  (segs.filter (·.sect = .interface)).flatMap (·.entries)

/-- The entries of each `[Peer]` segment. -/
def peerEntries (segs : List (Segment Section Entry)) : List (List Entry) :=
  (segs.filter (·.sect = .peer)).map (·.entries)

def assemble (segs : List (Segment Section Entry)) : Except ConfigError WgConfig := do
  let interface ← (interfaceOf (interfaceEntries segs)).build
  let peers ← ((peerEntries segs).map peerOf).mapM PeerBuilder.build
  let config : WgConfig := ⟨interface, peers⟩
  config.validate
  return config

/-- The segments of a text. -/
def segmentsOf (input : String) : List (Segment Section Entry) :=
  segments ((significant input).filterMap fun line => classify line.2)

/-- The first line that does not belong where it stands. -/
def firstBadLine (input : String) : Option (Nat × String) :=
  firstBad (fun line => classify line.2) takes .none (significant input)

/-! ## One pair -/

section

variable {label : String} {entries : List Entry} {key value : String}

omit [Externals]

theorem valuesOf_concat : valuesOf label (entries ++ [(key, value)]) =
    valuesOf label entries ++ if toAsciiLowercase key = label then [value] else [] := by
  by_cases same : toAsciiLowercase key = label <;> simp [valuesOf, same]

theorem partsOf_concat : partsOf label (entries ++ [(key, value)]) = partsOf label entries ++
    if toAsciiLowercase key = label then (split ',' value).map trim else [] := by
  by_cases same : toAsciiLowercase key = label <;> simp [partsOf, valuesOf_concat, same]

theorem lastOf_concat {ε N : Type} {parse : String → Except ε N} :
    lastOf parse label (entries ++ [(key, value)]) =
      if toAsciiLowercase key = label then (parse value).toOption
      else lastOf parse label entries := by
  by_cases same : toAsciiLowercase key = label <;> simp [lastOf, valuesOf_concat, same]

theorem isOk_eq_true {ε α : Type} {x : Except ε α} : x.isOk = true ↔ ∃ a, x = .ok a := by
  cases x <;> simp [Except.isOk, Except.toBool]

theorem isOk_eq_false {ε α : Type} {x : Except ε α} : x.isOk = false ↔ ∃ e, x = .error e := by
  cases x <;> simp [Except.isOk, Except.toBool]

end

theorem foldl_pushDns (tokens : List String) (b : InterfaceBuilder) :
    tokens.foldl pushDns b = { b with
      dns := b.dns ++ ((tokens.map trim).filter (· ≠ "")).filterMap Externals.parseIp
      dnsSearch := b.dnsSearch ++ ((tokens.map trim).filter (· ≠ "")).filter fun token =>
        Externals.parseIp token = none } := by
  induction tokens generalizing b with
  | nil => simp
  | cons token rest ih =>
    rw [List.foldl_cons, ih]
    by_cases empty : trim token = ""
    · simp [pushDns, empty]
    · cases ip : Externals.parseIp (trim token) <;> simp [pushDns, empty, ip]

/-- The builder of a section is that of its pairs so far. -/
theorem parseInterfaceKv_eq {entries : List Entry} {key value : String} (num : Nat)
    (fits : takes .interface (key, value)) :
    parseInterfaceKv (interfaceOf entries) key value num =
      .ok (interfaceOf (entries ++ [(key, value)])) := by
  rw [parseInterfaceKv]
  split <;> rename_i named
  case h_1 | h_2 | h_5 | h_6 =>
    obtain ⟨parsed, accepted⟩ := isOk_eq_true.mp (by simpa [takes, keys, named] using fits)
    simp [keyField, intField, accepted, Except.mapError, bind, Except.bind, pure, Except.pure,
      interfaceOf, lastOf_concat, partsOf_concat, valuesOf_concat, named, Except.toOption]
  case h_3 | h_7 | h_8 | h_9 | h_10 =>
    simp [interfaceOf, lastOf_concat, partsOf_concat, valuesOf_concat, named]
  case h_4 =>
    simp [foldl_pushDns, interfaceOf, lastOf_concat, partsOf_concat, valuesOf_concat, named]
  case h_11 => simp_all [takes, keys]

theorem parsePeerKv_eq {entries : List Entry} {key value : String} (num : Nat)
    (fits : takes .peer (key, value)) :
    parsePeerKv (peerOf entries) key value num = .ok (peerOf (entries ++ [(key, value)])) := by
  rw [parsePeerKv]
  split <;> rename_i named
  case h_1 | h_2 | h_5 =>
    obtain ⟨parsed, accepted⟩ := isOk_eq_true.mp (by simpa [takes, keys, named] using fits)
    simp [keyField, intField, accepted, Except.mapError, bind, Except.bind, pure, Except.pure,
      peerOf, lastOf_concat, partsOf_concat, valuesOf_concat, named, Except.toOption]
  case h_3 | h_4 => simp [peerOf, lastOf_concat, partsOf_concat, valuesOf_concat, named]
  case h_6 => simp_all [takes, keys]

theorem parseInterfaceKv_error (b : InterfaceBuilder) {key value : String} (num : Nat)
    (misfit : takes .interface (key, value) = false) :
    ∃ reason, parseInterfaceKv b key value num = .error (.wgQuickParse num reason) := by
  rw [parseInterfaceKv]
  split <;> rename_i named
  case h_1 | h_2 | h_5 | h_6 =>
    obtain ⟨failure, failed⟩ := isOk_eq_false.mp (by simpa [takes, keys, named] using misfit)
    simp [keyField, intField, failed, Except.mapError, bind, Except.bind]
  case h_11 => exact ⟨_, rfl⟩
  all_goals simp [takes, keys, named] at misfit

theorem parsePeerKv_error (b : PeerBuilder) {key value : String} (num : Nat)
    (misfit : takes .peer (key, value) = false) :
    ∃ reason, parsePeerKv b key value num = .error (.wgQuickParse num reason) := by
  rw [parsePeerKv]
  split <;> rename_i named
  case h_1 | h_2 | h_5 =>
    obtain ⟨failure, failed⟩ := isOk_eq_false.mp (by simpa [takes, keys, named] using misfit)
    simp [keyField, intField, failed, Except.mapError, bind, Except.bind]
  case h_6 => exact ⟨_, rfl⟩
  all_goals simp [takes, keys, named] at misfit

/-! ## The loop -/

/-- The body of the loop at a line that counts. -/
def readLine (st : ParseState) (line : Nat × String) : Except ConfigError ParseState :=
  if eqIgnoreAsciiCase line.2 "[interface]" then
    .ok { st with sect := .interface, filled := fun peer => by cases peer }
  else if eqIgnoreAsciiCase line.2 "[peer]" then
    .ok { st with
      sect := .peer
      peers := st.peers ++ [({} : PeerBuilder)]
      filled := fun _ => List.append_ne_nil_of_right_ne_nil _ (List.cons_ne_nil _ _) }
  else do
    let (key, value) ← splitKv line.2 line.1
    parseKv st key value line.1

theorem parseLine_eq (st : ParseState) (raw : String) (num : Nat) :
    parseLine st raw num =
      if isNoise (trim raw) then .ok st else readLine st (num, trim raw) := by
  simp [parseLine, readLine, isNoise, or_assoc]

theorem loop_eq (input : String) (st : ParseState) :
    (lines input).zipIdx.foldlM (fun st (raw, i) => parseLine st raw (i + 1)) st =
      (significant input).foldlM readLine st := by
  rw [significant, List.foldlM_filter, List.foldlM_map]
  congr
  funext st ⟨raw, i⟩
  dsimp only
  rw [parseLine_eq]
  by_cases noise : isNoise (trim raw) <;> simp [noise, pure, Except.pure]

section

variable (segs : List (Segment Section Entry)) (seg : Segment Section Entry)

omit [Externals]

@[simp] theorem interfaceEntries_concat : interfaceEntries (segs ++ [seg]) =
    interfaceEntries segs ++ if seg.sect = .interface then seg.entries else [] := by
  by_cases here : seg.sect = .interface <;> simp [interfaceEntries, here]

@[simp] theorem peerEntries_concat : peerEntries (segs ++ [seg]) =
    peerEntries segs ++ if seg.sect = .peer then [seg.entries] else [] := by
  by_cases here : seg.sect = .peer <;> simp [peerEntries, here]

end

/-- The builders are those of the segments so far. -/
structure Holds (st : ParseState) (before : List (Segment Section Entry))
    (current : Segment Section Entry) : Prop where
  sect : st.sect = current.sect
  interface : st.interface = interfaceOf (interfaceEntries (before ++ [current]))
  peers : st.peers = (peerEntries (before ++ [current])).map peerOf

theorem Holds.start : Holds {} [] ⟨.none, []⟩ := ⟨rfl, rfl, rfl⟩

/-- The error of a line, whatever its words. -/
def Rejects (line : Nat × String) (err : ConfigError) : Prop :=
  ∃ reason, err = .wgQuickParse line.1 reason

theorem parseKv_eq {st : ParseState} {before : List (Segment Section Entry)}
    {current : Segment Section Entry} (holds : Holds st before current) {e : Entry} (num : Nat)
    (fits : takes current.sect e) :
    ∃ st', parseKv st e.1 e.2 num = .ok st' ∧
      Holds st' before ⟨current.sect, current.entries ++ [e]⟩ := by
  obtain ⟨sect, interface, peers, filled⟩ := st
  obtain ⟨sect', entries⟩ := current
  obtain ⟨sameSect, sameInterface, samePeers⟩ := holds
  dsimp only at sameSect sameInterface samePeers fits ⊢
  subst sameSect
  cases sect with
  | none => simp [takes, keys] at fits
  | interface =>
    simp only [interfaceEntries_concat, peerEntries_concat, ↓reduceIte, reduceCtorEq,
      List.append_nil] at sameInterface samePeers
    have built : parseInterfaceKv (interfaceOf (interfaceEntries before ++ entries)) e.1 e.2 num =
        _ := parseInterfaceKv_eq num fits
    refine ⟨⟨.interface, interfaceOf (interfaceEntries before ++ entries ++ [e]), peers, by simp⟩,
      ?_, rfl, ?_, ?_⟩
    · simp [parseKv, sameInterface, built, bind, Except.bind, pure, Except.pure]
    · simp
    · simp [samePeers]
  | peer =>
    simp only [interfaceEntries_concat, peerEntries_concat, ↓reduceIte, reduceCtorEq,
      List.append_nil, List.map_append, List.map_singleton] at sameInterface samePeers
    have built : parsePeerKv (peerOf entries) e.1 e.2 num = _ := parsePeerKv_eq num fits
    subst samePeers
    refine ⟨⟨.peer, interface, (peerEntries before).map peerOf ++ [peerOf (entries ++ [e])],
      by simp⟩, ?_, rfl, ?_, ?_⟩
    · simp [parseKv, built, bind, Except.bind, pure, Except.pure]
    · simp [sameInterface]
    · simp

theorem parseKv_error {st : ParseState} {e : Entry} (num : Nat)
    (misfit : takes st.sect e = false) :
    ∃ reason, parseKv st e.1 e.2 num = .error (.wgQuickParse num reason) := by
  obtain ⟨sect, interface, peers, filled⟩ := st
  cases sect with
  | none => exact ⟨_, rfl⟩
  | interface =>
    obtain ⟨reason, failed⟩ := parseInterfaceKv_error interface num misfit
    exact ⟨reason, by simp only [parseKv, failed]; rfl⟩
  | peer =>
    obtain ⟨reason, failed⟩ := parsePeerKv_error (peers.getLast (filled rfl)) num misfit
    exact ⟨reason, by simp only [parseKv, failed]; rfl⟩

theorem readLine_entry (st : ParseState) {line : Nat × String} {e : Entry}
    (kind : classify line.2 = some (.entry e)) : readLine st line = parseKv st e.1 e.2 line.1 := by
  rw [classify] at kind
  split_ifs at kind with interface peer
  · cases kind
  · cases kind
  · obtain ⟨parts, split, whole⟩ := Option.map_eq_some_iff.mp kind
    cases whole
    simp [readLine, interface, peer, splitKv, split, bind, Except.bind]

theorem readLine_other (st : ParseState) {line : Nat × String} (kind : classify line.2 = none) :
    readLine st line = .error (.wgQuickParse line.1 s!"expected 'Key = Value', got: {line.2}") := by
  rw [classify] at kind
  split_ifs at kind with interface peer
  simp only [Option.map_eq_none_iff] at kind
  simp [readLine, interface, peer, splitKv, kind, bind, Except.bind]

theorem readLine_header {st : ParseState} {before : List (Segment Section Entry)}
    {current : Segment Section Entry} (holds : Holds st before current) {line : Nat × String}
    {s : Section} (kind : classify line.2 = some (.header s)) :
    ∃ st', readLine st line = .ok st' ∧ Holds st' (before ++ [current]) ⟨s, []⟩ := by
  rw [classify] at kind
  split_ifs at kind with interface peer
  · cases kind
    refine ⟨{ st with sect := .interface, filled := by simp }, if_pos interface, rfl, ?_, ?_⟩
    · rw [interfaceEntries_concat (before ++ [current]), if_pos rfl, List.append_nil]
      exact holds.interface
    · rw [peerEntries_concat (before ++ [current]), if_neg (by simp), List.append_nil]
      exact holds.peers
  · cases kind
    refine ⟨{ st with sect := .peer, peers := st.peers ++ [({} : PeerBuilder)], filled := by simp },
      (if_neg interface).trans (if_pos peer), rfl, ?_, ?_⟩
    · rw [interfaceEntries_concat (before ++ [current]), if_neg (by simp), List.append_nil]
      exact holds.interface
    · rw [peerEntries_concat (before ++ [current]), if_pos rfl, List.map_append, ← holds.peers]
      rfl
  · simp at kind

theorem reads_lines : Reads (fun line => classify line.2) takes readLine Rejects Holds where
  header _ _ _ _ _ holds kind := readLine_header holds kind
  entry st _ _ line _ holds kind fits := by
    rw [readLine_entry st kind]
    exact parseKv_eq holds line.1 fits
  misplaced st _ _ line e holds kind misfit := by
    obtain ⟨reason, failed⟩ := parseKv_error line.1 (holds.sect ▸ misfit)
    exact ⟨_, (readLine_entry st kind).trans failed, reason, rfl⟩
  other st _ _ line _ kind := ⟨_, readLine_other st kind, _, rfl⟩

/-! ## The whole text -/

theorem loadFromStr_bad {input : String} {line : Nat × String}
    (bad : firstBadLine input = some line) :
    ∃ reason, loadFromStr input = .error (.wgQuickParse line.1 reason) := by
  obtain ⟨err, stopped, reason, rfl⟩ := reads_lines.run_bad Holds.start bad
  exact ⟨reason, by rw [loadFromStr, loop_eq, stopped]; rfl⟩

theorem loadFromStr_good {input : String} (clean : firstBadLine input = none) :
    loadFromStr input = assemble (segmentsOf input) := by
  obtain ⟨st, before, current, ran, holds, whole⟩ := reads_lines.run_good Holds.start clean
  have interface : interfaceEntries (before ++ [current]) = interfaceEntries (segmentsOf input) := by
    rw [whole]
    simp [interfaceEntries, segmentsOf]
  have peers : peerEntries (before ++ [current]) = peerEntries (segmentsOf input) := by
    rw [whole]
    simp [peerEntries, segmentsOf]
  rw [loadFromStr, loop_eq, ran, assemble, ← interface, ← peers, ← holds.interface, ← holds.peers]
  rfl

/-- What loads is in place throughout, and means what its segments do. -/
theorem loadFromStr_eq_ok_iff {input : String} {config : WgConfig} :
    loadFromStr input = .ok config ↔
      firstBadLine input = none ∧ assemble (segmentsOf input) = .ok config := by
  constructor
  · intro loaded
    cases clean : firstBadLine input with
    | none => exact ⟨rfl, loadFromStr_good clean ▸ loaded⟩
    | some line =>
      obtain ⟨reason, failed⟩ := loadFromStr_bad clean
      rw [failed] at loaded
      cases loaded
  · rintro ⟨clean, built⟩
    rw [loadFromStr_good clean, built]

/-! ## What does not count -/

/-- The texts of the lines that count. -/
def texts (input : String) : List String := (significant input).map (·.2)

omit [Externals] in
theorem texts_lines (input : String) :
    texts input = ((lines input).map trim).filter fun line => !isNoise line := by
  have unnumbered : ((lines input).zipIdx.map fun (raw, i) => (i + 1, trim raw)).map (·.2) =
      (lines input).map trim := by
    conv_rhs => rw [← List.zipIdx_map_fst 0 (lines input)]
    rw [List.map_map, List.map_map]
    rfl
  rw [← unnumbered, List.filter_map]
  rfl

omit [Externals] in
theorem texts_split (input : String) :
    texts input = ((split '\n' input).map trim).filter fun line => !isNoise line := by
  rcases map_trim_split_lines input with same | same
  · rw [same, texts_lines]
  · simp [same, texts_lines, isNoise]

omit [Externals] in
theorem filterMap_significant (input : String) :
    ((significant input).filterMap fun line => classify line.2) =
      (texts input).filterMap classify := by
  rw [texts, List.filterMap_map]
  rfl

theorem firstBadLine_eq_none_iff (input : String) : firstBadLine input = none ↔
    (∀ line ∈ texts input, (classify line).isSome) ∧
      (∀ e ∈ lead ((texts input).filterMap classify), takes .none e) ∧
        ∀ seg ∈ segmentsOf input, ∀ e ∈ seg.entries, takes seg.sect e := by
  rw [firstBadLine, firstBad_eq_none_iff, segmentsOf, filterMap_significant, texts,
    List.forall_mem_map]

theorem loadFromStr_congr {input other : String} (same : texts input = texts other)
    (config : WgConfig) : loadFromStr input = .ok config ↔ loadFromStr other = .ok config := by
  simp only [loadFromStr_eq_ok_iff, firstBadLine_eq_none_iff, segmentsOf, filterMap_significant,
    same]

omit [Externals] in
theorem texts_noise {input other : String} {before noise after : List String}
    (whole : split '\n' input = before ++ after) (longer : split '\n' other = before ++ noise ++ after)
    (silent : ∀ line ∈ noise, isNoise (trim line)) : texts input = texts other := by
  have nothing : (noise.map trim).filter (fun line => !isNoise line) = [] := by
    simpa using silent
  rw [texts_split, texts_split, whole, longer]
  simp only [List.map_append, List.filter_append, nothing, List.append_nil]

omit [Externals] in
theorem texts_toCrlf (input : String) : texts (toCrlf input) = texts input := by
  rw [texts_split, texts_split, map_trim_split_toCrlf]

/-- The line loop reads the grammar, and nothing that loads depends on what does not count. -/
theorem load_grammar (input : String) :
    (match firstBadLine input with
      | some (num, _) => ∃ reason, loadFromStr input = .error (.wgQuickParse num reason)
      | none => loadFromStr input = assemble (segmentsOf input)) ∧
    (∀ before noise after other, split '\n' input = before ++ after →
      split '\n' other = before ++ noise ++ after → (∀ line ∈ noise, isNoise (trim line)) →
        ∀ config, loadFromStr input = .ok config ↔ loadFromStr other = .ok config) ∧
    ∀ config, loadFromStr (toCrlf input) = .ok config ↔ loadFromStr input = .ok config := by
  refine ⟨?_, fun before noise after other whole longer silent config => ?_, fun config => ?_⟩
  · cases first : firstBadLine input with
    | none => exact loadFromStr_good first
    | some line => exact loadFromStr_bad first
  · exact loadFromStr_congr (texts_noise whole longer silent) config
  · exact loadFromStr_congr (texts_toCrlf input) config

end

end FerroWg.Grammar
