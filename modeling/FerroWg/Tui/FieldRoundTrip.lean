import FerroWg.Core.WgQuickExport
import FerroWg.Tui.FieldValues

/-!
# A field that is opened and confirmed

`field_current_value` against `validate_field` and `apply_field`: which stored values come back as
they were.
-/

namespace FerroWg.Tui

open Lib Text
open Grammar (glue_comma IpAlphabet isIpChar_plain)

/-! ## Lists -/

/-- What a list can hold that is shown with commas: a text with none, and no blanks around it. -/
structure Item (t : String) : Prop where
  nonempty : t ≠ ""
  trimmed : trim t = t
  noComma : ',' ∉ t.toList

theorem item_of_mem_parseCommaList {t s : String} (listed : t ∈ parseCommaList s) : Item t := by
  obtain ⟨inside, nonempty⟩ := List.mem_filter.mp listed
  obtain ⟨part, split, rfl⟩ := List.mem_map.mp inside
  exact {
    nonempty := of_decide_eq_true nonempty
    trimmed := trim_trim part
    noComma := fun comma => (split_part split).1 (mem_of_mem_trim comma) }

theorem parseCommaList_joinComma_iff {l : List String} :
    parseCommaList (joinComma l) = l ↔ ∀ t ∈ l, Item t := by
  refine ⟨fun same t listed => item_of_mem_parseCommaList (same.symm ▸ listed), fun items => ?_⟩
  by_cases empty : l = []
  · subst empty
    decide
  · have parts := map_trim_split_intercalate glue_comma empty fun t listed => (items t listed).noComma
    have trimmed : l.map trim = l := by
      rw [List.map_congr_left fun t listed => (items t listed).trimmed, List.map_id']
    rw [parseCommaList, joinComma, parts, trimmed, List.filter_eq_self]
    exact fun t listed => decide_eq_true (items t listed).nonempty

/-- A list is checked token by token, so its own items are checked if they come back. -/
theorem tokens_of_joinComma {l : List String} {P : String → Prop} :
    ((∀ t ∈ parseCommaList (joinComma l), P t) ∧ parseCommaList (joinComma l) = l) ↔
      ∀ t ∈ l, Item t ∧ P t := by
  constructor
  · rintro ⟨good, same⟩
    rw [same] at good
    exact fun t listed => ⟨parseCommaList_joinComma_iff.mp same t listed, good t listed⟩
  · intro items
    have same := parseCommaList_joinComma_iff.mpr fun t listed => (items t listed).1
    rw [same]
    exact ⟨fun t listed => (items t listed).2, rfl⟩

/-! ## Numbers -/

theorem numberText_spec (n : Nat) :
    (numberText n = "" ∧ n = 0) ∨ Numeral (numberText n) n := by
  rw [numberText]
  split_ifs with zero
  · exact .inl ⟨rfl, zero⟩
  · exact .inr (numeral_toString n)

theorem numberText_u16 (n : UInt16) :
    (numberText n.toNat = "" ∨ ∃ m : UInt16, Numeral (numberText n.toNat) m.toNat) ∧
      parseOrZero (parseU16 (numberText n.toNat)) = n := by
  rcases numberText_spec n.toNat with ⟨empty, zero⟩ | number
  · obtain rfl : n = 0 := UInt16.toNat_inj.mp zero
    exact ⟨.inl empty, by decide⟩
  · exact ⟨.inr ⟨n, number⟩, by rw [parseU16_ok_iff.mpr number]; rfl⟩

theorem numberText_u32 (n : UInt32) :
    (numberText n.toNat = "" ∨ ∃ m : UInt32, Numeral (numberText n.toNat) m.toNat) ∧
      parseOrZero (parseU32 (numberText n.toNat)) = n := by
  rcases numberText_spec n.toNat with ⟨empty, zero⟩ | number
  · obtain rfl : n = 0 := UInt32.toNat_inj.mp zero
    exact ⟨.inl empty, by decide⟩
  · exact ⟨.inr ⟨n, number⟩, by rw [parseU32_ok_iff.mpr number]; rfl⟩

theorem validateMtu_numberText_iff (n : UInt16) :
    validateMtu (numberText n.toNat) = .ok () ↔ n = 0 ∨ (576 ≤ n ∧ n ≤ 9000) := by
  rw [validateMtu_ok_iff]
  rcases numberText_spec n.toNat with ⟨empty, zero⟩ | number
  · exact iff_of_true (.inl empty) (.inl (UInt16.toNat_inj.mp zero))
  · constructor
    · rintro (empty | ⟨m, other, range⟩)
      · exact absurd empty number.nonempty
      · obtain rfl : n = m := UInt16.toNat_inj.mp (number.unique other)
        exact range
    · exact fun range => .inr ⟨n, number, range⟩

/-! ## A place that gets its own value -/

theorem modifyPeer_eq_self_iff {c : WgConfig} {sect : ConfigSection}
    {f : PeerConfig → PeerConfig} :
    modifyPeer c sect f = c ↔ ∀ p ∈ peerAt sect c, f p = p := by
  cases sect with
  | interface => simp [modifyPeer, peerAt]
  | peer i =>
    have peers : modifyPeer c (.peer i) f = c ↔ c.peers.modify i f = c.peers := by
      cases c
      simp [modifyPeer]
    rw [peers, peerAt]
    constructor
    · intro same p there
      have here : (c.peers.modify i f)[i]? = some (f p) := by
        simp [List.getElem?_modify_eq, Option.mem_def.mp there]
      rw [same, Option.mem_def.mp there] at here
      exact (Option.some.inj here).symm
    · intro each
      apply List.ext_getElem?
      intro j
      by_cases same : i = j
      · subst same
        cases there : c.peers[i]? with
        | none => simp [there]
        | some p => simp [there, each p there]
      · simp [same]

theorem peerText_eq (sect : ConfigSection) (c : WgConfig) (f : PeerConfig → String) :
    peerText sect c f = ((peerAt sect c).map f).getD "" := by
  cases sect <;> rfl

theorem nonempty_of_hostPort {e : String} (valid : HostPort e) : e ≠ "" := by
  rintro rfl
  obtain ⟨host, port, _, parts, _⟩ := valid
  have single : split ':' "" = [""] := by decide
  simp [single] at parts

section

variable [Externals]

/-- Addresses that parse as they are printed make a list without loss. -/
theorem parseCommaList_dns (alphabet : IpAlphabet) {dns : List IpAddr}
    (shown : ∀ ip ∈ dns, Externals.parseIp (Externals.showIp ip) = some ip) :
    parseCommaList (joinComma (dns.map Externals.showIp)) = dns.map Externals.showIp := by
  rw [parseCommaList_joinComma_iff, List.forall_mem_map]
  intro ip listed
  obtain ⟨nonempty, chars⟩ := alphabet _ ip (shown ip listed)
  have plain := fun c inside => isIpChar_plain (chars c inside)
  exact {
    nonempty
    trimmed := trim_of_no_whitespace _ fun c inside => (plain c inside).1
    noComma := fun comma => (plain ',' comma).2 rfl }

/-! ## One field -/

/-- The value of a field, as it is shown, passes its check and is written back as it was. -/
def RoundTrips (field : EditableField) (sect : ConfigSection) (c : WgConfig) : Prop :=
  let shown := fieldCurrentValue field sect c
  validateField field shown c sect = .ok () ∧ applyField field shown c sect = c

/-- What has to be stored for that. -/
def ReadsBack (field : EditableField) (sect : ConfigSection) (c : WgConfig) : Prop :=
  match field with
  | .addresses => ∀ a ∈ c.interface.addresses, Item a ∧ isValidCidr a = true
  | .dnsSearch => ∀ d ∈ c.interface.dnsSearch, Item d ∧ isValidDomain d = true
  | .mtu => c.interface.mtu = 0 ∨ (576 ≤ c.interface.mtu ∧ c.interface.mtu ≤ 9000)
  | .preUp => ∀ command ∈ c.interface.preUp, Item command
  | .postUp => ∀ command ∈ c.interface.postUp, Item command
  | .preDown => ∀ command ∈ c.interface.preDown, Item command
  | .postDown => ∀ command ∈ c.interface.postDown, Item command
  | .peerEndpoint => ∀ p ∈ peerAt sect c, ∀ e ∈ p.endpoint, HostPort e
  | .peerAllowedIps => ∀ p ∈ peerAt sect c,
      (∀ a ∈ p.allowedIps, Item a ∧ isValidCidr a = true ∧ a ∉ otherAllowedIps c sect) ∧
        p.allowedIps.Nodup
  | .listenPort | .dns | .fwmark | .peerName | .peerPublicKey | .peerPersistentKeepalive => True

variable {field : EditableField} {sect : ConfigSection} {c : WgConfig}

theorem roundTrips_iff (text : String) (value : fieldCurrentValue field sect c = text) :
    RoundTrips field sect c ↔
      validateField field text c sect = .ok () ∧ applyField field text c sect = c := by
  rw [RoundTrips, value]

/-- A list that is checked token by token and written as its tokens. -/
theorem roundTrips_list {l : List String} {P : String → Prop}
    (value : fieldCurrentValue field sect c = joinComma l)
    (check : validateField field (joinComma l) c sect = .ok () ↔
      ∀ t ∈ parseCommaList (joinComma l), P t)
    (write : applyField field (joinComma l) c sect = c ↔ parseCommaList (joinComma l) = l) :
    RoundTrips field sect c ↔ ∀ t ∈ l, Item t ∧ P t := by
  rw [roundTrips_iff _ value, check, write, tokens_of_joinComma]

/-- A list of commands, which are not checked. -/
theorem roundTrips_hooks {l : List String}
    (value : fieldCurrentValue field sect c = joinComma l)
    (check : validateField field (joinComma l) c sect = .ok ())
    (write : applyField field (joinComma l) c sect = c ↔ parseCommaList (joinComma l) = l) :
    RoundTrips field sect c ↔ ∀ command ∈ l, Item command := by
  rw [roundTrips_iff _ value, write, parseCommaList_joinComma_iff]
  exact and_iff_right check

/-- What a field of the interface is written back as, against what it was. -/
theorem roundTrips_interface (alphabet : IpAlphabet)
    (shown : ∀ ip ∈ c.interface.dns, Externals.parseIp (Externals.showIp ip) = some ip)
    (own : field ∈ interfaceFields) : RoundTrips field sect c ↔ ReadsBack field sect c := by
  obtain ⟨i, peers⟩ := c
  cases field with
  | listenPort =>
    have back := numberText_u16 i.listenPort
    apply iff_of_true _ trivial
    exact (roundTrips_iff (numberText i.listenPort.toNat) rfl).mpr
      ⟨validateU16_ok_iff.mpr back.1, by simp [applyField, modifyInterface, back.2]⟩
  | fwmark =>
    have back := numberText_u32 i.fwmark
    apply iff_of_true _ trivial
    exact (roundTrips_iff (numberText i.fwmark.toNat) rfl).mpr
      ⟨validateFwmark_ok_iff.mpr back.1, by simp [applyField, modifyInterface, back.2]⟩
  | dns =>
    have tokens : parseCommaList (joinComma (i.dns.map Externals.showIp)) = _ :=
      parseCommaList_dns alphabet shown
    apply iff_of_true _ trivial
    refine (roundTrips_iff (joinComma (i.dns.map Externals.showIp)) rfl).mpr
      ⟨validateTokens_ok_iff.mpr ?_, ?_⟩
    · rw [tokens, List.forall_mem_map]
      exact fun ip listed => by simp [shown ip listed]
    · have parsed : (i.dns.map Externals.showIp).filterMap Externals.parseIp = i.dns := by
        rw [List.filterMap_map]
        exact (List.filterMap_congr shown).trans List.filterMap_some
      simp only [applyField_dns, modifyInterface, tokens, parsed]
  | mtu =>
    have back := (numberText_u16 i.mtu).2
    rw [roundTrips_iff (numberText i.mtu.toNat) rfl]
    have write : applyField .mtu (numberText i.mtu.toNat) ⟨i, peers⟩ sect = ⟨i, peers⟩ := by
      simp [applyField, modifyInterface, back]
    exact (and_iff_left write).trans (validateMtu_numberText_iff i.mtu)
  | addresses =>
    refine roundTrips_list (l := i.addresses) rfl validateTokens_ok_iff ?_
    cases i
    simp [applyField, modifyInterface]
  | dnsSearch =>
    refine roundTrips_list (l := i.dnsSearch) rfl validateTokens_ok_iff ?_
    cases i
    simp [applyField, modifyInterface]
  | preUp | postUp | preDown | postDown =>
    apply roundTrips_hooks rfl rfl
    cases i
    simp [applyField, modifyInterface]
  | peerName | peerPublicKey | peerEndpoint | peerAllowedIps | peerPersistentKeepalive =>
    simp [interfaceFields] at own

/-- A peer's field with no peer to stand in. -/
theorem roundTrips_of_no_peer (own : field ∈ peerFieldsExisting) (absent : peerAt sect c = none) :
    RoundTrips field sect c ∧ ReadsBack field sect c := by
  have nothing (f : PeerConfig → PeerConfig) : modifyPeer c sect f = c :=
    modifyPeer_eq_self_iff.mpr (by simp [absent])
  have text (f : PeerConfig → String) : peerText sect c f = "" := by
    rw [peerText_eq, absent]
    rfl
  rw [RoundTrips]
  cases field with
  | peerName | peerPersistentKeepalive =>
    rw [fieldCurrentValue, text]
    exact ⟨⟨rfl, nothing _⟩, trivial⟩
  | peerEndpoint | peerAllowedIps =>
    rw [fieldCurrentValue, text, ReadsBack]
    exact ⟨⟨rfl, nothing _⟩, by simp [absent]⟩
  | _ => simp [peerFieldsExisting] at own

/-- A peer's field, where there is the peer. -/
theorem roundTrips_peer (own : field ∈ peerFieldsExisting) :
    RoundTrips field sect c ↔ ReadsBack field sect c := by
  cases there : peerAt sect c with
  | none =>
    obtain ⟨trips, reads⟩ := roundTrips_of_no_peer own there
    exact iff_of_true trips reads
  | some p =>
    rw [RoundTrips]
    cases field with
    | peerName =>
      apply iff_of_true _ trivial
      refine ⟨rfl, modifyPeer_eq_self_iff.mpr ?_⟩
      simp [fieldCurrentValue, peerText_eq, there]
    | peerPersistentKeepalive =>
      apply iff_of_true _ trivial
      have back := numberText_u16 p.persistentKeepalive
      rw [fieldCurrentValue, peerText_eq, there]
      refine ⟨validateU16_ok_iff.mpr back.1, modifyPeer_eq_self_iff.mpr ?_⟩
      simp [there, back.2]
    | peerEndpoint =>
      rw [fieldCurrentValue, peerText_eq, ReadsBack]
      simp only [Option.map_some, Option.getD_some, Option.mem_some_iff, forall_eq',
        validateField, validateEndpoint_ok_iff, applyField, modifyPeer_eq_self_iff, there]
      obtain ⟨name, publicKey, presharedKey, endpoint, allowedIps, keepalive⟩ := p
      cases endpoint with
      | none => simp
      | some e =>
        by_cases empty : e = ""
        · simp only [empty]
          simpa using fun valid => nonempty_of_hostPort valid rfl
        · simp [empty]
    | peerAllowedIps =>
      rw [fieldCurrentValue, peerText_eq, ReadsBack]
      simp only [Option.map_some, Option.getD_some, Option.mem_some_iff, forall_eq',
        validateField, validateAllowedIps_ok_iff, applyField, modifyPeer_eq_self_iff, there]
      rw [← tokens_of_joinComma]
      obtain ⟨name, publicKey, presharedKey, endpoint, allowedIps, keepalive⟩ := p
      simp only [PeerConfig.mk.injEq, true_and, and_true]
      constructor
      · rintro ⟨⟨good, nodup⟩, same⟩
        exact ⟨⟨good, same⟩, same ▸ nodup⟩
      · rintro ⟨⟨good, same⟩, nodup⟩
        exact ⟨⟨good, same.symm ▸ nodup⟩, same⟩
    | _ => simp [peerFieldsExisting] at own

/-! ## Opening and confirming -/

/-- The field that is opened; past the last one it is the first of the interface. -/
def openedField (sect : ConfigSection) (fieldIdx : Nat) : EditableField :=
  (fieldsForSection sect false)[fieldIdx]?.getD .listenPort

omit [Externals] in
theorem openedField_offered (sect : ConfigSection) (fieldIdx : Nat) :
    openedField sect fieldIdx ∈ interfaceFields ∨
      openedField sect fieldIdx ∈ peerFieldsExisting := by
  rw [openedField]
  cases there : (fieldsForSection sect false)[fieldIdx]? with
  | none => exact .inl List.mem_cons_self
  | some field =>
    have offered := List.mem_of_getElem? there
    cases sect with
    | interface => exact .inl offered
    | peer i => exact .inr offered

omit [Externals] in
theorem openedField_ne_key (sect : ConfigSection) (fieldIdx : Nat) :
    openedField sect fieldIdx ≠ .peerPublicKey := by
  intro same
  rcases openedField_offered sect fieldIdx with offered | offered
  · simp [same, interfaceFields] at offered
  · simp [same, peerFieldsExisting] at offered

theorem roundTrips_openedField_iff (alphabet : IpAlphabet)
    (shown : ∀ ip ∈ c.interface.dns, Externals.parseIp (Externals.showIp ip) = some ip)
    (fieldIdx : Nat) :
    RoundTrips (openedField sect fieldIdx) sect c ↔ ReadsBack (openedField sect fieldIdx) sect c := by
  rcases openedField_offered sect fieldIdx with own | own
  · exact roundTrips_interface alphabet shown own
  · exact roundTrips_peer own

/-- The session that opening a field starts. -/
def openedSession (conn : ConnectionView) (sect : ConfigSection) (fieldIdx : Nat) :
    ConfigEditState where
  connectionName := conn.name
  draft := conn.config
  focusedSection := sect
  focusedFieldIdx := fieldIdx
  editBuffer := some (fieldCurrentValue (openedField sect fieldIdx) sect conn.config)
  fieldError := none
  newPeerIndices := ∅
  sessionError := none

theorem focusedField_openedSession (conn : ConnectionView) (sect : ConfigSection)
    (fieldIdx : Nat) : focusedField (openedSession conn sect fieldIdx) = openedField sect fieldIdx := by
  cases sect <;> rfl

variable {s : AppState} {name : String} {conn : ConnectionView}

theorem dispatch_enterConfigEdit (now : Clock) (visible : s.minVisible = some name)
    (found : s.findConnection name = some conn) (sect : ConfigSection) (fieldIdx : Nat) :
    dispatch now (.enterConfigEdit sect fieldIdx) s =
      some { s with
        configEdit := some (openedSession conn sect fieldIdx)
        inputMode := .editField } := by
  simp only [dispatch, enterConfigEdit, visible, found]
  rfl

/-- Enter on an opened field leaves the draft as it was just when its value round-trips. -/
theorem confirm_openedSession (now : Clock) (control : Bool) (sect : ConfigSection)
    (fieldIdx : Nat) (session : s.configEdit = some (openedSession conn sect fieldIdx)) :
    ∃ after edit, dispatch now (.configEditKey ⟨.enter, control⟩) s = some after ∧
      after.configEdit = some edit ∧
      (edit.editBuffer = none ∧ edit.fieldError = none ∧ edit.draft = conn.config ↔
        RoundTrips (openedField sect fieldIdx) sect conn.config) := by
  simp only [dispatch, inSession, session, configEditKey, typeIntoBuffer_enter, finishField]
  rw [focusedField_openedSession, RoundTrips]
  simp only [openedSession]
  cases checked : validateField (openedField sect fieldIdx)
      (fieldCurrentValue (openedField sect fieldIdx) sect conn.config) conn.config sect with
  | error e => exact ⟨_, _, rfl, rfl, by simp⟩
  | ok _ =>
    refine ⟨_, _, rfl, rfl, ?_⟩
    have written := focusedField_openedSession conn sect fieldIdx
    rw [openedSession] at written
    simp [commitValue, closeField, written, openedField_ne_key]

/-- Opening a field and confirming it is accepted and keeps the draft exactly when what the field
holds is of the form its editor reads back. -/
theorem confirm_unchanged_iff (alphabet : IpAlphabet) (visible : s.minVisible = some name)
    (found : s.findConnection name = some conn)
    (shown : ∀ ip ∈ conn.config.interface.dns,
      Externals.parseIp (Externals.showIp ip) = some ip)
    (sect : ConfigSection) (fieldIdx : Nat) (opened confirmed : Clock) (control : Bool) :
    ∃ within after edit,
      dispatch opened (.enterConfigEdit sect fieldIdx) s = some within ∧
      dispatch confirmed (.configEditKey ⟨.enter, control⟩) within = some after ∧
      after.configEdit = some edit ∧
      (edit.editBuffer = none ∧ edit.fieldError = none ∧ edit.draft = conn.config ↔
        ReadsBack (openedField sect fieldIdx) sect conn.config) := by
  have entered := dispatch_enterConfigEdit opened visible found sect fieldIdx
  obtain ⟨after, edit, taken, session, same⟩ :=
    confirm_openedSession (s := { s with
      configEdit := some (openedSession conn sect fieldIdx)
      inputMode := .editField }) confirmed control sect fieldIdx rfl
  exact ⟨_, after, edit, entered, taken, session,
    same.trans (roundTrips_openedField_iff alphabet shown fieldIdx)⟩

end

namespace FieldSample

open Grammar.ExportSample (externals resolver)

/-- A resolver, and a command with a comma in it. -/
def conn : ConnectionView where
  name := "home"
  config := modifyInterface (Grammar.ExportSample.config 0) fun i =>
    { i with postUp := ["nft add rule filter input tcp dport 80,443 accept"] }
  status := none
  selectedPeerRow := 0

def start : AppState :=
  { AppState.new default with connections := [conn], visibleConnections := {"home"} }

theorem visible : start.minVisible = some "home" := Finset.min_singleton

theorem found : start.findConnection "home" = some conn := by
  simp [AppState.findConnection, start, conn]

theorem shown : ∀ ip ∈ conn.config.interface.dns,
    externals.parseIp (externals.showIp ip) = some ip := by
  intro ip listed
  obtain rfl : ip = resolver := List.mem_singleton.mp listed
  have text : externals.showIp resolver = "192.0.2.53" := if_pos rfl
  rw [text]
  exact if_pos rfl

theorem valid : @WgConfig.validate externals conn.config = .ok () := by
  apply (@WgConfig.validate_ok_iff externals _).mpr
  refine ⟨List.cons_ne_nil _ _, ?_⟩
  simp only [conn, modifyInterface, Grammar.ExportSample.config, List.forall_mem_singleton]
  exact ⟨.inl rfl, List.cons_ne_nil _ _⟩

end FieldSample

open FieldSample Grammar.ExportSample in
/-- The resolver is confirmed as it is. -/
theorem confirm_dns_unchanged :
    ∃ within after edit,
      @dispatch externals ⟨0, 0⟩ (.enterConfigEdit .interface 2) start = some within ∧
      @dispatch externals ⟨0, 0⟩ (.configEditKey ⟨.enter, false⟩) within = some after ∧
      after.configEdit = some edit ∧ edit.draft = conn.config := by
  obtain ⟨within, after, edit, entered, taken, session, same⟩ :=
    @confirm_unchanged_iff externals start "home" conn ipText visible found shown .interface 2
      ⟨0, 0⟩ ⟨0, 0⟩ false
  exact ⟨within, after, edit, entered, taken, session, (same.mpr trivial).2.2⟩

open FieldSample Grammar.ExportSample in
/-- The command is cut in two at its comma. -/
theorem confirm_command_changed :
    @WgConfig.validate externals conn.config = .ok () ∧
    ∃ within after edit,
      @dispatch externals ⟨0, 0⟩ (.enterConfigEdit .interface 7) start = some within ∧
      @dispatch externals ⟨0, 0⟩ (.configEditKey ⟨.enter, false⟩) within = some after ∧
      after.configEdit = some edit ∧
      ¬(edit.editBuffer = none ∧ edit.fieldError = none ∧ edit.draft = conn.config) := by
  refine ⟨valid, ?_⟩
  have entered :=
    @dispatch_enterConfigEdit externals start "home" conn ⟨0, 0⟩ visible found .interface 7
  obtain ⟨after, edit, taken, session, same⟩ :=
    @confirm_openedSession externals
      { start with
        configEdit := some (@openedSession externals conn .interface 7)
        inputMode := .editField } conn ⟨0, 0⟩ false .interface 7 rfl
  refine ⟨_, after, edit, entered, taken, session, fun unchanged => ?_⟩
  have items := (@roundTrips_interface externals .postUp .interface conn.config ipText shown
    (by decide)).mp (same.mp unchanged)
  have single := items _ (List.mem_singleton.mpr rfl)
  exact single.noComma (by simp)

end FerroWg.Tui
