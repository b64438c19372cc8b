import FerroWg.Lib.Numbers
import FerroWg.Lib.Tokens
import FerroWg.Tui.State

/-!
# What a field's text stands for

The validators as grammars, and the draft that `apply_field` leaves: the value that the text
denotes in its place, and everything else as it was.
-/

namespace FerroWg.Tui

open Lib Text

/-! ## Validators -/

/-- The check reads 32 bits and compares, so it accepts what 16 bits hold. -/
theorem validateU16_ok_iff {notNumeric tooHigh : ConfigEditError} {value : String} :
    validateU16 notNumeric tooHigh value = .ok () ↔
      value = "" ∨ ∃ n : UInt16, Numeral value n.toNat := by
  rw [validateU16]
  by_cases empty : value = ""
  · simp [empty]
  simp only [empty, ↓reduceIte, false_or]
  cases read : parseU32 value with
  | error e =>
    simp only [reduceCtorEq, false_iff]
    rintro ⟨n, number⟩
    have again := parseU32_ok_iff.mpr (n.toNat_toUInt32 ▸ number)
    simp [read] at again
  | ok m =>
    have number := parseU32_ok_iff.mp read
    simp only
    split_ifs with high
    · simp only [false_iff]
      rintro ⟨n, other⟩
      have same := number.unique other
      have bound := n.toNat_lt
      omega
    · refine iff_of_true rfl ⟨m.toUInt16, ?_⟩
      rwa [UInt32.toNat_toUInt16, Nat.mod_eq_of_lt (by omega)]

theorem validateMtu_ok_iff {value : String} :
    validateMtu value = .ok () ↔
      value = "" ∨ ∃ n : UInt16, Numeral value n.toNat ∧ (n = 0 ∨ (576 ≤ n ∧ n ≤ 9000)) := by
  rw [validateMtu]
  by_cases empty : value = ""
  · simp [empty]
  simp only [empty, ↓reduceIte, false_or, ← parseU16_ok_iff]
  cases read : parseU16 value with
  | error e => simp
  | ok m => simp [or_iff_not_imp_left]

theorem validateFwmark_ok_iff {value : String} :
    validateFwmark value = .ok () ↔ value = "" ∨ ∃ n : UInt32, Numeral value n.toNat := by
  rw [validateFwmark]
  by_cases empty : value = ""
  · simp [empty]
  simp only [empty, ↓reduceIte, false_or, ← parseU32_ok_iff]
  cases read : parseU32 value with
  | error e => simp
  | ok m => simp

theorem lists_parseCommaList {text : String} {tokens : List String} :
    Lists ',' text tokens ↔ tokens = parseCommaList text :=
  lists_iff

theorem parseCommaList_empty : parseCommaList "" = [] := by decide

theorem validateParts_ok_iff {ok : String → Bool} {report : String → ConfigEditError}
    {parts : List String} :
    validateParts ok report parts = .ok () ↔
      ∀ token ∈ (parts.map trim).filter (· ≠ ""), ok token = true := by
  induction parts with
  | nil => simp [validateParts]
  | cons part parts ih =>
    rw [validateParts]
    by_cases blank : trim part = ""
    · rw [if_pos blank, ih, List.map_cons, List.filter_cons_of_neg (by simp [blank])]
    · rw [if_neg blank, List.map_cons, List.filter_cons_of_pos (by simpa using blank),
        List.forall_mem_cons, ← ih]
      cases passes : ok (trim part) with
      | true => simp
      | false => simp

theorem validateTokens_ok_iff {ok : String → Bool} {report : String → ConfigEditError}
    {value : String} :
    validateTokens ok report value = .ok () ↔ ∀ token ∈ parseCommaList value, ok token = true := by
  rw [validateTokens]
  by_cases empty : value = ""
  · simp [empty, parseCommaList_empty]
  · rw [if_neg empty, validateParts_ok_iff, parseCommaList]

/-- One colon, with a host in front of it and a port behind. -/
def HostPort (value : String) : Prop :=
  ∃ host port, ∃ n : UInt16, split ':' value = [host, port] ∧ host ≠ "" ∧ Numeral port n.toNat

theorem validateEndpoint_ok_iff {value : String} :
    validateEndpoint value = .ok () ↔ value = "" ∨ HostPort value := by
  rw [validateEndpoint, HostPort]
  by_cases empty : value = ""
  · simp [empty]
  simp only [empty, ↓reduceIte, false_or, ← parseU16_ok_iff]
  split
  · rename_i host port parts
    by_cases missing : host = ""
    · simp [parts, missing]
    · cases read : parseU16 port with
      | error e => simp [parts, missing, read]
      | ok n => simp [parts, missing, read]
  · rename_i other
    simp only [reduceCtorEq, false_iff]
    rintro ⟨host, port, n, parts, _⟩
    exact other host port parts

section

variable [Externals]

/-- What passes is a valid CIDR, and new to the other peers and to what was seen before it. -/
theorem checkCidrs_ok_iff {others seen parts : List String} :
    checkCidrs others seen parts = .ok () ↔
      (∀ cidr ∈ (parts.map trim).filter (· ≠ ""),
        isValidCidr cidr = true ∧ cidr ∉ others ∧ cidr ∉ seen) ∧
        ((parts.map trim).filter (· ≠ "")).Nodup := by
  induction parts generalizing seen with
  | nil => simp [checkCidrs]
  | cons part parts ih =>
    rw [checkCidrs]
    by_cases blank : trim part = ""
    · rw [if_pos blank, ih, List.map_cons, List.filter_cons_of_neg (by simp [blank])]
    rw [if_neg blank, List.map_cons, List.filter_cons_of_pos (by simpa using blank),
      List.forall_mem_cons, List.nodup_cons]
    by_cases valid : isValidCidr (trim part) = true
    · by_cases taken : trim part ∈ others
      · simp [valid, taken]
      · by_cases repeated : trim part ∈ seen
        · simp [valid, taken, repeated]
        · simp only [valid, Bool.not_true, Bool.false_eq_true, ↓reduceIte, taken, repeated, ih,
            List.mem_cons, not_or, not_false_eq_true, and_self, true_and]
          grind
    · simp [valid]

theorem validateAllowedIps_ok_iff {value : String} {others : List String} :
    validateAllowedIps value others = .ok () ↔
      (∀ cidr ∈ parseCommaList value, isValidCidr cidr = true ∧ cidr ∉ others) ∧
        (parseCommaList value).Nodup := by
  rw [validateAllowedIps]
  by_cases empty : value = ""
  · simp [empty, parseCommaList_empty]
  · rw [if_neg empty, checkCidrs_ok_iff, parseCommaList]
    simp

end

/-! ## The value in its place -/

inductive FieldValue where
  | number (n : Nat)
  | items (l : List String)
  | ips (l : List IpAddr)
  | text (s : String)
  | optional (s : Option String)
  | key (k : PublicKey)
  deriving DecidableEq, Repr

def peerAt (sect : ConfigSection) (c : WgConfig) : Option PeerConfig :=
  match sect with
  | .interface => none
  | .peer i => c.peers[i]?

/-- What stands at a field; a peer field has a place only where there is the peer. -/
def storedValue (field : EditableField) (sect : ConfigSection) (c : WgConfig) :
    Option FieldValue :=
  match field with
  | .listenPort => some (.number c.interface.listenPort.toNat)
  | .addresses => some (.items c.interface.addresses)
  | .dns => some (.ips c.interface.dns)
  | .dnsSearch => some (.items c.interface.dnsSearch)
  | .mtu => some (.number c.interface.mtu.toNat)
  | .fwmark => some (.number c.interface.fwmark.toNat)
  | .preUp => some (.items c.interface.preUp)
  | .postUp => some (.items c.interface.postUp)
  | .preDown => some (.items c.interface.preDown)
  | .postDown => some (.items c.interface.postDown)
  | .peerName => (peerAt sect c).map fun p => .text p.name
  | .peerPublicKey => (peerAt sect c).map fun p => .key p.publicKey
  | .peerEndpoint => (peerAt sect c).map fun p => .optional p.endpoint
  | .peerAllowedIps => (peerAt sect c).map fun p => .items p.allowedIps
  | .peerPersistentKeepalive =>
    (peerAt sect c).map fun p => .number p.persistentKeepalive.toNat

/-- The configuration but for one field of one section. -/
def clearField (field : EditableField) (sect : ConfigSection) (c : WgConfig) : WgConfig :=
  match field with
  | .listenPort => modifyInterface c fun i => { i with listenPort := 0 }
  | .addresses => modifyInterface c fun i => { i with addresses := [] }
  | .dns => modifyInterface c fun i => { i with dns := [] }
  | .dnsSearch => modifyInterface c fun i => { i with dnsSearch := [] }
  | .mtu => modifyInterface c fun i => { i with mtu := 0 }
  | .fwmark => modifyInterface c fun i => { i with fwmark := 0 }
  | .preUp => modifyInterface c fun i => { i with preUp := [] }
  | .postUp => modifyInterface c fun i => { i with postUp := [] }
  | .preDown => modifyInterface c fun i => { i with preDown := [] }
  | .postDown => modifyInterface c fun i => { i with postDown := [] }
  | .peerName => modifyPeer c sect fun p => { p with name := "" }
  | .peerPublicKey => modifyPeer c sect fun p => { p with publicKey := placeholderKey }
  | .peerEndpoint => modifyPeer c sect fun p => { p with endpoint := none }
  | .peerAllowedIps => modifyPeer c sect fun p => { p with allowedIps := [] }
  | .peerPersistentKeepalive => modifyPeer c sect fun p => { p with persistentKeepalive := 0 }

theorem modifyPeer_modifyPeer (c : WgConfig) (sect : ConfigSection)
    (f g : PeerConfig → PeerConfig) :
    modifyPeer (modifyPeer c sect f) sect g = modifyPeer c sect (g ∘ f) := by
  cases sect with
  | interface => rfl
  | peer i => simp [modifyPeer, List.modify_modify_eq]

@[simp] theorem peerAt_modifyPeer (c : WgConfig) (sect : ConfigSection)
    (f : PeerConfig → PeerConfig) : peerAt sect (modifyPeer c sect f) = (peerAt sect c).map f := by
  cases sect with
  | interface => rfl
  | peer i => simp [peerAt, modifyPeer]

theorem modifyPeer_others (c : WgConfig) (sect : ConfigSection) (f : PeerConfig → PeerConfig) :
    (modifyPeer c sect f).peers.length = c.peers.length ∧
      ∀ i, sect ≠ .peer i → (modifyPeer c sect f).peers[i]? = c.peers[i]? := by
  cases sect with
  | interface => exact ⟨rfl, fun _ _ => rfl⟩
  | peer j =>
    refine ⟨by simp [modifyPeer], fun i other => ?_⟩
    have apart : j ≠ i := fun same => other (congrArg ConfigSection.peer same)
    simp [modifyPeer, apart]

theorem parseOrZero_u16 {text : String} (valid : text = "" ∨ ∃ n : UInt16, Numeral text n.toNat) :
    (text = "" ∧ (parseOrZero (parseU16 text)).toNat = 0) ∨
      Numeral text (parseOrZero (parseU16 text)).toNat := by
  rcases valid with rfl | ⟨n, number⟩
  · exact .inl ⟨rfl, by decide⟩
  · right
    rw [parseU16_ok_iff.mpr number]
    exact number

theorem parseOrZero_u32 {text : String} (valid : text = "" ∨ ∃ n : UInt32, Numeral text n.toNat) :
    (text = "" ∧ (parseOrZero (parseU32 text)).toNat = 0) ∨
      Numeral text (parseOrZero (parseU32 text)).toNat := by
  rcases valid with rfl | ⟨n, number⟩
  · exact .inl ⟨rfl, by decide⟩
  · right
    rw [parseU32_ok_iff.mpr number]
    exact number

theorem parseU16_of_valid {text : String} (valid : text = "" ∨ ∃ n : UInt16, Numeral text n.toNat)
    (nonempty : text ≠ "") : (parseU16 text).toOption ≠ none := by
  obtain ⟨n, number⟩ := valid.resolve_left nonempty
  rw [parseU16_ok_iff.mpr number]
  exact Option.some_ne_none n

variable [Externals]

/-- Whatever is applied, the rest of the draft stays. -/
theorem clearField_applyField (field : EditableField) (value : String) (draft : WgConfig)
    (sect : ConfigSection) :
    clearField field sect (applyField field value draft sect) = clearField field sect draft := by
  cases field <;> first | rfl | exact modifyPeer_modifyPeer draft sect _ _

theorem applyField_others (field : EditableField) (value : String) (draft : WgConfig)
    (sect : ConfigSection) :
    (applyField field value draft sect).peers.length = draft.peers.length ∧
      ∀ i, sect ≠ .peer i → (applyField field value draft sect).peers[i]? = draft.peers[i]? := by
  cases field <;> first | exact ⟨rfl, fun _ _ => rfl⟩ | exact modifyPeer_others draft sect _

/-- The arm of the DNS servers cuts the text by itself, as `parse_comma_list` does. -/
theorem applyField_dns (value : String) (draft : WgConfig) (sect : ConfigSection) :
    applyField .dns value draft sect = modifyInterface draft fun i =>
      { i with dns := (parseCommaList value).filterMap Externals.parseIp } :=
  rfl

/-- The value a text denotes, which no parser is asked for. -/
def Denotes (field : EditableField) (text : String) (value : FieldValue) : Prop :=
  match field, value with
  | .listenPort, .number n | .mtu, .number n | .fwmark, .number n
  | .peerPersistentKeepalive, .number n => (text = "" ∧ n = 0) ∨ Numeral text n
  | .addresses, .items l | .dnsSearch, .items l | .preUp, .items l | .postUp, .items l
  | .preDown, .items l | .postDown, .items l | .peerAllowedIps, .items l => Lists ',' text l
  | .dns, .ips l =>
    ∃ tokens, Lists ',' text tokens ∧
      List.Forall₂ (fun token ip => Externals.parseIp token = some ip) tokens l
  | .peerName, .text t => t = text
  | .peerEndpoint, .optional e => e = if text = "" then none else some text
  | _, _ => False

/-- Tokens that all parse are none of them dropped. -/
theorem forall₂_filterMap {tokens : List String}
    (valid : ∀ token ∈ tokens, (Externals.parseIp token).isSome = true) :
    List.Forall₂ (fun token ip => Externals.parseIp token = some ip) tokens
      (tokens.filterMap Externals.parseIp) := by
  induction tokens with
  | nil => exact .nil
  | cons token tokens ih =>
    obtain ⟨here, rest⟩ := List.forall_mem_cons.mp valid
    obtain ⟨ip, parsed⟩ := Option.isSome_iff_exists.mp here
    rw [List.filterMap_cons_some parsed]
    exact .cons parsed (ih rest)

/-- A parser fails whose error `apply_field` passes over. -/
def FallsBack (field : EditableField) (text : String) : Prop :=
  match field with
  | .listenPort | .mtu | .peerPersistentKeepalive => (parseU16 text).toOption = none
  | .fwmark => (parseU32 text).toOption = none
  | .dns => ∃ tokens, Lists ',' text tokens ∧ ∃ token ∈ tokens, Externals.parseIp token = none
  | _ => False

theorem applyField_stores {field : EditableField} {text : String} {draft : WgConfig}
    {sect : ConfigSection} (other : field ≠ .peerPublicKey)
    (valid : validateField field text draft sect = .ok ()) :
    ∃ value, Denotes field text value ∧
      storedValue field sect (applyField field text draft sect) =
        (storedValue field sect draft).map fun _ => value := by
  cases field with
  | listenPort => exact ⟨.number _, parseOrZero_u16 (validateU16_ok_iff.mp valid), rfl⟩
  | mtu =>
    refine ⟨.number _, parseOrZero_u16 ?_, rfl⟩
    exact (validateMtu_ok_iff.mp valid).imp_right fun ⟨n, number, _⟩ => ⟨n, number⟩
  | fwmark => exact ⟨.number _, parseOrZero_u32 (validateFwmark_ok_iff.mp valid), rfl⟩
  | dns =>
    exact ⟨.ips _, ⟨_, lists_parseCommaList.mpr rfl,
      forall₂_filterMap (validateTokens_ok_iff.mp valid)⟩, rfl⟩
  | addresses | dnsSearch | preUp | postUp | preDown | postDown =>
    exact ⟨.items _, lists_parseCommaList.mpr rfl, rfl⟩
  | peerName => exact ⟨.text _, rfl, by simp [storedValue, applyField, Function.comp_def]⟩
  | peerPublicKey => exact absurd rfl other
  | peerEndpoint =>
    exact ⟨.optional _, rfl, by simp [storedValue, applyField, Function.comp_def]⟩
  | peerAllowedIps =>
    exact ⟨.items _, lists_parseCommaList.mpr rfl,
      by simp [storedValue, applyField, Function.comp_def]⟩
  | peerPersistentKeepalive =>
    exact ⟨.number _, parseOrZero_u16 (validateU16_ok_iff.mp valid),
      by simp [storedValue, applyField, Function.comp_def]⟩

/-- No fallback is taken, except for the empty text. -/
theorem not_fallsBack {field : EditableField} {text : String} {draft : WgConfig}
    {sect : ConfigSection} (valid : validateField field text draft sect = .ok ())
    (nonempty : text ≠ "") : ¬FallsBack field text := by
  cases field with
  | listenPort => exact parseU16_of_valid (validateU16_ok_iff.mp valid) nonempty
  | peerPersistentKeepalive => exact parseU16_of_valid (validateU16_ok_iff.mp valid) nonempty
  | mtu =>
    apply parseU16_of_valid _ nonempty
    exact (validateMtu_ok_iff.mp valid).imp_right fun ⟨n, number, _⟩ => ⟨n, number⟩
  | fwmark =>
    obtain ⟨n, number⟩ := (validateFwmark_ok_iff.mp valid).resolve_left nonempty
    rw [FallsBack, parseU32_ok_iff.mpr number]
    exact Option.some_ne_none n
  | dns =>
    rintro ⟨_, tokens, token, listed, dropped⟩
    obtain rfl := lists_parseCommaList.mp tokens
    have parsed := validateTokens_ok_iff.mp valid token listed
    simp [dropped] at parsed
  | _ => exact id

/-- Enter on a value that fails its check reports the error and does nothing else. -/
theorem dispatch_enter_rejected {s : AppState} {edit : ConfigEditState} {text : String}
    {e : ConfigEditError} (now : Clock) (control : Bool) (session : s.configEdit = some edit)
    (buffer : edit.editBuffer = some text)
    (rejected : validateField (focusedField edit) text edit.draft edit.focusedSection =
      .error e) :
    dispatch now (.configEditKey ⟨.enter, control⟩) s =
      some { s with configEdit := some { edit with fieldError := some e.display } } := by
  simp only [dispatch, inSession, session, configEditKey, typeIntoBuffer_enter, finishField, buffer,
    rejected]

/-- A valid text is stored as the value it denotes, where there is a place for it, and nothing
else changes; an invalid one is reported and nothing is stored. -/
theorem validated_value_stored :
    (∀ field text draft sect, field ≠ .peerPublicKey →
      validateField field text draft sect = .ok () →
      let after := applyField field text draft sect
      (∃ value, Denotes field text value ∧
        storedValue field sect after = (storedValue field sect draft).map fun _ => value) ∧
      (text ≠ "" → ¬FallsBack field text) ∧
      clearField field sect after = clearField field sect draft ∧
      after.peers.length = draft.peers.length ∧
      ∀ i, sect ≠ .peer i → after.peers[i]? = draft.peers[i]?) ∧
    (∀ now control (s : AppState) edit text e, s.configEdit = some edit →
      edit.editBuffer = some text →
      validateField (focusedField edit) text edit.draft edit.focusedSection = .error e →
      dispatch now (.configEditKey ⟨.enter, control⟩) s =
        some { s with configEdit := some { edit with fieldError := some e.display } }) := by
  refine ⟨fun field text draft sect other valid => ?_, fun now control s edit text e => ?_⟩
  · exact ⟨applyField_stores other valid, not_fallsBack valid,
      clearField_applyField field text draft sect, applyField_others field text draft sect⟩
  · exact dispatch_enter_rejected now control

end FerroWg.Tui
