import FerroWg.Tui.Target

/-!
# Where the cursor is

A session has its cursor on a field of a section, by their indices. Every action either leaves the
cursor and the peers alone or is one of those that put it somewhere.
-/

namespace FerroWg.Tui

open Lib

/-- The actions that put the cursor somewhere. -/
def Action.putsCursor : Action → Bool
  | .enterConfigEdit .. | .configFocusNext | .configFocusPrev | .configFocusInterface
  | .configFocusPeer _ | .addConfigPeer | .deleteConfigPeer _ | .confirmYes => true
  | _ => false

/-- The cursor and the count of peers are the same. A mark is taken from a peer only while the
cursor is at its key. -/
structure CursorKept (edit edit' : ConfigEditState) : Prop where
  sect : edit'.focusedSection = edit.focusedSection
  fieldIdx : edit'.focusedFieldIdx = edit.focusedFieldIdx
  peers : edit'.draft.peers.length = edit.draft.peers.length
  marks : edit'.newPeerIndices = edit.newPeerIndices ∨ edit.focusedFieldIdx = 0

/-- The key is the first field of the peers that have it. -/
theorem peerPublicKey_at {sect : ConfigSection} {new : Bool} {i : Nat}
    (here : fieldAt sect new i = .peerPublicKey) : i = 0 := by
  have first : peerFieldsNew[0]? = some .peerPublicKey := rfl
  have absent : EditableField.peerPublicKey ∉ interfaceFields ∧
      EditableField.peerPublicKey ∉ peerFieldsExisting := by decide
  have found : (fieldsForSection sect new)[i]? = some .peerPublicKey := by
    rw [fieldAt] at here
    cases place : (fieldsForSection sect new)[i]? with
    | none => rw [place] at here; cases here
    | some field => rw [place, Option.getD_some] at here; rw [here]
  cases sect with
  | interface => exact absurd (List.mem_of_getElem? found) absent.1
  | peer j =>
    cases new with
    | false => exact absurd (List.mem_of_getElem? found) absent.2
    | true =>
      obtain ⟨inside, _⟩ := List.getElem?_eq_some_iff.mp found
      exact (List.getElem?_inj inside (fieldsForSection_nodup (.peer j) true)).mp
        (found.trans first.symm)

namespace CursorKept

variable {edit edit' : ConfigEditState}

theorem refl (edit : ConfigEditState) : CursorKept edit edit := ⟨rfl, rfl, rfl, .inl rfl⟩

theorem of_fields (sect : edit'.focusedSection = edit.focusedSection)
    (fieldIdx : edit'.focusedFieldIdx = edit.focusedFieldIdx) (draft : edit'.draft = edit.draft)
    (marks : edit'.newPeerIndices = edit.newPeerIndices) : CursorKept edit edit' :=
  ⟨sect, fieldIdx, by rw [draft], .inl marks⟩

end CursorKept

variable [Externals]

theorem peers_applyField (field : EditableField) (value : String) (draft : WgConfig)
    (sect : ConfigSection) :
    (applyField field value draft sect).peers.length = draft.peers.length := by
  have modified (f : PeerConfig → PeerConfig) :
      (modifyPeer draft sect f).peers.length = draft.peers.length := by
    cases sect with
    | interface => rfl
    | peer i => exact List.length_modify _ _ _
  cases field with
  | peerName | peerEndpoint | peerAllowedIps | peerPersistentKeepalive => exact modified _
  | _ => rfl

theorem commitValue_cursor (edit : ConfigEditState) (value : String) :
    CursorKept edit (commitValue edit value) := by
  rw [commitValue]
  by_cases key : focusedField edit = .peerPublicKey
  · rw [if_pos key]
    have first : edit.focusedFieldIdx = 0 := peerPublicKey_at key
    cases here : edit.focusedSection with
    | interface => exact .of_fields rfl rfl rfl rfl
    | peer i =>
      refine ⟨here.symm ▸ rfl, rfl, ?_, .inr first⟩
      simp only [closeField]
      split
      · exact List.length_modify _ _ _
      · rfl
  · rw [if_neg key]
    exact ⟨rfl, rfl, peers_applyField _ _ _ _, .inl rfl⟩

theorem configEditKey_cursor {key : KeyEvent} {edit edit' : ConfigEditState} {s : AppState}
    (after : (configEditKey key edit s).configEdit = some edit') : CursorKept edit edit' := by
  rw [configEditKey, finishField] at after
  split at after
  · split at after
    · cases after
      have kept := commitValue_cursor (typeIntoBuffer key edit)
      exact ⟨(kept _).sect, (kept _).fieldIdx, (kept _).peers, (kept _).marks⟩
    · cases after
      exact .of_fields rfl rfl rfl rfl
  · cases after
    exact .of_fields rfl rfl rfl rfl
  · cases after
    exact .of_fields rfl rfl rfl rfl

theorem previewConfig_cursor {edit edit' : ConfigEditState} {s : AppState}
    (session : s.configEdit = some edit)
    (after : (previewConfig edit s).configEdit = some edit') : CursorKept edit edit' := by
  rw [previewConfig] at after
  split_ifs at after
  · cases after
    exact .of_fields rfl rfl rfl rfl
  · cases session.symm.trans after
    exact .refl edit
  · cases session.symm.trans after
    exact .refl edit

omit [Externals] in
theorem leaveEditField_cursor {edit' : ConfigEditState} {s : AppState}
    (after : (leaveEditField s).configEdit = some edit') :
    ∃ edit, s.configEdit = some edit ∧ CursorKept edit edit' := by
  rw [leaveEditField] at after
  split at after
  · obtain ⟨edit, session, rfl⟩ := Option.map_eq_some_iff.mp after
    exact ⟨edit, session, .of_fields rfl rfl rfl rfl⟩
  · exact ⟨edit', after, .refl edit'⟩

/-- A session after an action that puts the cursor nowhere. -/
theorem cursor_kept {now : Clock} {action : Action} {s t : AppState} {edit' : ConfigEditState}
    (leaves : action.putsCursor = false) (taken : dispatch now action s = some t)
    (after : t.configEdit = some edit') :
    ∃ edit, s.configEdit = some edit ∧ CursorKept edit edit' := by
  cases action with
  | enterConfigEdit | configFocusNext | configFocusPrev | configFocusInterface | configFocusPeer
  | addConfigPeer | deleteConfigPeer | confirmYes => cases leaves
  | nextTab | prevTab | selectTab =>
    cases taken
    exact leaveEditField_cursor after
  | saveConfig | discardConfigEdits =>
    cases taken
    cases after
  | configEditKey key =>
    cases taken
    rw [inSession] at after
    cases session : s.configEdit with
    | none =>
      rw [session] at after
      exact absurd (session.symm.trans after) (by simp)
    | some edit =>
      rw [session] at after
      exact ⟨edit, rfl, configEditKey_cursor after⟩
  | previewConfig =>
    cases taken
    rw [inSession] at after
    cases session : s.configEdit with
    | none =>
      rw [session] at after
      exact absurd (session.symm.trans after) (by simp)
    | some edit =>
      rw [session] at after
      exact ⟨edit, rfl, previewConfig_cursor session after⟩
  | _ =>
    have same : t.configEdit = s.configEdit :=
      dispatch_writes .session (by simp [Action.writes]) taken
    exact ⟨edit', same.symm.trans after, .refl edit'⟩

/-! ## A cursor on a field that exists -/

/-- The peer and the field that the cursor is on exist. -/
structure FocusExists (edit : ConfigEditState) : Prop where
  peer : ∀ j, edit.focusedSection = .peer j → j < edit.draft.peers.length
  field : OnField edit

omit [Externals]

theorem FocusExists.congr {edit edit' : ConfigEditState} (focus : FocusExists edit)
    (kept : CursorKept edit edit') : FocusExists edit' where
  peer j here := by
    rw [kept.sect] at here
    rw [kept.peers]
    exact focus.peer j here
  field := by
    have inside := focus.field
    rw [OnField, kept.fieldIdx]
    rcases kept.marks with same | first
    · have fields : focusedFields edit' = focusedFields edit := by
        rw [focusedFields, focusedFields, isNewFocus, isNewFocus, kept.sect, same]
      rw [fields]
      exact inside
    · rw [first]
      exact Nat.zero_lt_of_lt (one_lt_fields _ _)

/-- A cursor that is put on the first field of a section. -/
theorem focusExists_first {edit : ConfigEditState} (first : edit.focusedFieldIdx = 0)
    (peer : ∀ j, edit.focusedSection = .peer j → j < edit.draft.peers.length) :
    FocusExists edit := by
  refine ⟨peer, ?_⟩
  rw [OnField, first]
  exact Nat.zero_lt_of_lt (one_lt_fields _ _)

theorem focusNext_exists {edit : ConfigEditState} (focus : FocusExists edit) :
    FocusExists (focusNext edit) := by
  refine ⟨focus.peer, Nat.mod_lt _ ?_⟩
  exact Nat.zero_lt_of_lt (one_lt_fields _ _)

theorem focusPrev_exists {edit : ConfigEditState} (focus : FocusExists edit) :
    FocusExists (focusPrev edit) := by
  refine ⟨focus.peer, ?_⟩
  have inside := focus.field
  change (if edit.focusedFieldIdx = 0 then (focusedFields edit).length - 1
    else edit.focusedFieldIdx - 1) < (focusedFields edit).length
  rw [OnField] at inside
  split <;> omega

theorem addConfigPeer_exists (edit : ConfigEditState) : FocusExists (addConfigPeer edit) := by
  apply focusExists_first rfl
  intro j here
  obtain rfl := ConfigSection.peer.inj here
  simp [addConfigPeer]

/-- A clamp puts the cursor on a field whatever it was on. -/
theorem clampFocus_exists (edit : ConfigEditState) : FocusExists (clampFocus edit) := by
  rw [clampFocus]
  split
  case isTrue => exact focusExists_first rfl fun j here => by cases here
  case isFalse some_peer =>
    have some_peer : 0 < edit.draft.peers.length := List.length_pos_of_ne_nil some_peer
    constructor
    · intro j here
      simp only at here ⊢
      split at here <;> cases here
      omega
    · exact lt_of_le_of_lt (Nat.min_le_right _ _)
        (Nat.sub_lt (Nat.zero_lt_of_lt (one_lt_fields _ _)) Nat.one_pos)

theorem deleteConfigPeer_exists {edit : ConfigEditState} (focus : FocusExists edit) (i : Nat) :
    FocusExists (deleteConfigPeer i edit) := by
  rw [deleteConfigPeer]
  split
  · exact clampFocus_exists _
  · exact focus

/-- What it takes for a section to be one of a configuration. -/
def SectionIn (config : WgConfig) : ConfigSection → Prop
  | .interface => True
  | .peer j => j < config.peers.length

/-- An action that starts a session is for a field of the stored configuration, and one that
focuses a peer for one of the draft. -/
def NamesField (s : AppState) (label : Clock × Action) : Prop :=
  match label.2 with
  | .enterConfigEdit sect fieldIdx => ∀ conn, s.minVisible.bind s.findConnection = some conn →
    SectionIn conn.config sect ∧ fieldIdx < (fieldsForSection sect false).length
  | .configFocusPeer i => ∀ edit, s.configEdit = some edit → i < edit.draft.peers.length
  | _ => True

/-- The cursor of the session, if there is one, is on a field. -/
def CursorExists (s : AppState) : Prop := ∀ edit, s.configEdit = some edit → FocusExists edit

theorem cursorExists_editSession {s : AppState} (exist : CursorExists s)
    {f : ConfigEditState → ConfigEditState}
    (moved : ∀ edit, s.configEdit = some edit → FocusExists edit → FocusExists (f edit)) :
    CursorExists (editSession s f) := by
  intro edit' after
  obtain ⟨edit, session, rfl⟩ := Option.map_eq_some_iff.mp after
  exact moved edit session (exist edit session)

variable [Externals]

theorem enterConfigEdit_exists {sect : ConfigSection} {fieldIdx : Nat} {now : Clock}
    {s t : AppState} (exist : CursorExists s)
    (names : NamesField s (now, .enterConfigEdit sect fieldIdx))
    (taken : enterConfigEdit sect fieldIdx s = some t) : CursorExists t := by
  rw [enterConfigEdit] at taken
  cases least : s.minVisible with
  | none =>
    rw [least] at taken
    cases taken
    exact exist
  | some name =>
    rw [least] at taken
    cases found : s.findConnection name with
    | none => simp [found] at taken
    | some conn =>
      simp only [found] at taken
      cases taken
      have viewed : s.minVisible.bind s.findConnection = some conn := by
        rw [least, Option.bind_some, found]
      obtain ⟨inside, inField⟩ := names conn viewed
      intro edit' after
      cases after
      cases sect with
      | interface => exact ⟨fun j here => (by cases here), inField⟩
      | peer j =>
        refine ⟨fun k here => ?_, inField⟩
        cases here
        exact inside

theorem cursorExists_step {s t : AppState} (label : Clock × Action) (exist : CursorExists s)
    (names : NamesField s label) (taken : act s label = some t) : CursorExists t := by
  obtain ⟨now, action⟩ := label
  cases leaves : action.putsCursor with
  | false =>
    intro edit' after
    obtain ⟨edit, session, kept⟩ := cursor_kept leaves taken after
    exact (exist edit session).congr kept
  | true =>
    cases action with
    | enterConfigEdit => exact enterConfigEdit_exists exist names taken
    | configFocusNext =>
      cases taken
      exact cursorExists_editSession exist fun _ _ => focusNext_exists
    | configFocusPrev =>
      cases taken
      exact cursorExists_editSession exist fun _ _ => focusPrev_exists
    | configFocusInterface =>
      cases taken
      exact cursorExists_editSession exist fun _ _ _ =>
        focusExists_first rfl fun j here => by cases here
    | configFocusPeer i =>
      cases taken
      refine cursorExists_editSession exist fun edit session _ => focusExists_first rfl ?_
      intro j here
      cases here
      exact names edit session
    | addConfigPeer =>
      cases taken
      intro edit' after
      rw [inSession] at after
      cases session : s.configEdit with
      | none =>
        rw [session] at after
        exact absurd (session.symm.trans after) (by simp)
      | some edit =>
        rw [session] at after
        cases after
        exact addConfigPeer_exists edit
    | deleteConfigPeer i =>
      cases taken
      exact cursorExists_editSession exist fun _ _ focus => deleteConfigPeer_exists focus i
    | confirmYes =>
      cases taken
      rw [confirmYes]
      split
      · exact cursorExists_editSession exist fun _ _ focus => deleteConfigPeer_exists focus _
      · exact exist
    | _ => cases leaves

/-- What a cursor on a field comes to: Enter finds the field it is on, the count of fields that
Next divides by is not zero, and a commit finds its peer. -/
structure FocusDenotes (edit : ConfigEditState) : Prop where
  focus : FocusExists edit
  found : (focusedFields edit)[edit.focusedFieldIdx]? = some (focusedField edit)
  divides : (focusedFields edit).length ≠ 0
  written : ∀ j, edit.focusedSection = .peer j → ∃ peer, edit.draft.peers[j]? = some peer

omit [Externals] in
theorem FocusExists.denotes {edit : ConfigEditState} (focus : FocusExists edit) :
    FocusDenotes edit where
  focus := focus
  found := by
    rw [focusedField, List.getElem?_eq_getElem focus.field, Option.getD_some]
  divides := Nat.ne_of_gt (Nat.zero_lt_of_lt (one_lt_fields _ _))
  written j here := ⟨_, List.getElem?_eq_getElem (focus.peer j here)⟩

/-- Over any run whose actions name fields that exist, so does the cursor of every session. -/
theorem focus_denotes_field (config : AppConfig) (labels : List (Clock × Action))
    (names : Along act NamesField labels (.new config)) :
    Always act (fun s => ∀ edit, s.configEdit = some edit → FocusDenotes edit) labels
      (.new config) := by
  have exist : Always act CursorExists labels (.new config) :=
    always_of_along (fun label _ _ _ exist names taken => cursorExists_step label exist names taken)
      (fun _ session => by cases session) names
  exact exist.mono fun _ exist edit session => (exist edit session).denotes

open ImportSample in
omit [Externals] in
theorem focus_denotes_field_home :
    Always (@act externals) (fun s => ∀ edit, s.configEdit = some edit → FocusDenotes edit)
      [(⟨0, 0⟩, .enterConfigEdit .interface 9), (⟨0, 0⟩, .configFocusNext)] (.new home) :=
  @focus_denotes_field externals home _
    (fun _ _ => ⟨fun _ _ => ⟨trivial, by decide⟩, fun _ _ => ⟨trivial, trivial⟩⟩)

end FerroWg.Tui
