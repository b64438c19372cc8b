import FerroWg.Tui.Writes

/-!
# The editor, abstractly

What an editing session is for: a draft that starts as a stored configuration and takes one
edit after another, and a preview of it. Dispatch refines this machine step by step; where
the cursor is and what is being typed do not appear in it.
-/

namespace FerroWg.Tui

/-- A change of the draft. -/
inductive Edit where
  | setField (field : EditableField) (sect : ConfigSection) (value : String)
  | setKey (i : Nat) (value : String)
  | addPeer
  | deletePeer (i : Nat)
  deriving DecidableEq, Repr

structure Session where
  connectionName : String
  draft : WgConfig
  unconfirmed : Finset Nat
  deriving DecidableEq

structure Editor where
  session : Option Session
  preview : Option (String × WgConfig)
  deriving DecidableEq

inductive EditorOp where
  | keep
  | open (name : String) (stored : WgConfig)
  | edit (e : Edit)
  | preview
  | close
  deriving DecidableEq

section

variable [Externals]

def Edit.apply (e : Edit) (draft : WgConfig) : WgConfig :=
  match e with
  | .setField field sect value => applyField field value draft sect
  | .setKey i value =>
    match PublicKey.fromBase64 value with
    | .ok key => setPublicKey draft i key
    | .error _ => draft
  | .addPeer => { draft with peers := draft.peers ++ [newPeer] }
  | .deletePeer i => { draft with peers := draft.peers.eraseIdx i }

/-- The peers without a key after the edit. -/
def Edit.mark (e : Edit) (draft : WgConfig) (unconfirmed : Finset Nat) : Finset Nat :=
  match e with
  | .setField .. => unconfirmed
  | .setKey i _ => unconfirmed.erase i
  | .addPeer => insert draft.peers.length unconfirmed
  | .deletePeer i => shiftIndices i unconfirmed

def Session.edit (e : Edit) (s : Session) : Session :=
  { s with draft := e.apply s.draft, unconfirmed := e.mark s.draft s.unconfirmed }

def Editor.step (ed : Editor) : EditorOp → Editor
  | .keep => ed
  | .open name stored => { ed with session := some ⟨name, stored, ∅⟩ }
  | .edit e => { ed with session := ed.session.map (Session.edit e) }
  | .preview => { ed with preview := ed.session.map fun s => (s.connectionName, s.draft) }
  | .close => ⟨none, none⟩

/-- What is written when the value of the field in focus is accepted. -/
def commitEdit (edit : ConfigEditState) (value : String) : Edit :=
  match focusedField edit, edit.focusedSection with
  | .peerPublicKey, .peer i => .setKey i value
  | field, sect => .setField field sect value

/-- A key commits when it is Enter, in an open field, on a value that passes its check. -/
def committed (key : KeyEvent) (edit : ConfigEditState) : Option Edit :=
  match key.code, edit.editBuffer with
  | .enter, some value =>
    match validateField (focusedField edit) value edit.draft edit.focusedSection with
    | .ok () => some (commitEdit edit value)
    | .error _ => none
  | _, _ => none

/-- The preview opens when no added peer lacks its key and no error is shown. -/
def previewGate (edit : ConfigEditState) : Bool :=
  edit.newPeerIndices = ∅ && edit.fieldError.isNone

def deleteOp (edit : ConfigEditState) (i : Nat) : EditorOp :=
  if i < edit.draft.peers.length then .edit (.deletePeer i) else .keep

def sessionOp (edit : ConfigEditState) (confirm : Option ConfirmPending) : Action → EditorOp
  | .configEditKey key => ((committed key edit).map EditorOp.edit).getD .keep
  | .addConfigPeer => .edit .addPeer
  | .deleteConfigPeer i => deleteOp edit i
  | .confirmYes =>
    match confirm with
    | some ⟨_, .deletePeer i⟩ => deleteOp edit i
    | _ => .keep
  | .previewConfig => if previewGate edit then .preview else .keep
  | _ => .keep

/-- What an action means to the editor in a given state. -/
def editorOp (s : AppState) (action : Action) : EditorOp :=
  match action with
  | .enterConfigEdit _ _ =>
    match s.minVisible.bind s.findConnection with
    | some conn => .open conn.name conn.config
    | none => .keep
  | .saveConfig _ | .discardConfigEdits => .close
  | action =>
    match s.configEdit with
    | some edit => sessionOp edit s.pendingConfirm action
    | none => .keep

end

def ConfigEditState.session (edit : ConfigEditState) : Session :=
  ⟨edit.connectionName, edit.draft, edit.newPeerIndices⟩

namespace AppState

def editor (s : AppState) : Editor :=
  ⟨s.configEdit.map ConfigEditState.session,
    s.configDiffPending.map fun p => (p.connectionName, p.draft)⟩

/-- The configuration the interface has for a connection. -/
def stored (s : AppState) (name : String) : Option WgConfig :=
  (s.findConnection name).map (·.config)

end AppState

theorem editor_session {edit : ConfigEditState} {s : AppState}
    (opened : s.configEdit = some edit) : s.editor.session = some edit.session := by
  rw [AppState.editor, opened]
  rfl

@[simp] theorem clampFocus_session (edit : ConfigEditState) :
    (clampFocus edit).session = edit.session := by
  rw [clampFocus]
  split <;> rfl

/-- An edit of the focus, the buffer or the messages is none of the draft. -/
theorem editSession_editor (f : ConfigEditState → ConfigEditState)
    (silent : ∀ edit, (f edit).session = edit.session) (s : AppState) :
    (editSession s f).editor = s.editor := by
  have same : ConfigEditState.session ∘ f = ConfigEditState.session := funext silent
  simp [AppState.editor, editSession, same]

theorem leaveEditField_editor (s : AppState) : (leaveEditField s).editor = s.editor := by
  rw [leaveEditField]
  split
  · exact editSession_editor closeField (fun _ => rfl) s
  · rfl

theorem scrollDiff_editor (f : Nat → Nat) (s : AppState) : (scrollDiff s f).editor = s.editor := by
  simp only [AppState.editor, scrollDiff, Option.map_map]
  rfl

/-- The actions that reach the editor. -/
def Action.edits : Action → Bool
  | .enterConfigEdit .. | .configEditKey _ | .addConfigPeer | .deleteConfigPeer _
  | .previewConfig | .saveConfig _ | .discardConfigEdits | .confirmYes => true
  | _ => false

variable [Externals]

theorem commitValue_session (edit : ConfigEditState) (value : String) :
    (commitValue edit value).session = edit.session.edit (commitEdit edit value) := by
  rw [commitValue, commitEdit]
  cases field : focusedField edit <;> cases sect : edit.focusedSection <;> rfl

theorem deleteConfigPeer_session (edit : ConfigEditState) (i : Nat) :
    (deleteConfigPeer i edit).session =
      if i < edit.draft.peers.length then edit.session.edit (.deletePeer i) else edit.session := by
  rw [deleteConfigPeer]
  split
  · rw [clampFocus_session]; rfl
  · rfl

/-- Both ways to delete a peer are the same operation. -/
theorem deleteConfigPeer_editor (s : AppState) (i : Nat) :
    (editSession s (deleteConfigPeer i)).editor =
      s.editor.step (match s.configEdit with
        | some edit => deleteOp edit i
        | none => .keep) := by
  unfold AppState.editor editSession
  cases s.configEdit with
  | none => rfl
  | some edit =>
    simp only [Option.map_some, deleteConfigPeer_session, deleteOp]
    split <;> rfl

theorem configEditKey_editor (key : KeyEvent) {edit : ConfigEditState} {s : AppState}
    (session : s.configEdit = some edit) :
    (configEditKey key edit s).editor =
      s.editor.step (((committed key edit).map EditorOp.edit).getD .keep) := by
  have before : s.editor = ⟨some edit.session, s.editor.preview⟩ := by
    simp [AppState.editor, session]
  obtain ⟨code, control⟩ := key
  rw [before, configEditKey]
  by_cases enter : code = .enter
  · subst enter
    rw [typeIntoBuffer_enter]
    rw [finishField, committed]
    cases edit.editBuffer with
    | none => rfl
    | some value =>
      cases valid : validateField (focusedField edit) value edit.draft edit.focusedSection with
      | error e => simp only [valid]; rfl
      | ok _ =>
        simp only [valid, Option.map_some, Option.getD_some, Editor.step, ← commitValue_session]
        rfl
  · have untouched : committed ⟨code, control⟩ edit = none := by
      rw [committed]
      split
      · contradiction
      · rfl
    rw [untouched, finishField]
    split
    · contradiction
    · rfl
    · rfl

theorem enterConfigEdit_editor {sect : ConfigSection} {fieldIdx : Nat} {s next : AppState}
    (taken : enterConfigEdit sect fieldIdx s = some next) :
    next.editor = s.editor.step (editorOp s (.enterConfigEdit sect fieldIdx)) := by
  rw [enterConfigEdit] at taken
  rw [editorOp]
  cases least : s.minVisible with
  | none => rw [least] at taken; cases taken; rfl
  | some name =>
    rw [least] at taken
    simp only [Option.bind_some]
    cases found : s.findConnection name with
    | none => simp [found] at taken
    | some conn => simp only [found] at taken; cases taken; rfl

theorem previewConfig_editor {edit : ConfigEditState} {s : AppState}
    (session : s.configEdit = some edit) :
    (previewConfig edit s).editor =
      s.editor.step (if previewGate edit then .preview else .keep) := by
  rw [previewConfig, previewGate]
  by_cases marks : edit.newPeerIndices = ∅
  · cases error : edit.fieldError with
    | some e => simp [marks, Editor.step]
    | none => simp [marks, Editor.step, AppState.editor, session, ConfigEditState.session]
  · simp [marks, Editor.step, AppState.editor, session, ConfigEditState.session]

theorem editorOp_keep {action : Action} (silent : action.edits = false) (s : AppState) :
    editorOp s action = .keep := by
  cases action with
  | enterConfigEdit | configEditKey | addConfigPeer | deleteConfigPeer | previewConfig
  | saveConfig | discardConfigEdits | confirmYes => cases silent
  | _ => unfold editorOp; cases s.configEdit <;> rfl

theorem editor_kept {now : Clock} {action : Action} {s next : AppState}
    (silent : action.edits = false) (taken : dispatch now action s = some next) :
    next.editor = s.editor := by
  cases action with
  | nextTab | prevTab | selectTab => cases taken; exact leaveEditField_editor s
  | configFocusNext | configFocusPrev | configFocusInterface | configFocusPeer =>
    cases taken
    refine editSession_editor _ (fun edit => ?_) s
    rfl
  | configDiffScrollDown | configDiffScrollUp => cases taken; exact scrollDiff_editor _ s
  | enterConfigEdit | configEditKey | addConfigPeer | deleteConfigPeer | previewConfig
  | saveConfig | discardConfigEdits | confirmYes => cases silent
  | _ =>
    have session : next.configEdit = s.configEdit :=
      dispatch_writes .session (by simp [Action.writes]) taken
    have preview : next.configDiffPending = s.configDiffPending :=
      dispatch_writes .preview (by simp [Action.writes]) taken
    rw [AppState.editor, session, preview]
    rfl

theorem confirmYes_editor (s : AppState) :
    (confirmYes s).editor = s.editor.step (editorOp s .confirmYes) := by
  have other (idle : ∀ edit, sessionOp edit s.pendingConfirm .confirmYes = .keep) :
      editorOp s .confirmYes = .keep := by
    unfold editorOp
    cases s.configEdit with
    | none => rfl
    | some edit => exact idle edit
  unfold confirmYes
  split
  · rename_i pending
    rw [deleteConfigPeer_editor]
    simp only [editorOp, sessionOp, pending]
    rfl
  · rename_i notDelete
    rw [other]
    · rfl
    · intro edit
      simp only [sessionOp]

/-- Dispatch refines the editor. -/
theorem editor_dispatch {now : Clock} {action : Action} {s next : AppState}
    (taken : dispatch now action s = some next) :
    next.editor = s.editor.step (editorOp s action) := by
  cases reaches : action.edits with
  | false =>
    rw [editor_kept reaches taken, editorOp_keep reaches]
    rfl
  | true =>
    cases action with
    | enterConfigEdit sect fieldIdx => exact enterConfigEdit_editor taken
    | saveConfig | discardConfigEdits => cases taken; rfl
    | deleteConfigPeer i => cases taken; exact deleteConfigPeer_editor s i
    | confirmYes => cases taken; exact confirmYes_editor s
    | configEditKey key =>
      cases taken
      unfold editorOp inSession
      cases session : s.configEdit with
      | none => rfl
      | some edit => exact configEditKey_editor key session
    | addConfigPeer =>
      cases taken
      unfold editorOp inSession
      cases session : s.configEdit with
      | none => rfl
      | some edit => simp only [AppState.editor, session]; rfl
    | previewConfig =>
      cases taken
      unfold editorOp inSession
      cases session : s.configEdit with
      | none => rfl
      | some edit => exact previewConfig_editor session
    | _ => cases reaches

/-! ## The stored configurations -/

omit [Externals] in
theorem find_named {connections : List ConnectionView} {name : String} {c : ConnectionView}
    (found : connections.find? (fun c => c.name == name) = some c) : c.name = name := by
  simpa using List.find?_some found

/-- A status update changes no name and no configuration. -/
theorem updateConnection_stored (connections : List ConnectionView) (status : PeerStatus) :
    (updateConnection connections status).map (fun c => (c.name, c.config)) =
      connections.map fun c => (c.name, c.config) := by
  induction connections with
  | nil => rfl
  | cons c rest ih =>
    rw [updateConnection]
    split
    · rfl
    · simp [ih]

theorem updateConnections_stored (statuses : List PeerStatus) (connections : List ConnectionView) :
    (statuses.foldl updateConnection connections).map (fun c => (c.name, c.config)) =
      connections.map fun c => (c.name, c.config) := by
  induction statuses generalizing connections with
  | nil => rfl
  | cons status rest ih => exact (ih _).trans (updateConnection_stored connections status)

omit [Externals] in
theorem stored_eq_of_map {s t : AppState}
    (same : s.connections.map (fun c => (c.name, c.config)) =
      t.connections.map fun c => (c.name, c.config)) : s.stored = t.stored := by
  funext name
  have through (u : AppState) : u.stored name =
      ((u.connections.map fun c => (c.name, c.config)).find? (fun c => c.1 == name)).map
        Prod.snd := by
    simp [AppState.stored, AppState.findConnection, List.find?_map, Function.comp_def]
  rw [through, through, same]

/-- Only a status update touches the connections at all. -/
theorem connections_dispatch {now : Clock} {action : Action} {s next : AppState}
    (taken : dispatch now action s = some next) :
    (∃ statuses, action = .updatePeers statuses) ∨ next.connections = s.connections := by
  cases action with
  | updatePeers statuses => exact .inl ⟨statuses, rfl⟩
  | _ => exact .inr (dispatch_writes .connections (by simp [Action.writes]) taken)

/-- No action changes the stored configurations; only a reload does. -/
theorem stored_dispatch {now : Clock} {action : Action} {s next : AppState}
    (taken : dispatch now action s = some next) : next.stored = s.stored := by
  apply stored_eq_of_map
  rcases connections_dispatch taken with ⟨statuses, rfl⟩ | same
  · cases taken
    exact updateConnections_stored statuses s.connections
  · rw [same]

theorem sessionOp_ne_open (edit : ConfigEditState) (confirm : Option ConfirmPending)
    (action : Action) (name : String) (config : WgConfig) :
    sessionOp edit confirm action ≠ .open name config := by
  have delete (i : Nat) : deleteOp edit i ≠ .open name config := by
    unfold deleteOp; split <;> simp
  unfold sessionOp
  split
  · cases committed _ edit <;> simp
  · simp
  · exact delete _
  · split
    · exact delete _
    · simp
  · split <;> simp
  · simp

/-- A session is opened on the least visible name, on a copy of what is stored for it. -/
theorem editorOp_open_iff {action : Action} {s : AppState} {name : String} {config : WgConfig} :
    editorOp s action = .open name config ↔
      (∃ sect fieldIdx, action = .enterConfigEdit sect fieldIdx) ∧
        s.minVisible = some name ∧ s.stored name = some config := by
  constructor
  · intro opens
    unfold editorOp at opens
    split at opens
    · split at opens
      · rename_i conn chosen
        cases opens
        obtain ⟨least, visible, found⟩ := Option.bind_eq_some_iff.mp chosen
        have named : conn.name = least := find_named found
        exact ⟨⟨_, _, rfl⟩, named ▸ visible, by rw [AppState.stored, named, found]; rfl⟩
      · cases opens
    · cases opens
    · cases opens
    · split at opens
      · exact (sessionOp_ne_open _ _ _ _ _ opens).elim
      · cases opens
  · rintro ⟨⟨sect, fieldIdx, rfl⟩, visible, there⟩
    obtain ⟨conn, found, rfl⟩ := Option.map_eq_some_iff.mp there
    have named : conn.name = name := find_named found
    simp [editorOp, visible, found, named]

/-- What the handlers check before the draft changes. -/
def Edit.Allowed (e : Edit) (session : Session) : Prop :=
  match e with
  | .setField field sect value =>
    field ≠ .peerPublicKey ∧ validateField field value session.draft sect = .ok ()
  | .setKey i value => i ∈ session.unconfirmed ∧ validatePublicKey value = .ok ()
  | .addPeer => True
  | .deletePeer i => i < session.draft.peers.length

omit [Externals] in
/-- The key field is in the form of a peer that was added, and in no other. -/
theorem focusedField_key {edit : ConfigEditState} (key : focusedField edit = .peerPublicKey) :
    ∃ i, edit.focusedSection = .peer i ∧ i ∈ edit.newPeerIndices := by
  have listed : .peerPublicKey ∈ focusedFields edit := by
    rw [focusedField] at key
    cases at' : (focusedFields edit)[edit.focusedFieldIdx]? with
    | none => simp [at'] at key
    | some field =>
      rw [at', Option.getD_some] at key
      exact key ▸ List.mem_of_getElem? at'
  unfold focusedFields fieldsForSection isNewFocus at listed
  cases focus : edit.focusedSection with
  | interface => simp [focus, interfaceFields] at listed
  | peer i =>
    refine ⟨i, rfl, ?_⟩
    by_contra unmarked
    simp [focus, unmarked, peerFieldsExisting] at listed

theorem committed_allowed {key : KeyEvent} {edit : ConfigEditState} {e : Edit}
    (commits : committed key edit = some e) : e.Allowed edit.session := by
  rw [committed] at commits
  split at commits
  · rename_i value _ _
    cases valid : validateField (focusedField edit) value edit.draft edit.focusedSection with
    | error e => simp [valid] at commits
    | ok _ =>
      simp only [valid, Option.some.injEq] at commits
      subst commits
      rw [commitEdit]
      by_cases key : focusedField edit = .peerPublicKey
      · obtain ⟨i, focus, marked⟩ := focusedField_key key
        rw [key] at valid
        simp only [key, focus]
        exact ⟨marked, valid⟩
      · split
        · contradiction
        · exact ⟨key, valid⟩
  · cases commits

omit [Externals] in
theorem getD_keep {o : Option Edit} {e : Edit} :
    (o.map EditorOp.edit).getD .keep = .edit e ↔ o = some e := by
  cases o <;> simp

theorem editorOp_edit {action : Action} {s : AppState} {e : Edit}
    (edits : editorOp s action = .edit e) :
    ∃ session, s.editor.session = some session ∧ e.Allowed session := by
  unfold editorOp at edits
  split at edits
  · split at edits <;> cases edits
  · cases edits
  · cases edits
  · split at edits
    · rename_i edit opened
      have delete (i : Nat) (deletes : deleteOp edit i = .edit e) : e.Allowed edit.session := by
        rw [deleteOp] at deletes
        split at deletes <;> cases deletes
        assumption
      refine ⟨edit.session, editor_session opened, ?_⟩
      unfold sessionOp at edits
      split at edits
      · exact committed_allowed (getD_keep.mp edits)
      · cases edits; trivial
      · exact delete _ edits
      · split at edits
        · exact delete _ edits
        · cases edits
      · split at edits <;> cases edits
      · cases edits
    · cases edits

theorem editorOp_preview_iff {action : Action} {s : AppState} :
    editorOp s action = .preview ↔
      action = .previewConfig ∧ ∃ edit, s.configEdit = some edit ∧ previewGate edit = true := by
  have delete (edit : ConfigEditState) (i : Nat) : deleteOp edit i ≠ .preview := by
    unfold deleteOp; split <;> simp
  constructor
  · intro previews
    unfold editorOp at previews
    split at previews
    · split at previews <;> cases previews
    · cases previews
    · cases previews
    · split at previews
      · rename_i edit session
        unfold sessionOp at previews
        split at previews
        · cases h : committed _ edit <;> rw [h] at previews <;> cases previews
        · cases previews
        · exact (delete _ _ previews).elim
        · split at previews
          · exact (delete _ _ previews).elim
          · cases previews
        · split at previews
          · exact ⟨rfl, edit, session, ‹_›⟩
          · cases previews
        · cases previews
      · cases previews
  · rintro ⟨rfl, edit, session, gate⟩
    simp [editorOp, session, sessionOp, gate]

omit [Externals] in
/-- A new state stores the loaded configuration. -/
theorem stored_new (config : AppConfig) : (AppState.new config).stored = config.get := by
  funext name
  have entry (conf : WgConfig) :
      config.get name = some conf ↔ (name, conf) ∈ config.connections.toList := by
    rw [AppConfig.get, Std.ExtTreeMap.mem_toList_iff_getElem?_eq_some]
  simp only [AppState.stored, AppState.findConnection, AppState.new, connectionViews,
    List.find?_map, Option.map_map, Function.comp_def]
  cases found : config.connections.toList.find? (fun c => c.1 == name) with
  | none =>
    cases there : config.get name with
    | none => rfl
    | some conf =>
      have absent := List.find?_eq_none.mp found _ ((entry conf).mp there)
      simp at absent
  | some c =>
    have named : c.1 = name := by simpa using List.find?_some found
    have there := (entry c.2).mpr (named ▸ List.mem_of_find?_eq_some found)
    rw [there]
    rfl

end FerroWg.Tui
