import FerroWg.Import
import FerroWg.Lib.Run
import FerroWg.Tui.Writes

/-!
# The mode and the open buffer

A field is edited while the mode says so and a buffer is open. Which of the two an action writes
differs from handler to handler; those that move between tabs write both.
-/

namespace FerroWg.Tui

open Lib

/-- What is being typed into a field of the configuration. -/
def AppState.openBuffer (s : AppState) : Option String := s.configEdit.bind (·.editBuffer)

def ModeAgrees (s : AppState) : Prop := s.inputMode = .editField ↔ s.openBuffer.isSome

/-- The actions that set the mode, or drop the session, and forget about the other. -/
def Action.forgetsField : Action → Bool
  | .enterSearch | .exitSearch | .clearSearch | .enterImport | .submitImport | .exitImport
  | .enterExport | .submitExport | .exitExport | .saveConfig _ => true
  | _ => false

/-- No field is being edited when such an action comes. -/
def NoFieldForgotten (s : AppState) (label : Clock × Action) : Prop :=
  label.2.forgetsField → s.inputMode ≠ .editField

variable {s t : AppState}

theorem ModeAgrees.congr (agrees : ModeAgrees s) (mode : t.inputMode = s.inputMode)
    (buffer : t.openBuffer.isSome = s.openBuffer.isSome) : ModeAgrees t := by
  rw [ModeAgrees]
  rw [mode, buffer]
  exact agrees

theorem modeAgrees_closed (mode : t.inputMode ≠ .editField) (buffer : t.openBuffer = none) :
    ModeAgrees t :=
  iff_of_false mode (by simp [buffer])

theorem modeAgrees_open (mode : t.inputMode = .editField) {value : String}
    (buffer : t.openBuffer = some value) : ModeAgrees t :=
  iff_of_true mode (by simp [buffer])

/-- A mode for something else agrees just when no buffer was open. -/
theorem modeAgrees_away (agrees : ModeAgrees s) (mode : t.inputMode ≠ .editField)
    (buffer : t.openBuffer = s.openBuffer) : ModeAgrees t ↔ s.inputMode ≠ .editField := by
  rw [ModeAgrees] at agrees ⊢
  rw [buffer, ← agrees]
  simp [mode]

/-- A session that is gone agrees just when the mode was another one. -/
theorem modeAgrees_dropped (mode : t.inputMode = s.inputMode) (session : t.configEdit = none) :
    ModeAgrees t ↔ s.inputMode ≠ .editField := by
  simp [ModeAgrees, AppState.openBuffer, mode, session]

theorem editSession_openBuffer {f : ConfigEditState → ConfigEditState}
    (kept : ∀ edit, (f edit).editBuffer = edit.editBuffer) (s : AppState) :
    (editSession s f).openBuffer = s.openBuffer := by
  cases session : s.configEdit with
  | none => simp [AppState.openBuffer, editSession, session]
  | some edit => simp [AppState.openBuffer, editSession, session, kept]

theorem leaveEditField_agrees (agrees : ModeAgrees s) : ModeAgrees (leaveEditField s) := by
  rw [leaveEditField]
  split
  · apply modeAgrees_closed (by simp)
    cases session : s.configEdit <;> simp [AppState.openBuffer, editSession, session, closeField]
  · exact agrees

theorem clampFocus_editBuffer (edit : ConfigEditState) :
    (clampFocus edit).editBuffer = edit.editBuffer := by
  rw [clampFocus]
  split <;> rfl

theorem deleteConfigPeer_editBuffer (i : Nat) (edit : ConfigEditState) :
    (deleteConfigPeer i edit).editBuffer = edit.editBuffer := by
  rw [deleteConfigPeer]
  split
  · exact clampFocus_editBuffer _
  · rfl

variable [Externals]

theorem configEditKey_agrees {edit : ConfigEditState} (key : KeyEvent)
    (session : s.configEdit = some edit) (agrees : ModeAgrees s) :
    ModeAgrees (configEditKey key edit s) := by
  have before : s.openBuffer = edit.editBuffer := by simp [AppState.openBuffer, session]
  have typed : (typeIntoBuffer key edit).editBuffer.isSome = edit.editBuffer.isSome := by
    simp [typeIntoBuffer]
  have kept (after : ConfigEditState) (same : after.editBuffer.isSome = edit.editBuffer.isSome) :
      ModeAgrees { s with configEdit := some after } :=
    agrees.congr rfl (by rw [before]; exact same)
  rw [configEditKey, finishField]
  split
  · split
    · exact modeAgrees_closed (by simp) rfl
    · exact kept _ typed
  · exact modeAgrees_closed (by simp) rfl
  · exact kept _ typed

theorem enterConfigEdit_agrees {sect : ConfigSection} {fieldIdx : Nat}
    (taken : enterConfigEdit sect fieldIdx s = some t) (agrees : ModeAgrees s) : ModeAgrees t := by
  rw [enterConfigEdit] at taken
  split at taken
  · cases taken
    exact agrees
  · split at taken <;> cases taken
    exact modeAgrees_open rfl rfl

theorem previewConfig_agrees {edit : ConfigEditState} (session : s.configEdit = some edit)
    (agrees : ModeAgrees s) : ModeAgrees (previewConfig edit s) := by
  have before : s.openBuffer = edit.editBuffer := by simp [AppState.openBuffer, session]
  rw [previewConfig]
  split_ifs
  · exact agrees.congr rfl (by rw [before]; rfl)
  · exact agrees
  · exact agrees.congr rfl rfl

/-- An action keeps the two in step unless it forgets a field that is being edited. -/
theorem modeAgrees_dispatch {now : Clock} {action : Action} (agrees : ModeAgrees s)
    (taken : dispatch now action s = some t) :
    ModeAgrees t ↔ NoFieldForgotten s (now, action) := by
  cases forgets : action.forgetsField with
  | true =>
    simp only [NoFieldForgotten, forgets, forall_const]
    cases action with
    | enterSearch | exitSearch | clearSearch | enterImport | submitImport | exitImport
    | enterExport | submitExport | exitExport =>
      cases taken
      exact modeAgrees_away agrees (by simp) rfl
    | saveConfig reconnect =>
      cases taken
      exact modeAgrees_dropped rfl rfl
    | _ => cases forgets
  | false =>
    refine iff_of_true ?_ (by simp [NoFieldForgotten, forgets])
    cases action with
    | nextTab | prevTab | selectTab =>
      cases taken
      exact (leaveEditField_agrees agrees).congr rfl rfl
    | importKey | exportKey =>
      simp only [dispatch] at taken
      split at taken <;> cases taken
      · rename_i mode
        refine modeAgrees_closed (by simp) (Option.not_isSome_iff_eq_none.mp fun isOpen => ?_)
        rw [agrees.mpr isOpen] at mode
        cases mode
      · exact agrees
    | enterConfigEdit => exact enterConfigEdit_agrees taken agrees
    | configEditKey key =>
      cases taken
      rw [inSession]
      cases session : s.configEdit with
      | none => exact agrees
      | some edit => exact configEditKey_agrees key session agrees
    | addConfigPeer =>
      cases taken
      rw [inSession]
      cases session : s.configEdit with
      | none => exact agrees
      | some edit => exact modeAgrees_open rfl rfl
    | configFocusNext | configFocusPrev | configFocusInterface | configFocusPeer =>
      cases taken
      refine agrees.congr rfl (congrArg _ (editSession_openBuffer (fun edit => ?_) s))
      rfl
    | deleteConfigPeer i =>
      cases taken
      exact agrees.congr rfl (congrArg _ (editSession_openBuffer (deleteConfigPeer_editBuffer i) s))
    | confirmYes =>
      cases taken
      rw [confirmYes]
      split
      · rename_i i _
        exact agrees.congr rfl
          (congrArg _ (editSession_openBuffer (deleteConfigPeer_editBuffer i) _))
      · exact agrees.congr rfl rfl
    | previewConfig =>
      cases taken
      rw [inSession]
      cases session : s.configEdit with
      | none => exact agrees
      | some edit => exact previewConfig_agrees session agrees
    | discardConfigEdits =>
      cases taken
      exact modeAgrees_closed (by simp) rfl
    | enterSearch | exitSearch | clearSearch | enterImport | submitImport | exitImport
    | enterExport | submitExport | exitExport | saveConfig => cases forgets
    | _ =>
      have mode := dispatch_writes .mode (by simp [Action.writes]) taken
      have session := dispatch_writes .session (by simp [Action.writes]) taken
      exact agrees.congr mode (congrArg (fun e => (e.bind (·.editBuffer)).isSome) session)

theorem mode_agrees_iff (config : AppConfig) (actions : List (Clock × Action)) :
    Always act ModeAgrees actions (.new config) ↔ Along act NoFieldForgotten actions (.new config) :=
  always_iff_of_step (fun _ _ _ agrees taken => modeAgrees_dispatch agrees taken) actions
    (modeAgrees_closed (by simp [AppState.new]) rfl)

open ImportSample in
omit [Externals] in
/-- A search from within a field leaves its buffer open, out of reach of the keys. -/
theorem search_hides_buffer :
    ¬ Always (@act externals) ModeAgrees
      [(⟨0, 0⟩, .enterConfigEdit .interface 0), (⟨0, 0⟩, .enterSearch)] (.new home) := by
  intro always
  have hidden : ((@run _ _ (@act externals) [(⟨0, 0⟩, .enterConfigEdit .interface 0),
      (⟨0, 0⟩, .enterSearch)] (.new home)).map fun s => (s.inputMode, s.openBuffer.isSome)) =
      some (.search, true) := by decide +kernel
  obtain ⟨s, reached, shown⟩ := Option.map_eq_some_iff.mp hidden
  have agrees := always.last reached
  obtain ⟨mode, buffer⟩ := Prod.mk.inj shown
  have editing := agrees.mpr buffer
  rw [mode] at editing
  cases editing

end FerroWg.Tui
