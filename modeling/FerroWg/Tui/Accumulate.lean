import FerroWg.Lib.Run
import FerroWg.Tui.Editor
import FerroWg.Tui.Tasks

/-!
# An editing session as the sum of its edits

The log of a session is a ghost: every edit it made, in order. A session ends with a save, a
discard or a change of the edited connection, and its draft should be the stored configuration
with the log replayed on it.
-/

namespace FerroWg.Tui

open Lib

/-- The edits of the session, and those that the shown preview was made from. -/
structure EditLog where
  edits : List Edit
  previewed : List Edit
  deriving DecidableEq

section

variable [Externals]

def replay (edits : List Edit) (stored : WgConfig) : WgConfig :=
  edits.foldl (fun draft e => e.apply draft) stored

theorem replay_append (first second : List Edit) (stored : WgConfig) :
    replay (first ++ second) stored = replay second (replay first stored) := List.foldl_append

def logStep (s : AppState) (label : Clock × Action) (log : EditLog) : EditLog :=
  match editorOp s label.2 with
  | .keep => log
  | .open name _ =>
    if s.configEdit.any (·.connectionName == name) then log else { log with edits := [] }
  | .edit e => { log with edits := log.edits ++ [e] }
  | .preview => { log with previewed := log.edits }
  | .close => ⟨[], []⟩

def logged : AppState × EditLog → Clock × Action → Option (AppState × EditLog) :=
  instrument act logStep

/-- A draft is what the log makes of the stored configuration. -/
def Replays (s : AppState) (edits : List Edit) (name : String) (draft : WgConfig) : Prop :=
  ∃ stored, s.stored name = some stored ∧ draft = replay edits stored

/-- The session, the preview made from it and the file saved from that have all edits. -/
structure Accumulates (s : AppState × EditLog) : Prop where
  session : ∀ edit, s.1.configEdit = some edit →
    Replays s.1 s.2.edits edit.connectionName edit.draft
  preview : ∀ pending, s.1.configDiffPending = some pending →
    Replays s.1 s.2.previewed pending.connectionName pending.draft
  saved : ∀ pending, s.1.configDiffPending = some pending → ∀ io disk p config message,
    (trySaveConfig io disk pending.connectionName pending.draft p).2 =
      .reloadConfig config message →
    ∃ draft text, Replays s.1 s.2.previewed pending.connectionName draft ∧
      config.get pending.connectionName = some draft ∧
      Externals.appToToml config = .ok text ∧
      (trySaveConfig io disk pending.connectionName pending.draft p).1 p = some (.text text)

/-- A field is not opened on the edited connection while the draft has changes. -/
def NoReopening (s : AppState) (label : Clock × Action) : Prop :=
  ∀ sect fieldIdx, label.2 = .enterConfigEdit sect fieldIdx → ∀ edit, s.configEdit = some edit →
    s.minVisible = some edit.connectionName → s.stored edit.connectionName = some edit.draft

/-- What there is to prove, in the editor's terms. -/
structure Replayed (s : AppState) (log : EditLog) : Prop where
  session : ∀ session, s.editor.session = some session →
    Replays s log.edits session.connectionName session.draft
  preview : ∀ preview, s.editor.preview = some preview →
    Replays s log.previewed preview.1 preview.2

theorem accumulates_iff {s : AppState × EditLog} : Accumulates s ↔ Replayed s.1 s.2 := by
  constructor
  · intro holds
    constructor
    · intro session there
      obtain ⟨edit, opened, rfl⟩ := Option.map_eq_some_iff.mp there
      exact holds.session edit opened
    · intro preview there
      obtain ⟨pending, shown, rfl⟩ := Option.map_eq_some_iff.mp there
      exact holds.preview pending shown
  · intro holds
    have preview (pending : ConfigDiffPending) (shown : s.1.configDiffPending = some pending) :=
      holds.preview _ (Option.map_eq_some_iff.mpr ⟨pending, shown, rfl⟩)
    refine ⟨fun edit opened => holds.session _ (Option.map_eq_some_iff.mpr ⟨edit, opened, rfl⟩),
      preview, fun pending shown io disk p config message saved => ?_⟩
    obtain ⟨inserted, text, encoded, written⟩ := trySaveConfig_reload saved
    exact ⟨_, text, preview pending shown, inserted, encoded, written⟩

theorem noReopening_iff {s : AppState} {label : Clock × Action}
    (known : ∀ session, s.editor.session = some session →
      ∃ stored, s.stored session.connectionName = some stored) :
    NoReopening s label ↔ ∀ name config, editorOp s label.2 = .open name config →
      ∀ session, s.editor.session = some session → session.connectionName = name →
        session.draft = config := by
  constructor
  · rintro clean name config opens session there rfl
    obtain ⟨⟨sect, fieldIdx, enters⟩, visible, stored⟩ := editorOp_open_iff.mp opens
    obtain ⟨edit, opened, rfl⟩ := Option.map_eq_some_iff.mp there
    have same := clean sect fieldIdx enters edit opened visible
    exact Option.some.inj (same.symm.trans stored)
  · intro clean sect fieldIdx enters edit opened visible
    have there := editor_session opened
    obtain ⟨stored, found⟩ := known _ there
    have opens := editorOp_open_iff.mpr ⟨⟨sect, fieldIdx, enters⟩, visible, found⟩
    rw [← clean _ _ opens _ there rfl] at found
    exact found

/-- After opening, the log fits when it is new, or when replaying it makes no difference. -/
theorem replays_opened {s : AppState} {log : EditLog} (holds : Replayed s log) {name : String}
    {config : WgConfig} (stored : s.stored name = some config) :
    Replays s (if s.configEdit.any (·.connectionName == name) then log else
        { log with edits := [] }).edits name config ↔
      ∀ session, s.editor.session = some session → session.connectionName = name →
        session.draft = config := by
  cases opened : s.configEdit with
  | none =>
    refine iff_of_true ⟨config, stored, by simp [replay]⟩ fun session there => ?_
    simp [AppState.editor, opened] at there
  | some edit =>
    have there := editor_session opened
    by_cases same : edit.connectionName = name
    · subst same
      obtain ⟨stored', found, draft⟩ := holds.session _ there
      obtain rfl : config = stored' := Option.some.inj (stored.symm.trans found)
      simp only [Option.any_some, beq_self_eq_true, if_true, there, Option.some.injEq,
        forall_eq', ConfigEditState.session, true_imp_iff]
      constructor
      · rintro ⟨again, found', replayed⟩
        obtain rfl : config = again := Option.some.inj (stored.symm.trans found')
        exact draft.trans replayed.symm
      · intro unchanged
        exact ⟨config, stored, unchanged.symm.trans draft⟩
    · refine iff_of_true ⟨config, stored, by simp [replay, same]⟩ fun session there' named => ?_
      obtain rfl : edit.session = session := Option.some.inj (there.symm.trans there')
      exact absurd named same

/-- A session that is opened anew starts from what is stored; the log does not. -/
theorem replayed_step {s next : AppState} {label : Clock × Action} {log : EditLog}
    (holds : Replayed s log) (taken : act s label = some next) :
    Replayed next (logStep s label log) ↔ NoReopening s label := by
  have refined := editor_dispatch taken
  have stored := stored_dispatch taken
  have moved (edits : List Edit) (name : String) (draft : WgConfig) :
      Replays next edits name draft ↔ Replays s edits name draft := by
    rw [Replays, Replays, stored]
  have known (session : Session) (there : s.editor.session = some session) :
      ∃ config, s.stored session.connectionName = some config := by
    obtain ⟨config, found, _⟩ := holds.session session there
    exact ⟨config, found⟩
  rw [noReopening_iff known]
  have split : Replayed next (logStep s label log) ↔
      (∀ session, next.editor.session = some session →
        Replays s (logStep s label log).edits session.connectionName session.draft) ∧
      (∀ preview, next.editor.preview = some preview →
        Replays s (logStep s label log).previewed preview.1 preview.2) := by
    simp only [← moved]
    exact ⟨fun h => ⟨h.session, h.preview⟩, fun h => ⟨h.1, h.2⟩⟩
  rw [split, refined]
  rw [logStep]
  cases op : editorOp s label.2 with
  | keep => exact iff_of_true ⟨holds.session, holds.preview⟩ (by simp)
  | close => exact iff_of_true ⟨nofun, nofun⟩ (by simp)
  | preview =>
    refine iff_of_true ⟨holds.session, fun preview shown => ?_⟩ (by simp)
    obtain ⟨session, there, rfl⟩ := Option.map_eq_some_iff.mp shown
    exact holds.session session there
  | edit e =>
    refine iff_of_true ⟨fun session edited => ?_, holds.preview⟩ (by simp)
    obtain ⟨before, there, rfl⟩ := Option.map_eq_some_iff.mp edited
    obtain ⟨config, found, draft⟩ := holds.session before there
    refine ⟨config, found, ?_⟩
    rw [replay_append, ← draft]
    rfl
  | «open» name config =>
    have stored := (editorOp_open_iff.mp op).2.2
    have fits := replays_opened holds stored
    simp only [Editor.step, Option.some.injEq, forall_eq', EditorOp.open.injEq, and_imp]
    constructor
    · rintro ⟨opened, _⟩ _ _ rfl rfl
      exact fits.mp opened
    · intro clean
      refine ⟨fits.mpr (clean name config rfl rfl), ?_⟩
      split <;> exact holds.preview

theorem accumulates_step {s next : AppState × EditLog} {label : Clock × Action}
    (holds : Accumulates s) (taken : logged s label = some next) :
    Accumulates next ↔ NoReopening s.1 label := by
  obtain ⟨stepped, ghost⟩ := instrument_some.mp taken
  rw [accumulates_iff, ghost]
  exact replayed_step (accumulates_iff.mp holds) stepped

/-- Over any run, sessions add up exactly when none is opened again over its own changes. -/
theorem edits_accumulate_iff (config : AppConfig) (labels : List (Clock × Action)) :
    Always logged Accumulates labels (.new config, ⟨[], []⟩) ↔
      Along act NoReopening labels (.new config) := by
  rw [← along_instrument act logStep NoReopening labels (.new config, ⟨[], []⟩)]
  refine always_iff_along (fun _ _ _ _ (_ : True) _ _ => trivial)
    (fun _ _ _ _ _ holds taken => accumulates_step holds taken) trivial ?_
  exact ⟨nofun, nofun, nofun⟩

end

open ImportSample in
/-- A port is entered, and then another field is opened: the log has the port, the draft not. -/
theorem reopening_loses_port :
    let labels : List (Clock × Action) :=
      [(⟨0, 0⟩, .enterConfigEdit .interface 0), (⟨0, 0⟩, .configEditKey ⟨.char '1', false⟩),
        (⟨0, 0⟩, .configEditKey ⟨.enter, false⟩), (⟨0, 0⟩, .enterConfigEdit .interface 4)]
    ((run (@logged externals) labels (.new home, ⟨[], []⟩)).bind fun s =>
        s.1.configEdit.map fun edit => (edit.draft.interface.listenPort, s.2.edits)) =
      some (0, [.setField .listenPort .interface "1"]) ∧
    ¬ Always (@logged externals) (@Accumulates externals) labels (.new home, ⟨[], []⟩) := by
  intro labels
  have last : ((run (@logged externals) labels (.new home, ⟨[], []⟩)).bind fun s =>
      s.1.configEdit.map fun edit => (edit.draft.interface.listenPort, s.2.edits)) =
        some (0, [.setField .listenPort .interface "1"]) := by decide +kernel
  refine ⟨last, fun always => ?_⟩
  obtain ⟨final, reached, shown⟩ := Option.bind_eq_some_iff.mp last
  obtain ⟨edit, opened, seen⟩ := Option.map_eq_some_iff.mp shown
  have holds := (always_iff_reached _ _ labels _).mp always labels [] (by simp) final reached
  obtain ⟨stored, _, draft⟩ := @Accumulates.session externals final holds edit opened
  obtain ⟨port, edits⟩ := Prod.mk.inj seen
  rw [draft, edits] at port
  simp only [replay, List.foldl_cons, List.foldl_nil, Edit.apply, applyField, modifyInterface] at port
  exact absurd port (by decide +kernel)

end FerroWg.Tui
