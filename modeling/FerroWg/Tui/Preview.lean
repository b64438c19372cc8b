import FerroWg.Lib.Run
import FerroWg.Tui.Editor
import FerroWg.Tui.Tasks

/-!
# What the preview lets through to the file

The preview is the only gate between the editor and the file. It looks at keys and at the
shown error, not at the configuration as a whole, which the next load will.
-/

namespace FerroWg.Tui

open Lib

section

variable [Externals]

/-- The preview shows a configuration that can be saved to a file that loads, and the file
still loads afterwards. -/
def PreviewSaves (s : AppState) : Prop :=
  ∀ pending, s.configDiffPending = some pending →
    pending.draft.validate = .ok () ∧
    ∀ io disk p existing, io.writeError p = none → loadAppConfig io disk p = .ok existing →
      ∃ after, loadAppConfig .clean
        (trySaveConfig io disk pending.connectionName pending.draft p).1 p = .ok after

/-- When the preview opens, the draft is a valid configuration. -/
def PreviewsValid (s : AppState) (label : Clock × Action) : Prop :=
  label.2 = .previewConfig → ∀ edit, s.configEdit = some edit → previewGate edit = true →
    edit.draft.validate = .ok ()

/-- Names that reach the file are names of loaded connections. -/
structure NamesValid (s : AppState) : Prop where
  stored : ∀ name config, s.stored name = some config → ValidName name
  session : ∀ session, s.editor.session = some session → ValidName session.connectionName
  preview : ∀ preview, s.editor.preview = some preview → ValidName preview.1

theorem namesValid_new {config : AppConfig} (valid : config.validate = .ok ()) :
    NamesValid (.new config) where
  stored name conn found := by
    rw [stored_new] at found
    exact (((AppConfig.validate_ok_iff config).mp valid).2 name conn found).1
  session _ none := by cases none
  preview _ none := by cases none

/-- The names follow the editor: a session has a stored one, a preview has the session's. -/
theorem namesValid_act {s next : AppState} {label : Clock × Action} (names : NamesValid s)
    (taken : act s label = some next) : NamesValid next := by
  have refined := editor_dispatch taken
  have stored : ∀ name config, next.stored name = some config → ValidName name :=
    stored_dispatch taken ▸ names.stored
  cases op : editorOp s label.2 <;> rw [op] at refined
  case keep => exact ⟨stored, refined ▸ names.session, refined ▸ names.preview⟩
  case close =>
    exact ⟨stored, fun _ none => by simp [refined, Editor.step] at none,
      fun _ none => by simp [refined, Editor.step] at none⟩
  case «open» name config =>
    refine ⟨stored, fun session opened => ?_, refined ▸ names.preview⟩
    rw [refined] at opened
    cases opened
    exact names.stored name config (editorOp_open_iff.mp op).2.2
  case edit e =>
    refine ⟨stored, fun session edited => ?_, refined ▸ names.preview⟩
    rw [refined] at edited
    obtain ⟨before, there, rfl⟩ := Option.map_eq_some_iff.mp edited
    exact names.session before there
  case preview =>
    refine ⟨stored, refined ▸ names.session, fun shown previewed => ?_⟩
    rw [refined] at previewed
    obtain ⟨session, there, rfl⟩ := Option.map_eq_some_iff.mp previewed
    exact names.session session there

theorem previewSaves_iff (roundTrip : TomlRoundTrip) {s : AppState} (names : NamesValid s) :
    PreviewSaves s ↔ ∀ preview, s.editor.preview = some preview → preview.2.validate = .ok () := by
  have view : s.editor.preview = s.configDiffPending.map fun p => (p.connectionName, p.draft) := rfl
  constructor
  · intro saves preview there
    obtain ⟨pending, shown, rfl⟩ := Option.map_eq_some_iff.mp (view ▸ there)
    exact (saves pending shown).1
  · intro valid pending shown
    have there : s.editor.preview = some (pending.connectionName, pending.draft) := by
      rw [view, shown]; rfl
    refine ⟨valid _ there, fun io disk p existing writable loaded => ?_⟩
    exact trySaveConfig_loads roundTrip writable loaded (names.preview _ there) (valid _ there)

theorem previewsValid_iff {s : AppState} {label : Clock × Action} :
    PreviewsValid s label ↔ (editorOp s label.2 = .preview →
      ∀ session, s.editor.session = some session → session.draft.validate = .ok ()) := by
  rw [editorOp_preview_iff]
  constructor
  · rintro valid ⟨previews, edit, there, gate⟩ session same
    have view := editor_session there
    obtain rfl : edit.session = session := Option.some.inj (view.symm.trans same)
    exact valid previews edit there gate
  · intro valid previews edit there gate
    have view := editor_session there
    exact valid ⟨previews, edit, there, gate⟩ edit.session view

/-- One step: only opening the preview puts a new draft before the file. -/
theorem previewSaves_act (roundTrip : TomlRoundTrip) {s next : AppState} {label : Clock × Action}
    (names : NamesValid s) (saves : PreviewSaves s) (taken : act s label = some next) :
    PreviewSaves next ↔ PreviewsValid s label := by
  have refined := editor_dispatch taken
  rw [previewSaves_iff roundTrip (namesValid_act names taken), previewsValid_iff]
  rw [previewSaves_iff roundTrip names] at saves
  by_cases previews : editorOp s label.2 = .preview
  · rw [refined, previews]
    simp only [Editor.step, Option.map_eq_some_iff, true_imp_iff]
    constructor
    · intro valid session there
      exact valid _ ⟨session, there, rfl⟩
    · rintro valid _ ⟨session, there, rfl⟩
      exact valid session there
  · refine iff_of_true ?_ (fun h => absurd h previews)
    cases op : editorOp s label.2 <;> rw [refined, op]
    case preview => exact absurd op previews
    case close => intro _ none; cases none
    all_goals exact saves

/-- From a configuration that loads, the preview never shows what the loader would refuse
exactly when it is only ever opened on a draft that validates. -/
theorem preview_saves_iff (roundTrip : TomlRoundTrip) (config : AppConfig)
    (valid : config.validate = .ok ()) (labels : List (Clock × Action)) :
    Always act PreviewSaves labels (.new config) ↔ Along act PreviewsValid labels (.new config) :=
  always_iff_along (fun _ _ _ _ names taken _ => namesValid_act names taken)
    (fun _ _ _ _ names saves taken => previewSaves_act roundTrip names saves taken)
    (namesValid_new valid) (fun _ none => by cases none)

end

open ImportSample in
/-- Opening a field and previewing the stored configuration. -/
theorem preview_saves_home :
    Always (@act externals) (@PreviewSaves externals)
      [(⟨0, 0⟩, .enterConfigEdit .interface 0), (⟨0, 0⟩, .previewConfig)] (.new home) := by
  apply (@preview_saves_iff externals roundTrip home (by decide +kernel) _).mpr
  refine fun opened taken => ⟨nofun, fun _ _ => ⟨fun _ edit there _ => ?_, trivial⟩⟩
  have draft : (@act externals (.new home) (⟨0, 0⟩, .enterConfigEdit .interface 0)).map
      (fun s => s.configEdit.map (·.draft)) = some (some (wgNamed "home")) := by decide +kernel
  rw [taken, Option.map_some, there, Option.map_some, Option.some.injEq, Option.some.injEq] at draft
  rw [draft]
  decide +kernel

open ImportSample in
/-- Deleting the only peer and previewing what is left. -/
theorem preview_without_peers :
    @AppConfig.validate externals home = .ok () ∧
    ((run (@act externals)
        [(⟨0, 0⟩, .enterConfigEdit .interface 0), (⟨0, 0⟩, .deleteConfigPeer 0),
          (⟨0, 0⟩, .previewConfig)] (.new home)).bind fun s =>
      s.configDiffPending.map fun pending => @WgConfig.validate externals pending.draft) =
        some (.error (.missingField "peers")) := by
  decide +kernel

end FerroWg.Tui
