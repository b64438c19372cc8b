import FerroWg.Tui.State

/-!
# What an action writes

The parts of the state that an action may write, and that it leaves all others alone.
-/

namespace FerroWg.Tui

inductive Part where
  | mode
  | session
  | preview
  | connections
  | visible
  | flag
  | history
  | search
  | log
  | toasts
  | progress
  | results
  deriving DecidableEq, Repr

/-- A state that is the same in one part. -/
def Part.Same (s t : AppState) : Part → Prop
  | .mode => t.inputMode = s.inputMode
  | .session => t.configEdit = s.configEdit
  | .preview => t.configDiffPending = s.configDiffPending
  | .connections => t.connections = s.connections
  | .visible => t.visibleConnections = s.visibleConnections
  | .flag => t.benchmarkRunning = s.benchmarkRunning
  | .history => t.benchmarkHistory = s.benchmarkHistory
  | .search => t.searchQuery = s.searchQuery
  | .log => t.logEntries = s.logEntries
  | .toasts => t.toasts = s.toasts
  | .progress => t.benchmarkProgressHistory = s.benchmarkProgressHistory
  | .results => t.benchmarkResults = s.benchmarkResults

def Action.writes : Action → List Part
  | .exitSearch | .enterImport | .importKey _ | .submitImport | .exitImport | .enterExport
  | .exportKey _ | .submitExport | .exitExport => [.mode]
  | .enterSearch | .clearSearch => [.mode, .search]
  | .searchInput _ | .searchBackspace => [.search]
  | .nextTab | .prevTab | .selectTab _ | .enterConfigEdit .. | .configEditKey _
  | .addConfigPeer => [.mode, .session]
  | .configFocusNext | .configFocusPrev | .configFocusInterface | .configFocusPeer _
  | .deleteConfigPeer _ | .confirmYes => [.session]
  | .previewConfig | .saveConfig _ => [.session, .preview]
  | .configDiffScrollDown | .configDiffScrollUp => [.preview]
  | .discardConfigEdits => [.mode, .session, .preview]
  | .updatePeers _ => [.connections]
  | .toggleConnectionVisibility _ => [.visible]
  | .startBenchmark | .startBenchmarkForBackend _ => [.flag, .toasts, .progress, .results]
  | .benchmarkProgressUpdate _ => [.progress]
  | .daemonOk _ | .daemonError _ => [.toasts]
  | .benchmarkComplete _ => [.flag, .history, .results]
  | _ => []

theorem leaveEditField_writes (part : Part) (untouched : part ∉ [Part.mode, .session])
    (s : AppState) : part.Same s (leaveEditField s) := by
  rw [leaveEditField]
  cases part with
  | mode | session => simp at untouched
  | _ => split <;> rfl

variable [Externals]

theorem enterConfigEdit_writes (part : Part) (untouched : part ∉ [Part.mode, .session])
    {sect : ConfigSection} {fieldIdx : Nat} {s t : AppState}
    (taken : enterConfigEdit sect fieldIdx s = some t) : part.Same s t := by
  rw [enterConfigEdit] at taken
  cases part with
  | mode | session => simp at untouched
  | _ =>
    split at taken <;> try split at taken
    all_goals cases taken
    all_goals rfl

theorem configEditKey_writes (part : Part) (untouched : part ∉ [Part.mode, .session])
    (key : KeyEvent) (edit : ConfigEditState) (s : AppState) :
    part.Same s (configEditKey key edit s) := by
  rw [configEditKey, finishField]
  cases part with
  | mode | session => simp at untouched
  | _ => split <;> try split
         all_goals rfl

theorem previewConfig_writes (part : Part) (untouched : part ∉ [Part.session, .preview])
    (edit : ConfigEditState) (s : AppState) : part.Same s (previewConfig edit s) := by
  rw [previewConfig]
  cases part with
  | session | preview => simp at untouched
  | _ => split_ifs <;> rfl

theorem dispatch_writes (part : Part) {now : Clock} {action : Action} {s t : AppState}
    (untouched : part ∉ action.writes) (taken : dispatch now action s = some t) :
    part.Same s t := by
  cases action with
  | nextTab | prevTab | selectTab =>
    cases taken
    have left := leaveEditField_writes part untouched s
    cases part <;> exact left
  | startBenchmark | startBenchmarkForBackend =>
    cases taken
    rw [startBenchmark]
    cases part with
    | flag | toasts | progress | results => simp [Action.writes] at untouched
    | _ => split <;> rfl
  | benchmarkComplete =>
    simp only [dispatch, benchmarkComplete] at taken
    cases part with
    | flag | history | results => simp [Action.writes] at untouched
    | _ => split at taken <;> cases taken; rfl
  | importKey | exportKey =>
    simp only [dispatch] at taken
    cases part with
    | mode => simp [Action.writes] at untouched
    | _ => split at taken <;> cases taken <;> rfl
  | enterConfigEdit => exact enterConfigEdit_writes part untouched taken
  | configEditKey key =>
    cases taken
    rw [inSession]
    split
    · cases part <;> rfl
    · exact configEditKey_writes part untouched key _ s
  | addConfigPeer =>
    cases taken
    rw [inSession]
    cases part with
    | mode | session => simp [Action.writes] at untouched
    | _ => split <;> rfl
  | previewConfig =>
    cases taken
    rw [inSession]
    split
    · cases part <;> rfl
    · exact previewConfig_writes part untouched _ s
  | confirmYes =>
    cases taken
    rw [confirmYes]
    cases part with
    | session => simp [Action.writes] at untouched
    | _ => split <;> rfl
  | _ =>
    cases taken
    cases part <;> first | rfl | simp [Action.writes] at untouched

end FerroWg.Tui
