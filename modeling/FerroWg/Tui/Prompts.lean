import FerroWg.Tui.Benchmarks
import FerroWg.Tui.Mouse

/-!
# Lines that are typed

A search, the file to import and the file to export to are typed on the status bar, key by key.
Meanwhile messages arrive, tasks go on and the mouse moves; none of that gets into the line, and
none of its keys anywhere else.
-/

namespace FerroWg.Tui

open Lib

inductive Prompt where
  | search
  | import
  | export
  deriving DecidableEq, Repr

/-- The line that is being typed. -/
def AppState.line (s : AppState) : Option (Prompt × String) :=
  match s.inputMode with
  | .search => some (.search, s.searchQuery)
  | .import buffer => some (.import, buffer)
  | .export buffer => some (.export, buffer)
  | .normal | .editField => none

def KeyEvent.endsLine (key : KeyEvent) : Bool := key.code = .enter || key.code = .esc

/-- The task of a line that is entered. -/
def lineTasks (prompt : Prompt) (text : String) (runs : List BenchmarkRun) : List Effect :=
  match prompt with
  | .search => []
  | .import => [.importFile text]
  | .export => [.exportRuns text runs]

/-- The tasks that a line is handed to. -/
def Effect.takesLine : Effect → Bool
  | .importFile _ | .exportRuns .. => true
  | _ => false

def Action.opens : Action → Option Prompt
  | .enterSearch => some .search
  | .enterImport => some .import
  | .enterExport => some .export
  | _ => none

/-- What the status bar makes of keys. -/
def Action.editsLine : Action → Bool
  | .exitSearch | .searchBackspace | .searchInput _ | .exitImport | .submitImport | .importKey _
  | .exitExport | .submitExport | .exportKey _ => true
  | _ => false

/-- A key that is typed into a line: the line and the mode are all that changes, and Enter hands
the line to its task. -/
structure TypedOn (key : KeyEvent) (prompt : Prompt) (text : String) (s t : AppState)
    (effects : List Effect) : Prop where
  line : t.line = if key.endsLine then none else some (prompt, typeKey key text)
  search : t.searchQuery = if prompt = .search then typeKey key s.searchQuery else s.searchQuery
  frame : t = { s with inputMode := t.inputMode, searchQuery := t.searchQuery }
  effects : effects = if key.code = .enter then lineTasks prompt text s.benchmarkHistory else []

variable {s t : AppState}

/-- What is shown above the tab depends on four fields. -/
theorem AppState.Alone.congr (alone : s.Alone) (help : t.showHelp = s.showHelp)
    (filter : t.showConnectionFilter = s.showConnectionFilter)
    (diff : t.configDiffPending = s.configDiffPending)
    (confirm : t.pendingConfirm = s.pendingConfirm) : t.Alone :=
  ⟨help.trans alone.help, filter.trans alone.filter, diff.trans alone.diff,
    confirm.trans alone.confirm⟩

theorem TypedOn.alone {key : KeyEvent} {prompt : Prompt} {text : String} {effects : List Effect}
    (typed : TypedOn key prompt text s t effects) (alone : s.Alone) : t.Alone := by
  rw [typed.frame]
  exact alone.congr rfl rfl rfl rfl

/-! ## A key in a line -/

theorem statusBar_editsLine {key : KeyEvent} {action : Action}
    (made : statusBarHandleKey key s = some action) : action.editsLine = true := by
  rw [statusBarHandleKey] at made
  split at made <;> try split at made
  all_goals cases made
  all_goals rfl

theorem Action.editsLine_followUp {action : Action} (edits : action.editsLine = true) :
    followUp action s = none ∧ maybeSpawnCommand action t = [] := by
  cases action <;> first | exact ⟨rfl, rfl⟩ | cases edits

/-- What the status bar passes over leaves the line as it is. -/
theorem statusBar_passes {prompt : Prompt} {text : String} (typing : s.line = some (prompt, text))
    {key : KeyEvent} (made : statusBarHandleKey key s = none) : TypedOn key prompt text s s [] := by
  rcases key with ⟨code, control⟩
  cases mode : s.inputMode with
  | normal | editField => simp [AppState.line, mode] at typing
  | «import» | «export» =>
    simp only [statusBarHandleKey, mode] at made
    split at made <;> cases made
  | search =>
    simp only [AppState.line, mode, Option.some.injEq, Prod.mk.injEq] at typing
    obtain ⟨rfl, rfl⟩ := typing
    simp only [statusBarHandleKey, mode] at made
    split at made <;> cases made
    constructor
    · cases code <;> simp_all [AppState.line, KeyEvent.endsLine, typeKey]
    · cases code <;> simp_all [typeKey]
    · rfl
    · simp [lineTasks]

section

variable [Externals]

theorem Action.editsLine_update {action : Action} (edits : action.editsLine = true)
    (bundle : ComponentBundle) : bundle.update action s = some bundle := by
  cases action with
  | exitSearch | searchBackspace | searchInput | exitImport | submitImport | importKey | exitExport
  | submitExport | exportKey =>
    simp [ComponentBundle.update, ConfigComponent.update, TableState.update, connectionFilterUpdate]
  | _ => cases edits

/-- What the status bar makes of a key, as the state machine takes it. -/
theorem statusBar_typed {prompt : Prompt} {text : String} (typing : s.line = some (prompt, text))
    {key : KeyEvent} {action : Action} (made : statusBarHandleKey key s = some action)
    {now : Clock} (taken : dispatch now action s = some t) :
    TypedOn key prompt text s t (submittedTasks action s t) := by
  rcases key with ⟨code, control⟩
  cases mode : s.inputMode with
  | normal | editField => simp [AppState.line, mode] at typing
  | search =>
    simp only [AppState.line, mode, Option.some.injEq, Prod.mk.injEq] at typing
    obtain ⟨rfl, rfl⟩ := typing
    simp only [statusBarHandleKey, mode] at made
    split at made <;> cases made <;> cases taken
    all_goals refine ⟨?_, rfl, rfl, rfl⟩
    all_goals simp only [AppState.line, mode]
    all_goals rfl
  | «import» | «export» =>
    simp only [AppState.line, mode, Option.some.injEq, Prod.mk.injEq] at typing
    obtain ⟨rfl, rfl⟩ := typing
    simp only [statusBarHandleKey, mode] at made
    split at made <;> cases made <;> simp only [dispatch, mode] at taken <;> cases taken
    all_goals constructor
    all_goals simp_all [AppState.line, KeyEvent.endsLine, lineTasks, submittedTasks,
      AppState.importBuffer, AppState.exportBuffer]

theorem resolveKey_typing {l : Loop} {prompt : Prompt} {text : String}
    (alone : l.state.Alone) (typing : l.state.line = some (prompt, text)) (key : KeyEvent) :
    resolveKey key l = some (l.bundle, statusBarHandleKey key l.state) := by
  rw [AppState.line] at typing
  rw [resolveKey, alone.help, alone.filter, alone.diff, alone.confirm]
  cases mode : l.state.inputMode <;> simp_all

/-- Whoever else would have a use for the key, it goes into the line. -/
theorem handleKeyEvent_typing {now : Clock} {key : KeyEvent} {l : Loop} {o : Outcome}
    {prompt : Prompt} {text : String} (alone : l.state.Alone)
    (typing : l.state.line = some (prompt, text)) (done : handleKeyEvent now key l = some o) :
    TypedOn key prompt text l.state o.loop.state o.effects ∧ o.loop.bundle = l.bundle := by
  have resolves := resolveKey_typing alone typing key
  obtain ⟨bundle, resolved, rfl⟩ | ⟨bundle, action, performed, resolved, performs, rfl⟩ :=
    handleKeyEvent_cases done
  · obtain ⟨rfl, made⟩ := Prod.mk.inj (Option.some.inj (resolves.symm.trans resolved))
    exact ⟨statusBar_passes typing made, rfl⟩
  · obtain ⟨rfl, made⟩ := Prod.mk.inj (Option.some.inj (resolves.symm.trans resolved))
    have edits := statusBar_editsLine made
    rw [(Action.editsLine_followUp (t := l.state) edits).1] at performs
    obtain ⟨next, later, taken, rest, rfl⟩ := performEach_cons.mp performs
    cases rest
    have typed := statusBar_typed typing made (dispatchAll_state taken)
    obtain ⟨state, _, updated⟩ := Option.bind_eq_some_iff.mp taken
    rw [Action.editsLine_update edits] at updated
    cases updated
    rw [(Action.editsLine_followUp (s := l.state) edits).2]
    exact ⟨typed, rfl⟩

/-! ## A key elsewhere -/

omit [Externals] in
/-- What is shown above the tab neither opens a line nor has to do with one. -/
theorem overlay_closed {key : KeyEvent} {action : Action}
    (made : helpOverlayHandleKey key s = some action ∨ diffPreviewHandleKey key s = some action ∨
      confirmDialogHandleKey key s = some action) :
    action.opens = none ∧ action.editsLine = false := by
  rcases made with made | made | made
  · rw [helpOverlayHandleKey] at made
    split at made <;> try split at made
    all_goals cases made
    all_goals exact ⟨rfl, rfl⟩
  · rw [diffPreviewHandleKey] at made
    split at made <;> try split at made
    all_goals cases made
    all_goals exact ⟨rfl, rfl⟩
  · rw [confirmDialogHandleKey] at made
    obtain ⟨p, _, rfl⟩ := Option.map_eq_some_iff.mp made
    split <;> exact ⟨rfl, rfl⟩

theorem connectionFilter_closed {key : KeyEvent} {table : TableState} {action : Action}
    (made : connectionFilterHandleKey key s table = some action) :
    action.opens = none ∧ action.editsLine = false := by
  rw [connectionFilterHandleKey] at made
  split_ifs at made
  rcases key with ⟨code, control⟩
  cases code with
  | enter =>
    obtain ⟨row, _, found⟩ := Option.bind_eq_some_iff.mp made
    obtain ⟨c, _, rfl⟩ := Option.map_eq_some_iff.mp found
    exact ⟨rfl, rfl⟩
  | _ =>
    cases made
    try exact ⟨rfl, rfl⟩

omit [Externals] in
theorem globalKey_elsewhere {key : KeyEvent} {action : Action}
    (made : (handleGlobalKey key).or (connectionBarHandleKey key) = some action) :
    action.editsLine = false := by
  rcases Option.or_eq_some_iff.mp made with made | ⟨_, made⟩
  · rw [handleGlobalKey] at made
    split at made <;> try split at made
    all_goals cases made
    all_goals rfl
  · rw [connectionBarHandleKey] at made
    split at made <;> cases made <;> rfl

omit [Externals] in
theorem configTab_elsewhere {key : KeyEvent} {comp next : ConfigComponent} {action : Action}
    (handled : comp.handleKey key s = some (next, some action)) : action.editsLine = false := by
  obtain ⟨viewed, _, same⟩ := Option.map_eq_some_iff.mp handled
  cases viewed with
  | none => cases same
  | some conn =>
    simp only at same
    split_ifs at same with elsewhere
    · cases same
    · rw [ConfigComponent.keyOn] at same
      split at same <;> try split at same
      all_goals try split at same
      all_goals cases same
      all_goals rfl

omit [Externals] in
theorem tab_elsewhere {key : KeyEvent} {bundle next : ComponentBundle} {action : Action}
    (handled : bundle.tabHandleKey key s = some (next, some action)) :
    action.editsLine = false := by
  rw [ComponentBundle.tabHandleKey] at handled
  cases tab : s.activeTab with
  | overview =>
    rw [tab] at handled
    obtain ⟨_, made⟩ := Prod.mk.inj (Option.some.inj handled)
    rw [overviewHandleKey] at made
    split at made <;> try split at made
    all_goals cases made
    all_goals rfl
  | status =>
    rw [tab] at handled
    obtain ⟨_, made⟩ := Prod.mk.inj (Option.some.inj handled)
    rw [statusHandleKey] at made
    cases selected : selectedConnectionName s bundle.status <;> rw [selected] at made
    all_goals split at made <;> cases made <;> rfl
  | peers =>
    rw [tab] at handled
    obtain ⟨_, made⟩ := Prod.mk.inj (Option.some.inj handled)
    rw [peersHandleKey] at made
    split at made <;> cases made <;> rfl
  | compare =>
    rw [tab] at handled
    obtain ⟨_, made⟩ := Prod.mk.inj (Option.some.inj handled)
    rw [compareHandleKey] at made
    split at made <;> cases made <;> rfl
  | config =>
    rw [tab] at handled
    obtain ⟨⟨comp, made⟩, taken, same⟩ := Option.map_eq_some_iff.mp handled
    obtain ⟨_, rfl⟩ := Prod.mk.inj same
    exact configTab_elsewhere taken
  | logs =>
    rw [tab] at handled
    cases handled

/-- Where no line is being typed, no key edits one, and one is opened only under no overlay. -/
theorem resolveKey_closed {key : KeyEvent} {l : Loop} {bundle : ComponentBundle} {action : Action}
    (closed : l.state.line = none) (resolved : resolveKey key l = some (bundle, some action)) :
    action.editsLine = false ∧ (action.opens = none ∨ l.state.Alone) := by
  rw [resolveKey] at resolved
  split_ifs at resolved with help filter diff confirm
  · have elsewhere := overlay_closed (.inl (Prod.mk.inj (Option.some.inj resolved)).2)
    exact ⟨elsewhere.2, .inl elsewhere.1⟩
  · have elsewhere := connectionFilter_closed (Prod.mk.inj (Option.some.inj resolved)).2
    exact ⟨elsewhere.2, .inl elsewhere.1⟩
  · have elsewhere := overlay_closed (.inr (.inl (Prod.mk.inj (Option.some.inj resolved)).2))
    exact ⟨elsewhere.2, .inl elsewhere.1⟩
  · have elsewhere := overlay_closed (.inr (.inr (Prod.mk.inj (Option.some.inj resolved)).2))
    exact ⟨elsewhere.2, .inl elsewhere.1⟩
  · have alone : l.state.Alone := by
      refine ⟨by simpa using help, by simpa using filter, ?_, ?_⟩
      · simpa using diff
      · simpa using confirm
    refine ⟨?_, .inr alone⟩
    rw [AppState.line] at closed
    split at resolved
    case h_4 | h_5 =>
      split at resolved
      · rename_i made
        cases resolved
        exact globalKey_elsewhere made
      · exact tab_elsewhere resolved
    all_goals simp_all

omit [Externals] in
theorem AppState.line_eq_none :
    s.line = none ↔ s.inputMode = .normal ∨ s.inputMode = .editField := by
  rw [line]
  cases s.inputMode <;> simp

omit [Externals] in
theorem leaveEditField_line (closed : s.line = none) : (leaveEditField s).line = none := by
  rw [leaveEditField]
  split
  · rfl
  · exact closed

/-- An action that neither opens a line nor edits one leaves it closed. -/
theorem dispatch_closed {now : Clock} {action : Action} (opens : action.opens = none)
    (edits : action.editsLine = false) (closed : s.line = none)
    (taken : dispatch now action s = some t) : t.line = none := by
  rw [AppState.line_eq_none] at closed ⊢
  by_cases writes : Part.mode ∈ action.writes
  · cases action with
    | enterSearch | enterImport | enterExport => cases opens
    | exitSearch | importKey | submitImport | exitImport | exportKey | submitExport | exitExport =>
      cases edits
    | clearSearch | discardConfigEdits =>
      cases taken
      exact .inl rfl
    | nextTab | prevTab | selectTab =>
      cases taken
      exact AppState.line_eq_none.mp (leaveEditField_line (AppState.line_eq_none.mpr closed))
    | enterConfigEdit =>
      simp only [dispatch, enterConfigEdit] at taken
      split at taken <;> try split at taken
      all_goals cases taken
      · exact closed
      · exact .inr rfl
    | configEditKey key =>
      cases taken
      rw [inSession]
      split
      · exact closed
      · rw [configEditKey, finishField]
        split <;> try split
        all_goals first | exact .inl rfl | exact closed
    | addConfigPeer =>
      cases taken
      rw [inSession]
      split
      · exact closed
      · exact .inr rfl
    | _ => simp [Action.writes] at writes
  · have mode : t.inputMode = s.inputMode := dispatch_writes .mode writes taken
    rwa [mode]

/-- What it leaves of the search that is in force. -/
theorem dispatch_search {now : Clock} {action : Action} (opens : action.opens = none)
    (edits : action.editsLine = false) (uncleared : action ≠ .clearSearch)
    (taken : dispatch now action s = some t) : t.searchQuery = s.searchQuery := by
  refine dispatch_writes .search ?_ taken
  cases action <;> simp_all [Action.writes, Action.opens, Action.editsLine]

/-- The prompt that a key opens. -/
def openedBy (key : KeyEvent) (l : Loop) : Option Prompt :=
  match resolveKey key l with
  | some (_, some action) => action.opens
  | _ => none

/-- The actions that open a line do nothing else. -/
theorem dispatch_opens {now : Clock} {action : Action} {prompt : Prompt}
    (opens : action.opens = some prompt) (taken : dispatch now action s = some t) :
    t.line = some (prompt, "") ∧ (s.Alone → t.Alone) ∧
      t.searchQuery = if prompt = .search then "" else s.searchQuery := by
  cases action with
  | enterSearch | enterImport | enterExport =>
    cases opens
    cases taken
    exact ⟨rfl, fun alone => alone.congr rfl rfl rfl rfl, rfl⟩
  | _ => cases opens

omit [Externals] in
theorem Action.opens_tasks {action : Action} {prompt : Prompt} (opens : action.opens = some prompt)
    (before after : AppState) : followUp action before = none ∧
      maybeSpawnCommand action after = [] ∧ submittedTasks action before after = [] := by
  cases action with
  | enterSearch | enterImport | enterExport => exact ⟨rfl, rfl, rfl⟩
  | _ => cases opens

omit [Externals] in
theorem maybeSpawn_takesLine (action : Action) :
    (maybeSpawnCommand action s).filter Effect.takesLine = [] := by
  cases action with
  | startBenchmark | startBenchmarkForBackend =>
    simp only [maybeSpawnCommand]
    cases s.minVisible <;> rfl
  | switchBenchmarkBackend backend =>
    simp only [maybeSpawnCommand, spawnSwitchBackend]
    split <;> rfl
  | _ => rfl

theorem performEach_takesLine {now : Clock} {actions : List Action} {l : Loop} {o : Outcome}
    (done : performEach now actions l = some o) : o.effects.filter Effect.takesLine = [] := by
  rw [← List.filterMap_eq_filter]
  refine performEach_filterMap (fun action _ s => ?_) done
  rw [List.filterMap_eq_filter]
  exact maybeSpawn_takesLine action

omit [Externals] in
theorem submittedTasks_closed (closed : s.line = none) {action : Action} :
    (submittedTasks action s t).filter Effect.takesLine = [] := by
  rw [AppState.line_eq_none] at closed
  cases action with
  | submitImport =>
    rcases closed with mode | mode <;> simp [submittedTasks, AppState.importBuffer, mode]
  | submitExport =>
    rcases closed with mode | mode <;> simp [submittedTasks, AppState.exportBuffer, mode]
  | saveConfig reconnect =>
    simp only [submittedTasks]
    cases s.configDiffPending <;> rfl
  | _ => rfl

theorem handleAction_opens {now : Clock} {action : Action} {l : Loop} {o : Outcome}
    {prompt : Prompt} (opens : action.opens = some prompt) (alone : l.state.Alone)
    (done : handleAction now action l = some o) :
    o.loop.state.line = some (prompt, "") ∧ o.loop.state.Alone ∧
      o.loop.state.searchQuery = (if prompt = .search then "" else l.state.searchQuery) ∧
      o.effects.filter Effect.takesLine = [] := by
  obtain ⟨performed, performs, rfl⟩ := Option.map_eq_some_iff.mp done
  rw [(Action.opens_tasks opens l.state l.state).1] at performs
  obtain ⟨next, later, taken, rest, rfl⟩ := performEach_cons.mp performs
  cases rest
  obtain ⟨line, stays, search⟩ := dispatch_opens opens (dispatchAll_state taken)
  obtain ⟨_, spawned, submitted⟩ := Action.opens_tasks opens l.state next.state
  refine ⟨line, stays alone, search, ?_⟩
  simp [Outcome.idle, spawned, submitted]

/-- An action that a key is resolved to outside of a line, with what follows from it. -/
theorem handleAction_closed {now : Clock} {action : Action} {l : Loop} {o : Outcome}
    (opens : action.opens = none) (edits : action.editsLine = false)
    (uncleared : action ≠ .clearSearch) (closed : l.state.line = none)
    (done : handleAction now action l = some o) :
    o.loop.state.line = none ∧ o.loop.state.searchQuery = l.state.searchQuery ∧
      o.effects.filter Effect.takesLine = [] := by
  obtain ⟨performed, performs, rfl⟩ := Option.map_eq_some_iff.mp done
  have each : ∀ next ∈ action :: (followUp action l.state).toList,
      next.opens = none ∧ next.editsLine = false ∧ next ≠ .clearSearch := by
    rw [List.forall_mem_cons]
    refine ⟨⟨opens, edits, uncleared⟩, fun next follows => ?_⟩
    have confirmed := followUp_confirmed (Option.mem_toList.mp follows)
    refine ⟨?_, ?_, fun clears => ?_⟩
    · obtain rfl | rfl | ⟨i, rfl⟩ := confirmed <;> rfl
    · obtain rfl | rfl | ⟨i, rfl⟩ := confirmed <;> rfl
    · subst clears
      simp at confirmed
  have kept : performed.loop.state.line = none ∧
      performed.loop.state.searchQuery = l.state.searchQuery := by
    refine performEach_inv (fun s => s.line = none ∧ s.searchQuery = l.state.searchQuery)
      (fun next member s t before taken => ?_) ⟨closed, rfl⟩ performs
    obtain ⟨opens, edits, uncleared⟩ := each next member
    exact ⟨dispatch_closed opens edits before.1 taken,
      (dispatch_search opens edits uncleared taken).trans before.2⟩
  refine ⟨kept.1, kept.2, ?_⟩
  rw [List.filter_append, performEach_takesLine performs, submittedTasks_closed closed,
    List.nil_append]

/-- Where no line is being typed, a key may open one, and submits none. -/
theorem handleKeyEvent_closed {now : Clock} {key : KeyEvent} {l : Loop} {o : Outcome}
    (closed : l.state.line = none) (done : handleKeyEvent now key l = some o) :
    o.loop.state.line = (openedBy key l).map (·, "") ∧
      (openedBy key l ≠ none → o.loop.state.Alone) ∧
      o.loop.state.searchQuery =
        (if openedBy key l = some .search then "" else l.state.searchQuery) ∧
      o.effects.filter Effect.takesLine = [] := by
  obtain ⟨⟨bundle, made⟩, resolved, handled⟩ := Option.bind_eq_some_iff.mp done
  cases made with
  | none =>
    cases handled
    have opened : openedBy key l = none := by rw [openedBy, resolved]
    rw [opened]
    exact ⟨closed, fun opened => absurd rfl opened, rfl, rfl⟩
  | some action =>
    have handled : handleAction now action { l with bundle := bundle } = some o := handled
    have opened : openedBy key l = action.opens := by rw [openedBy, resolved]
    rw [opened]
    obtain ⟨edits, alone⟩ := resolveKey_closed closed resolved
    cases opens : action.opens with
    | some prompt =>
      have alone := alone.resolve_left (by simp [opens])
      obtain ⟨line, above, search, silent⟩ :=
        handleAction_opens (l := ⟨l.state, bundle⟩) opens alone handled
      refine ⟨line, fun _ => above, ?_, silent⟩
      simpa using search
    | none =>
      have uncleared : action ≠ .clearSearch := by
        rintro rfl
        exact resolveKey_keyed resolved _ rfl
      obtain ⟨line, search, silent⟩ :=
        handleAction_closed (l := ⟨l.state, bundle⟩) opens edits uncleared closed handled
      exact ⟨line, fun opened => absurd rfl opened, search, silent⟩

/-! ## Everything else -/

/-- What comes from elsewhere leaves the line, the search and what is shown above the tab. -/
structure LeavesLine (s t : AppState) : Prop where
  line : t.line = s.line
  search : t.searchQuery = s.searchQuery
  alone : s.Alone → t.Alone

omit [Externals] in
theorem LeavesLine.refl (s : AppState) : LeavesLine s s := ⟨rfl, rfl, id⟩

omit [Externals] in
theorem LeavesLine.trans {u : AppState} (first : LeavesLine s t) (second : LeavesLine t u) :
    LeavesLine s u :=
  ⟨second.line.trans first.line, second.search.trans first.search, second.alone ∘ first.alone⟩

omit [Externals] in
theorem leaveEditField_leaves (s : AppState) : LeavesLine s (leaveEditField s) := by
  rw [leaveEditField]
  split
  · rename_i mode
    exact ⟨by simp [AppState.line, mode], rfl, fun alone => alone.congr rfl rfl rfl rfl⟩
  · exact .refl s

omit [Externals] in
theorem LeavesLine.of_frame (mode : t.inputMode = s.inputMode)
    (search : t.searchQuery = s.searchQuery)
    (help : t.showHelp = s.showHelp) (filter : t.showConnectionFilter = s.showConnectionFilter)
    (diff : t.configDiffPending = s.configDiffPending)
    (confirm : t.pendingConfirm = s.pendingConfirm) : LeavesLine s t :=
  ⟨by rw [AppState.line, AppState.line, mode, search], search,
    fun alone => alone.congr help filter diff confirm⟩

theorem reports_leave {now : Clock} {action : Action} (reports : action.reports = true)
    (taken : dispatch now action s = some t) : LeavesLine s t := by
  cases action with
  | daemonOk | daemonError | updatePeers | daemonConnectivityChanged | benchmarkProgressUpdate =>
    cases taken
    exact .of_frame rfl rfl rfl rfl rfl rfl
  | benchmarkComplete result =>
    simp only [dispatch, benchmarkComplete] at taken
    split at taken <;> cases taken
    exact .of_frame rfl rfl rfl rfl rfl rfl
  | _ => cases reports

theorem handleDaemonMessage_leaves {now : Clock} {msg : DaemonMessage} {l : Loop} {o : Outcome}
    (done : handleDaemonMessage now msg l = some o) : LeavesLine l.state o.loop.state := by
  obtain ⟨dispatched, each, same⟩ := handleDaemonMessage_loop done
  have found : LeavesLine l.state (received msg l).state := by
    cases msg <;> exact .of_frame rfl rfl rfl rfl rfl rfl
  rw [same]
  exact dispatchEach_inv (LeavesLine l.state)
    (fun action member s t before taken =>
      before.trans (reports_leave (daemonActions_reports member) taken)) found each

theorem handleMouseEvent_leaves {now : Clock} {mouse : MouseEvent} {rect : Rect} {l : Loop}
    {o : Outcome} (done : handleMouseEvent now mouse rect l = some o) :
    LeavesLine l.state o.loop.state := by
  by_cases alone : l.state.Alone
  · rw [handleMouseEvent_alone alone] at done
    refine performEach_inv (LeavesLine l.state) (fun action member s t before taken => ?_)
      (.refl l.state) done
    refine before.trans ?_
    obtain rfl | rfl | ⟨tab, _, rfl⟩ := resolveMouseAction_cases (Option.mem_toList.mp member)
    · cases taken
      exact .refl s
    · cases taken
      exact .refl s
    · cases taken
      exact (leaveEditField_leaves s).trans (.of_frame rfl rfl rfl rfl rfl rfl)
  · rw [handleMouseEvent_covered alone] at done
    cases done
    exact .refl l.state

/-! ## Over a run -/

/-- What happens to the program, the mouse included. -/
inductive LoopInput where
  | happening (event : Happening)
  | mouse (now : Clock) (mouse : MouseEvent) (tabBarRect : Rect)

def Program.react (p : Program) : LoopInput → Option Program
  | .happening event => p.step event
  | .mouse now mouse tabBarRect =>
    if p.loop.state.running then
      (handleMouseEvent now mouse tabBarRect p.loop).map fun o => { p with loop := o.loop }
    else none

/-- The keys typed into the open line, and those of the search that is in force. -/
structure Transcript where
  typing : Option (Prompt × List KeyEvent)
  search : List KeyEvent

def typedLineOf (keys : List KeyEvent) : String := keys.foldl (fun text key => typeKey key text) ""

omit [Externals] in
theorem typedLineOf_concat (keys : List KeyEvent) (key : KeyEvent) :
    typedLineOf (keys ++ [key]) = typeKey key (typedLineOf keys) := by
  simp [typedLineOf]

namespace Transcript

def empty : Transcript := ⟨none, []⟩

def noteKey (key : KeyEvent) (l : Loop) (transcript : Transcript) : Transcript :=
  match transcript.typing with
  | some (prompt, keys) => {
      typing := if key.endsLine then none else some (prompt, keys ++ [key])
      search := if prompt = .search then transcript.search ++ [key] else transcript.search }
  | none => {
      typing := (openedBy key l).map (·, [])
      search := if openedBy key l = some .search then [] else transcript.search }

/-- The tasks that the key should lead to. -/
def submits (key : KeyEvent) (runs : List BenchmarkRun) (transcript : Transcript) : List Effect :=
  match transcript.typing with
  | some (prompt, keys) =>
    if key.code = .enter then lineTasks prompt (typedLineOf keys) runs else []
  | none => []

/-- The state shows what was typed. -/
structure Tells (transcript : Transcript) (s : AppState) : Prop where
  line : s.line = transcript.typing.map fun (prompt, keys) => (prompt, typedLineOf keys)
  search : s.searchQuery = typedLineOf transcript.search
  alone : transcript.typing ≠ none → s.Alone

end Transcript

def noteTyped (p : Program) (input : LoopInput) (transcript : Transcript) : Transcript :=
  match input with
  | .happening (.key _ key) => transcript.noteKey key p.loop
  | _ => transcript

omit [Externals] in
theorem Transcript.Tells.leaves {transcript : Transcript} (tells : transcript.Tells s)
    (leaves : LeavesLine s t) : transcript.Tells t :=
  ⟨leaves.line.trans tells.line, leaves.search.trans tells.search, leaves.alone ∘ tells.alone⟩

omit [Externals] in
theorem lineTasks_takesLine (prompt : Prompt) (text : String) (runs : List BenchmarkRun) :
    (lineTasks prompt text runs).filter Effect.takesLine = lineTasks prompt text runs := by
  cases prompt <;> rfl

/-- A key does to the state what it does to the transcript, and what it submits was typed. -/
theorem handleKeyEvent_tells {now : Clock} {key : KeyEvent} {l : Loop} {o : Outcome}
    {transcript : Transcript} (tells : transcript.Tells l.state)
    (done : handleKeyEvent now key l = some o) :
    (transcript.noteKey key l).Tells o.loop.state ∧
      o.effects.filter Effect.takesLine = transcript.submits key l.state.benchmarkHistory := by
  obtain ⟨line, search, alone⟩ := tells
  cases typing : transcript.typing with
  | none =>
    rw [typing] at line
    obtain ⟨opened, above, query, submitted⟩ := handleKeyEvent_closed line done
    rw [Transcript.noteKey, Transcript.submits, typing]
    refine ⟨⟨?_, ?_, fun opened => above (by simpa using opened)⟩, submitted⟩
    · rw [opened]
      cases openedBy key l <;> rfl
    · simp only [query, search]
      split <;> rfl
  | some typed =>
    obtain ⟨prompt, keys⟩ := typed
    rw [typing] at line
    have above := alone (by simp [typing])
    obtain ⟨typed, _⟩ := handleKeyEvent_typing above line done
    rw [Transcript.noteKey, Transcript.submits, typing]
    refine ⟨⟨?_, ?_, fun _ => typed.alone above⟩, ?_⟩
    · rw [typed.line]
      simp only
      split
      · rfl
      · simp [typedLineOf_concat]
    · rw [typed.search, search]
      simp only
      split
      · rw [typedLineOf_concat]
      · rfl
    · rw [typed.effects]
      simp only
      split
      · exact lineTasks_takesLine prompt (typedLineOf keys) l.state.benchmarkHistory
      · rfl

/-- What a step hands to a task on behalf of a line was typed into it, and a key of the line
changes nothing else. -/
def SubmitsTyped (s : Program × Transcript) : LoopInput → Prop
  | .happening (.key now key) => ∀ o, handleKeyEvent now key s.1.loop = some o →
    o.effects.filter Effect.takesLine =
        s.2.submits key s.1.loop.state.benchmarkHistory ∧
      ∀ prompt keys, s.2.typing = some (prompt, keys) →
        TypedOn key prompt (typedLineOf keys) s.1.loop.state o.loop.state o.effects ∧
          o.loop.bundle = s.1.loop.bundle
  | .happening (.receive now) => ∀ mail ∈ s.1.channel, ∀ o,
    handleDaemonMessage now mail.message s.1.loop = some o → o.effects.filter Effect.takesLine = []
  | .mouse now mouse tabBarRect => ∀ o,
    handleMouseEvent now mouse tabBarRect s.1.loop = some o → o.effects = []
  | .happening _ => True

theorem handleDaemonMessage_takesLine {now : Clock} {msg : DaemonMessage} {l : Loop} {o : Outcome}
    (done : handleDaemonMessage now msg l = some o) : o.effects.filter Effect.takesLine = [] := by
  obtain ⟨dispatched, each, rfl⟩ := Option.map_eq_some_iff.mp done
  cases msg with
  | benchmarkComplete => rfl
  | _ =>
    simp only
    rw [dispatchEach_effects each]
    rfl

variable {p next : Program} {transcript : Transcript} {input : LoopInput}

theorem react_tells (tells : transcript.Tells p.loop.state) (taken : p.react input = some next) :
    (noteTyped p input transcript).Tells next.loop.state := by
  cases input with
  | mouse now mouse tabBarRect =>
    rw [Program.react] at taken
    split at taken
    · obtain ⟨o, done, rfl⟩ := Option.map_eq_some_iff.mp taken
      exact tells.leaves (handleMouseEvent_leaves done)
    · cases taken
  | happening event =>
    cases event with
    | key now key =>
      obtain ⟨o, done, rfl⟩ := Program.step_key taken
      exact (handleKeyEvent_tells tells done).1
    | receive now =>
      obtain ⟨mail, rest, o, _, done, rfl⟩ := Program.step_receive taken
      exact tells.leaves (handleDaemonMessage_leaves done)
    | expire now =>
      obtain rfl := Program.step_expire taken
      exact tells.leaves (.of_frame rfl rfl rfl rfl rfl rfl)
    | benchmark i event =>
      have same := (Program.pollTask_channel (Program.step_benchmark taken)).1
      rw [same]
      exact tells
    | send message =>
      obtain ⟨_, rfl⟩ := Program.step_send taken
      exact tells

theorem tells_submits (tells : transcript.Tells p.loop.state) (input : LoopInput) :
    SubmitsTyped (p, transcript) input := by
  cases input with
  | mouse now mouse tabBarRect => exact fun o done => handleMouseEvent_effects done
  | happening event =>
    cases event with
    | key now key =>
      refine fun o done => ⟨(handleKeyEvent_tells tells done).2, fun prompt keys typing => ?_⟩
      have line := tells.line
      have typing : transcript.typing = some (prompt, keys) := typing
      rw [typing] at line
      exact handleKeyEvent_typing (tells.alone (by simp [typing])) line done
    | receive now => exact fun mail _ o done => handleDaemonMessage_takesLine done
    | _ => trivial

/-- Whatever else happens in between: a line on the status bar is what was typed since its prompt
was opened, and so is the search in force; a key of the line changes nothing else; and a file is
imported or exported just when Enter is pressed in the prompt for it, under the name typed there. -/
theorem lines_typed (config : AppConfig) (history : List BenchmarkRun) (inputs : List LoopInput) :
    Always (instrument Program.react noteTyped) (fun s => s.2.Tells s.1.loop.state) inputs
        (.start config history, .empty) ∧
      Along (instrument Program.react noteTyped) SubmitsTyped inputs
        (.start config history, .empty) := by
  have always : Always (instrument Program.react noteTyped) (fun s => s.2.Tells s.1.loop.state)
      inputs (.start config history, .empty) := by
    refine always_of_step (fun s input next tells taken => ?_) inputs ⟨rfl, rfl, fun typing => ?_⟩
    · obtain ⟨step, ghost⟩ := instrument_some.mp taken
      rw [ghost]
      exact react_tells tells step
    · exact absurd rfl typing
  exact ⟨always, along_of_always (fun s input _ tells _ _ => tells_submits tells input) always⟩

end

end FerroWg.Tui
