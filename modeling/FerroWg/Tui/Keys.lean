import FerroWg.Tui.EventLoop

/-!
# What keys lead to

Whoever takes a key, only some actions can come of it: those of the daemon are not among them, nor
are those that type into a field of the configuration, and a connection whose visibility is toggled
is one of the list.
-/

namespace FerroWg.Tui

/-- The actions that a key is resolved to. -/
def KeyAction (s : AppState) : Action → Prop
  | .toggleConnectionVisibility name => ∃ c ∈ s.connections, c.name = name
  | .clearSearch | .tick | .selectConnection _ | .updatePeers _ | .daemonError _ | .daemonOk _
  | .daemonConnectivityChanged _ | .disconnectAll | .stopDaemon | .benchmarkProgressUpdate _
  | .benchmarkComplete _ | .configEditKey _ | .configFocusNext | .configFocusPrev
  | .configFocusInterface | .configFocusPeer _ | .deleteConfigPeer _ => False
  | _ => True

/-- What a handler makes of a key, if anything. -/
def Keyed (s : AppState) (made : Option Action) : Prop :=
  ∀ action, made = some action → KeyAction s action

theorem keyed_none (s : AppState) : Keyed s none := nofun

theorem keyed_some {s : AppState} {action : Action} (keyed : KeyAction s action) :
    Keyed s (some action) := by
  rintro _ ⟨⟩
  exact keyed

attribute [local simp] Keyed KeyAction

/-- What follows a confirmation. -/
theorem followUp_confirmed {action next : Action} {s : AppState}
    (follows : followUp action s = some next) :
    next = .disconnectAll ∨ next = .stopDaemon ∨ ∃ i, next = .deleteConfigPeer i := by
  unfold followUp at follows
  split at follows
  · obtain ⟨p, _, rfl⟩ := Option.map_eq_some_iff.mp follows
    cases p.action with
    | disconnectAll => exact .inl rfl
    | stopDaemon => exact .inr (.inl rfl)
    | deletePeer i => exact .inr (.inr ⟨i, rfl⟩)
  · cases follows

theorem handleGlobalKey_keyed (key : KeyEvent) (s : AppState) : Keyed s (handleGlobalKey key) := by
  rw [handleGlobalKey]
  split <;> try split
  all_goals simp

theorem connectionBar_keyed (key : KeyEvent) (s : AppState) :
    Keyed s (connectionBarHandleKey key) := by
  rw [connectionBarHandleKey]
  split <;> simp

theorem statusBar_keyed (key : KeyEvent) (s : AppState) : Keyed s (statusBarHandleKey key s) := by
  rw [statusBarHandleKey]
  split <;> try split
  all_goals simp

theorem confirmDialog_keyed (key : KeyEvent) (s : AppState) :
    Keyed s (confirmDialogHandleKey key s) := by
  rw [confirmDialogHandleKey]
  cases s.pendingConfirm with
  | none => exact keyed_none s
  | some p => simp only [Option.map_some]; split <;> exact keyed_some trivial

theorem diffPreview_keyed (key : KeyEvent) (s : AppState) :
    Keyed s (diffPreviewHandleKey key s) := by
  rw [diffPreviewHandleKey]
  split <;> try split
  all_goals simp

theorem helpOverlay_keyed (key : KeyEvent) (s : AppState) :
    Keyed s (helpOverlayHandleKey key s) := by
  rw [helpOverlayHandleKey]
  split <;> try split
  all_goals simp

theorem overview_keyed (key : KeyEvent) (s : AppState) : Keyed s (overviewHandleKey key s) := by
  rw [overviewHandleKey]
  split <;> try split
  all_goals simp

theorem status_keyed (key : KeyEvent) (s : AppState) (table : TableState) :
    Keyed s (statusHandleKey key s table) := by
  rw [statusHandleKey]
  cases selectedConnectionName s table <;> split <;> simp

theorem peers_keyed (key : KeyEvent) (s : AppState) : Keyed s (peersHandleKey key) := by
  rw [peersHandleKey]
  split <;> simp

theorem compare_keyed (key : KeyEvent) (s : AppState) (table : TableState) :
    Keyed s (compareHandleKey key table) := by
  rw [compareHandleKey]
  split <;> simp

theorem configKey_keyed (key : KeyEvent) (s : AppState) (conn : ConnectionView)
    (comp : ConfigComponent) : Keyed s (comp.keyOn key conn).2 := by
  rw [ConfigComponent.keyOn]
  split <;> try split
  all_goals try split
  all_goals simp

theorem configTab_keyed {key : KeyEvent} {s : AppState} {comp next : ConfigComponent}
    {made : Option Action} (handled : comp.handleKey key s = some (next, made)) : Keyed s made := by
  obtain ⟨viewed, _, same⟩ := Option.map_eq_some_iff.mp handled
  cases viewed with
  | none => cases same; exact keyed_none s
  | some conn =>
    simp only at same
    split_ifs at same with elsewhere
    · cases same; exact keyed_none s
    · have keyed := configKey_keyed key s conn comp
      rwa [same] at keyed

/-- Each tab has its own keys. -/
theorem tab_keyed {key : KeyEvent} {s : AppState} {bundle next : ComponentBundle}
    {made : Option Action} (handled : bundle.tabHandleKey key s = some (next, made)) :
    Keyed s made := by
  rw [ComponentBundle.tabHandleKey] at handled
  cases tab : s.activeTab with
  | overview => rw [tab] at handled; cases handled; exact overview_keyed key s
  | status => rw [tab] at handled; cases handled; exact status_keyed key s bundle.status
  | peers => rw [tab] at handled; cases handled; exact peers_keyed key s
  | compare => rw [tab] at handled; cases handled; exact compare_keyed key s bundle.compareTable
  | config =>
    rw [tab] at handled
    obtain ⟨⟨comp, action⟩, taken, same⟩ := Option.map_eq_some_iff.mp handled
    cases same
    exact configTab_keyed taken
  | logs => rw [tab] at handled; cases handled; exact keyed_none s

variable [Externals]

theorem connectionFilter_keyed (key : KeyEvent) (s : AppState) (table : TableState) :
    Keyed s (connectionFilterHandleKey key s table) := by
  rw [connectionFilterHandleKey]
  split_ifs
  · rcases key with ⟨code, control⟩
    cases code with
    | enter =>
      intro action made
      obtain ⟨row, _, found⟩ := Option.bind_eq_some_iff.mp made
      obtain ⟨c, there, rfl⟩ := Option.map_eq_some_iff.mp found
      exact ⟨c, (List.mem_filter.mp (List.mem_of_getElem? there)).1, rfl⟩
    | _ => simp
  · exact keyed_none s

/-- Whoever takes the key. -/
theorem resolveKey_keyed {key : KeyEvent} {l : Loop} {bundle : ComponentBundle}
    {made : Option Action} (resolved : resolveKey key l = some (bundle, made)) :
    Keyed l.state made := by
  rw [resolveKey] at resolved
  split_ifs at resolved with help filter diff confirm
  · cases resolved; exact helpOverlay_keyed key l.state
  · cases resolved; exact connectionFilter_keyed key l.state l.bundle.connectionFilter
  · cases resolved; exact diffPreview_keyed key l.state
  · cases resolved; exact confirmDialog_keyed key l.state
  · split at resolved
    case h_4 | h_5 =>
      split at resolved
      · rename_i action global
        cases resolved
        rcases Option.or_eq_some_iff.mp global with first | ⟨_, second⟩
        · exact keyed_some (handleGlobalKey_keyed key l.state action first)
        · exact keyed_some (connectionBar_keyed key l.state action second)
      · exact tab_keyed resolved
    all_goals cases resolved; exact statusBar_keyed key l.state

/-- A key does nothing, or it does one action and what follows from that. -/
theorem handleKeyEvent_cases {now : Clock} {key : KeyEvent} {l : Loop} {o : Outcome}
    (done : handleKeyEvent now key l = some o) :
    (∃ bundle, resolveKey key l = some (bundle, none) ∧ o = .idle { l with bundle := bundle }) ∨
    ∃ bundle action performed, resolveKey key l = some (bundle, some action) ∧
      performEach now (action :: (followUp action l.state).toList) { l with bundle := bundle } =
        some performed ∧
      o = { performed with effects :=
        performed.effects ++ submittedTasks action l.state performed.loop.state } := by
  obtain ⟨⟨bundle, made⟩, resolved, handled⟩ := Option.bind_eq_some_iff.mp done
  cases made with
  | none => cases handled; exact .inl ⟨bundle, resolved, rfl⟩
  | some action =>
    obtain ⟨performed, run, rfl⟩ := Option.map_eq_some_iff.mp handled
    exact .inr ⟨bundle, action, performed, resolved, run, rfl⟩

theorem performEach_cons {now : Clock} {action : Action} {rest : List Action} {l : Loop}
    {o : Outcome} : performEach now (action :: rest) l = some o ↔
      ∃ next later, dispatchAll now action l = some next ∧ performEach now rest next = some later ∧
        o = ⟨later.loop, (l.state, action) :: later.trace,
          maybeSpawnCommand action next.state ++ later.effects⟩ := by
  simp [performEach, Option.bind_eq_some_iff, Outcome.followedBy_eq_some]

theorem dispatchEach_cons {now : Clock} {action : Action} {rest : List Action} {l : Loop}
    {o : Outcome} : dispatchEach now (action :: rest) l = some o ↔
      ∃ next later, dispatchAll now action l = some next ∧ dispatchEach now rest next = some later ∧
        o = ⟨later.loop, (l.state, action) :: later.trace, later.effects⟩ := by
  simp [dispatchEach, Option.bind_eq_some_iff, Outcome.followedBy_eq_some]

theorem dispatchAll_state {now : Clock} {action : Action} {l next : Loop}
    (done : dispatchAll now action l = some next) : dispatch now action l.state = some next.state := by
  obtain ⟨s, taken, updated⟩ := Option.bind_eq_some_iff.mp done
  obtain ⟨bundle, _, rfl⟩ := Option.map_eq_some_iff.mp updated
  exact taken

/-- The loop that the actions of a message find: a reload comes before them. -/
def received (msg : DaemonMessage) (l : Loop) : Loop :=
  match msg with
  | .reloadConfig config _ => { l with state := l.state.reloadFromConfig config }
  | _ => l

theorem handleDaemonMessage_map (now : Clock) (msg : DaemonMessage) (l : Loop) :
    (handleDaemonMessage now msg l).map (·.loop) =
      (dispatchEach now (daemonActions msg) (received msg l)).map (·.loop) := by
  cases msg <;> simp [handleDaemonMessage, received, Function.comp_def]

theorem handleDaemonMessage_loop {now : Clock} {msg : DaemonMessage} {l : Loop} {o : Outcome}
    (done : handleDaemonMessage now msg l = some o) :
    ∃ dispatched, dispatchEach now (daemonActions msg) (received msg l) = some dispatched ∧
      o.loop = dispatched.loop := by
  have same := handleDaemonMessage_map now msg l
  rw [done, Option.map_some] at same
  obtain ⟨dispatched, run, loop⟩ := Option.map_eq_some_iff.mp same.symm
  exact ⟨dispatched, run, loop.symm⟩

/-- The actions that messages lead to. -/
def Action.reports : Action → Bool
  | .daemonOk _ | .daemonError _ | .updatePeers _ | .daemonConnectivityChanged _
  | .benchmarkProgressUpdate _ | .benchmarkComplete _ => true
  | _ => false

omit [Externals] in
theorem daemonActions_reports {msg : DaemonMessage} {action : Action}
    (member : action ∈ daemonActions msg) : action.reports = true := by
  cases msg with
  | unreachable =>
    obtain rfl | rfl : action = .daemonConnectivityChanged false ∨
        action = .daemonError "daemon is not running" := by simpa [daemonActions] using member
    · rfl
    · rfl
  | _ =>
    obtain rfl := List.mem_singleton.mp member
    rfl

/-- What every dispatched action preserves, the handling of a message does. -/
theorem dispatchEach_inv (inv : AppState → Prop) {now : Clock} {actions : List Action}
    (preserved : ∀ action ∈ actions, ∀ s t, inv s → dispatch now action s = some t → inv t)
    {l : Loop} {o : Outcome} (initial : inv l.state) (done : dispatchEach now actions l = some o) :
    inv o.loop.state := by
  induction actions generalizing l o with
  | nil => cases done; exact initial
  | cons action rest ih =>
    rw [List.forall_mem_cons] at preserved
    obtain ⟨next, later, taken, run, rfl⟩ := dispatchEach_cons.mp done
    have last := ih preserved.2 (preserved.1 _ _ initial (dispatchAll_state taken)) run
    exact last

theorem dispatchEach_effects {now : Clock} {actions : List Action} {l : Loop} {o : Outcome}
    (done : dispatchEach now actions l = some o) : o.effects = [] := by
  induction actions generalizing l o with
  | nil => cases done; rfl
  | cons action rest ih =>
    obtain ⟨next, later, _, run, rfl⟩ := dispatchEach_cons.mp done
    exact ih (o := later) run

/-- Commands that are spawned in between make no difference to the loop. -/
theorem performEach_map (now : Clock) (actions : List Action) (l : Loop) :
    (performEach now actions l).map (·.loop) = (dispatchEach now actions l).map (·.loop) := by
  induction actions generalizing l with
  | nil => rfl
  | cons action rest ih =>
    rw [performEach, dispatchEach]
    cases dispatchAll now action l with
    | none => rfl
    | some next => simpa [Outcome.followedBy, Function.comp_def] using ih next

theorem performEach_loop {now : Clock} {actions : List Action} {l : Loop} {o : Outcome}
    (done : performEach now actions l = some o) :
    ∃ dispatched, dispatchEach now actions l = some dispatched ∧ o.loop = dispatched.loop := by
  have same := performEach_map now actions l
  rw [done, Option.map_some] at same
  obtain ⟨dispatched, each, loop⟩ := Option.map_eq_some_iff.mp same.symm
  exact ⟨dispatched, each, loop.symm⟩

theorem performEach_inv (inv : AppState → Prop) {now : Clock} {actions : List Action}
    (preserved : ∀ action ∈ actions, ∀ s t, inv s → dispatch now action s = some t → inv t)
    {l : Loop} {o : Outcome} (initial : inv l.state) (done : performEach now actions l = some o) :
    inv o.loop.state := by
  obtain ⟨dispatched, each, same⟩ := performEach_loop done
  rw [same]
  exact dispatchEach_inv inv preserved initial each

/-- A kind of effect that no action of the list spawns is not among the effects. -/
theorem performEach_filterMap {β : Type} {f : Effect → Option β} {now : Clock}
    {actions : List Action}
    (silent : ∀ action ∈ actions, ∀ s, (maybeSpawnCommand action s).filterMap f = [])
    {l : Loop} {o : Outcome} (done : performEach now actions l = some o) :
    o.effects.filterMap f = [] := by
  induction actions generalizing l o with
  | nil => cases done; rfl
  | cons action rest ih =>
    rw [List.forall_mem_cons] at silent
    obtain ⟨next, later, _, run, rfl⟩ := performEach_cons.mp done
    rw [List.filterMap_append, silent.1, ih silent.2 run, List.nil_append]

omit [Externals] in
theorem submittedTasks_filterMap {β : Type} {f : Effect → Option β}
    (imports : ∀ path, f (.importFile path) = none)
    (exports : ∀ path runs, f (.exportRuns path runs) = none)
    (saves : ∀ name draft reconnect, f (.saveConfig name draft reconnect) = none)
    (action : Action) (before after : AppState) :
    (submittedTasks action before after).filterMap f = [] := by
  cases action with
  | submitImport => cases path : before.importBuffer <;> simp [submittedTasks, path, imports]
  | submitExport => cases path : before.exportBuffer <;> simp [submittedTasks, path, exports]
  | saveConfig => cases diff : before.configDiffPending <;> simp [submittedTasks, diff, saves]
  | _ => rfl

end FerroWg.Tui
