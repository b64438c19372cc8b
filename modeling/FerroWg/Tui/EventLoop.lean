import FerroWg.Tui.Components
import FerroWg.Tui.Tasks

/-!
# The event loop

How `lib.rs` turns keys and messages into actions and background tasks. An outcome also records
every action with the state it was dispatched in, which the program does not keep.
-/

namespace FerroWg.Tui

/-- What the loop hands to a task. -/
inductive Effect where
  | command (cmd : DaemonCommand) (description : String)
  | startDaemon
  | benchmark (connectionName : String) (durationSecs : UInt32)
  | report (error : TuiError)
  | importFile (path : String)
  | exportRuns (path : String) (runs : List BenchmarkRun)
  | saveConfig (connectionName : String) (draft : WgConfig) (reconnect : Bool)
  | saveHistory (runs : List BenchmarkRun)

structure Loop where
  state : AppState
  bundle : ComponentBundle

structure Outcome where
  loop : Loop
  trace : List (AppState × Action)
  effects : List Effect

namespace Outcome

def idle (l : Loop) : Outcome := ⟨l, [], []⟩

def followedBy (first : Outcome) (next : Loop → Option Outcome) : Option Outcome :=
  (next first.loop).map fun o => ⟨o.loop, first.trace ++ o.trace, first.effects ++ o.effects⟩

def dispatched (o : Outcome) : List Action := o.trace.map (·.2)

theorem followedBy_eq_some {first o : Outcome} {next : Loop → Option Outcome} :
    first.followedBy next = some o ↔ ∃ second, next first.loop = some second ∧
      o = ⟨second.loop, first.trace ++ second.trace, first.effects ++ second.effects⟩ := by
  simp [followedBy, eq_comm]

end Outcome

/-- The keys that count whatever tab is shown. -/
def handleGlobalKey (key : KeyEvent) : Option Action :=
  match key.code with
  | .char 'q' | .esc => some .quit
  | .char 'c' => if key.control then some .quit else none
  | .tab | .right => some .nextTab
  | .backTab | .left => some .prevTab
  | .char '1' => some (.selectTab .overview)
  | .char '2' => some (.selectTab .status)
  | .char '3' => some (.selectTab .peers)
  | .char '4' => some (.selectTab .compare)
  | .char '5' => some (.selectTab .config)
  | .char '6' => some (.selectTab .logs)
  | .char '/' => some .enterSearch
  | .char 'T' => some .toggleTheme
  | .char '?' => some .showHelp
  | .char 'i' => some .enterImport
  | _ => none

def confirmedAction : ConfirmAction → Action
  | .disconnectAll => .disconnectAll
  | .stopDaemon => .stopDaemon
  | .deletePeer i => .deleteConfigPeer i

def spawnSwitchBackend (backend : String) (s : AppState) : List Effect :=
  let kind : Option BackendKind := match backend with
    | "boringtun" => some .boringtun
    | "neptun" => some .neptun
    | "gotatun" => some .gotatun
    | _ => none
  match kind, s.minVisible with
  | none, _ => [.report (.unknownBackend backend)]
  | some _, none => [.report (.daemonResponse "no visible connections to switch backend for")]
  | some kind, some name => [.command (.switchBackend name kind) s!"Switched backend: {backend}"]

def maybeSpawnCommand (action : Action) (s : AppState) : List Effect :=
  match action with
  | .startBenchmark | .startBenchmarkForBackend _ =>
    s.minVisible.toList.map fun name => .benchmark name 10
  | .switchBenchmarkBackend backend => spawnSwitchBackend backend s
  | .startDaemon => [.startDaemon]
  | .connectPeer name => [.command (.up (some name) .boringtun) s!"Brought up: {name}"]
  | .disconnectPeer name => [.command (.down (some name)) s!"Tore down: {name}"]
  | .cyclePeerBackend name =>
    [.command (.switchBackend name .neptun) s!"Switched backend: {name}"]
  | .connectAll => [.command (.up none .boringtun) "All connections up"]
  | .disconnectAll => [.command (.down none) "All connections down"]
  | .stopDaemon => [.command .shutdown "Daemon stopped"]
  | _ => []

/-- What an answer to the confirmation leads to, read off before it is dispatched. -/
def followUp (action : Action) (s : AppState) : Option Action :=
  match action with
  | .confirmYes => s.pendingConfirm.map fun p => confirmedAction p.action
  | _ => none

/-- The tasks of a submitted line or diff. Their data is read before the dispatch, the runs to
export after it. -/
def submittedTasks (action : Action) (before after : AppState) : List Effect :=
  match action with
  | .submitImport => before.importBuffer.toList.map .importFile
  | .submitExport => before.exportBuffer.toList.map fun path => .exportRuns path after.benchmarkHistory
  | .saveConfig reconnect => before.configDiffPending.toList.map fun p =>
      .saveConfig p.connectionName p.draft reconnect
  | _ => []

def daemonActions : DaemonMessage → List Action
  | .reloadConfig _ message => [.daemonOk message]
  | .statusUpdate peers => [.updatePeers peers]
  | .commandOk message => [.daemonOk message]
  | .commandError error => [.daemonError error.display]
  | .unreachable => [.daemonConnectivityChanged false, .daemonError "daemon is not running"]
  | .benchmarkProgress progress => [.benchmarkProgressUpdate progress]
  | .benchmarkComplete result => [.benchmarkComplete result]

section

variable [Externals]

/-- Who takes a key: the overlays from the top down, the line being typed, then the global keys
before the tab. Only a tab changes its own state over a key. -/
def resolveKey (key : KeyEvent) (l : Loop) : Option (ComponentBundle × Option Action) :=
  if l.state.showHelp then some (l.bundle, helpOverlayHandleKey key l.state)
  else if l.state.showConnectionFilter then
    some (l.bundle, connectionFilterHandleKey key l.state l.bundle.connectionFilter)
  else if l.state.configDiffPending.isSome then some (l.bundle, diffPreviewHandleKey key l.state)
  else if l.state.pendingConfirm.isSome then some (l.bundle, confirmDialogHandleKey key l.state)
  else match l.state.inputMode with
    | .search | .import _ | .export _ => some (l.bundle, statusBarHandleKey key l.state)
    | .normal | .editField =>
      match (handleGlobalKey key).or (connectionBarHandleKey key) with
      | some action => some (l.bundle, some action)
      | none => l.bundle.tabHandleKey key l.state

def dispatchAll (now : Clock) (action : Action) (l : Loop) : Option Loop :=
  (dispatch now action l.state).bind fun s =>
    (l.bundle.update action s).map fun bundle => ⟨s, bundle⟩

def dispatchEach (now : Clock) : List Action → Loop → Option Outcome
  | [], l => some (.idle l)
  | action :: rest, l => (dispatchAll now action l).bind fun next =>
      Outcome.followedBy ⟨next, [(l.state, action)], []⟩ (dispatchEach now rest)

/-- Each action is dispatched and its command spawned before the next. -/
def performEach (now : Clock) : List Action → Loop → Option Outcome
  | [], l => some (.idle l)
  | action :: rest, l => (dispatchAll now action l).bind fun next =>
      Outcome.followedBy ⟨next, [(l.state, action)], maybeSpawnCommand action next.state⟩
        (performEach now rest)

def handleAction (now : Clock) (action : Action) (l : Loop) : Option Outcome :=
  (performEach now (action :: (followUp action l.state).toList) l).map fun o =>
    { o with effects := o.effects ++ submittedTasks action l.state o.loop.state }

def handleKeyEvent (now : Clock) (key : KeyEvent) (l : Loop) : Option Outcome :=
  (resolveKey key l).bind fun
    | (bundle, none) => some (.idle { l with bundle := bundle })
    | (bundle, some action) => handleAction now action { l with bundle := bundle }

/-- The keys of a run, as long as the loop goes on. -/
def feedKeys : List (Clock × KeyEvent) → Loop → Option Outcome
  | [], l => some (.idle l)
  | (now, key) :: rest, l =>
    if l.state.running then
      (handleKeyEvent now key l).bind fun o => o.followedBy (feedKeys rest)
    else some (.idle l)

def handleDaemonMessage (now : Clock) (msg : DaemonMessage) (l : Loop) : Option Outcome :=
  let l := match msg with
    | .reloadConfig config _ => { l with state := l.state.reloadFromConfig config }
    | _ => l
  (dispatchEach now (daemonActions msg) l).map fun o => match msg with
    | .benchmarkComplete _ => { o with effects := [.saveHistory o.loop.state.benchmarkHistory] }
    | _ => o

/-- A property of the actions that handlers make, up to the dispatch. -/
theorem performEach_dispatched {now : Clock} {actions : List Action} {l : Loop} {o : Outcome}
    (done : performEach now actions l = some o) : o.dispatched = actions := by
  induction actions generalizing l o with
  | nil =>
    obtain rfl := Option.some.inj done
    rfl
  | cons action rest ih =>
    obtain ⟨next, _, step⟩ := Option.bind_eq_some_iff.mp done
    obtain ⟨second, run, rfl⟩ := Outcome.followedBy_eq_some.mp step
    simpa [Outcome.dispatched] using ih run

/-- A key leads to the action it is resolved to and to what follows from it, and to no other. -/
theorem handleKeyEvent_dispatched {now : Clock} {key : KeyEvent} {l : Loop} {o : Outcome}
    (done : handleKeyEvent now key l = some o) :
    ∃ bundle action, resolveKey key l = some (bundle, action) ∧
      o.dispatched = action.toList.flatMap fun a => a :: (followUp a l.state).toList := by
  obtain ⟨⟨bundle, action⟩, resolved, handled⟩ := Option.bind_eq_some_iff.mp done
  refine ⟨bundle, action, resolved, ?_⟩
  cases action with
  | none =>
    obtain rfl := Option.some.inj handled
    rfl
  | some action =>
    obtain ⟨performed, run, rfl⟩ := Option.map_eq_some_iff.mp handled
    simpa [Outcome.dispatched] using performEach_dispatched run

end

end FerroWg.Tui
