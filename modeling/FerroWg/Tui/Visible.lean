import FerroWg.Lib.Run
import FerroWg.Tui.Editor
import FerroWg.Tui.Keys
import FerroWg.Tui.Writes

/-!
# The visible connections are known

The set of visible names and the list of connections are written by different operations. Over any
run of keys and messages every visible name is one of a connection, so that no look-up of the
selected connection panics.
-/

namespace FerroWg.Tui

open Lib

/-- What the event loop handles, one at a time. -/
inductive LoopEvent where
  | key (now : Clock) (key : KeyEvent)
  | message (now : Clock) (msg : DaemonMessage)

/-- The loop on a configuration, before anything happened. -/
def Loop.start (config : AppConfig) (history : List BenchmarkRun) : Loop :=
  ⟨{ AppState.new config with benchmarkHistory := history }, .new⟩

def VisibleKnown (s : AppState) : Prop := s.visibleConnections ⊆ allVisible s.connections

/-- The connection that the configuration tab draws into an area, if the area has room for one. -/
def ConfigComponent.drawnConnection (width height : UInt16) (s : AppState) :
    Option (Option ConnectionView) :=
  if height = 0 ∨ width < 20 then some none else viewedConnection s

/-- An action that toggles no unknown connection. -/
def TogglesKnown (s : AppState) : Action → Prop
  | .toggleConnectionVisibility name => name ∈ allVisible s.connections
  | _ => True

/-- A result has to come at a time that fits in an `i64`. -/
def InTime (now : Clock) : Action → Prop
  | .benchmarkComplete _ => now.unixMs < 2 ^ 63
  | _ => True

variable {s t : AppState}

theorem mem_allVisible {name : String} {connections : List ConnectionView} :
    name ∈ allVisible connections ↔ ∃ c ∈ connections, c.name = name := by
  simp [allVisible]

/-- The selected connection is found. -/
theorem VisibleKnown.findConnection (known : VisibleKnown s) {name : String}
    (least : s.minVisible = some name) : ∃ c, s.findConnection name = some c := by
  obtain ⟨c, member, named⟩ := mem_allVisible.mp (known (Finset.mem_of_min least))
  refine Option.isSome_iff_exists.mp (List.find?_isSome.mpr ⟨c, member, ?_⟩)
  simp [named]

theorem VisibleKnown.viewedConnection (known : VisibleKnown s) :
    ∃ viewed, viewedConnection s = some viewed := by
  rw [Tui.viewedConnection]
  cases least : s.minVisible with
  | none => exact ⟨none, rfl⟩
  | some name =>
    obtain ⟨c, found⟩ := known.findConnection least
    exact ⟨some c, by simp [found]⟩

theorem VisibleKnown.drawnConnection (known : VisibleKnown s) (width height : UInt16) :
    (ConfigComponent.drawnConnection width height s).isSome := by
  rw [ConfigComponent.drawnConnection]
  split
  · rfl
  · obtain ⟨viewed, same⟩ := known.viewedConnection
    simp [same]

theorem VisibleKnown.configUpdate (known : VisibleKnown s) (action : Action)
    (comp : ConfigComponent) : ∃ next, comp.update action s = some next := by
  obtain ⟨viewed, same⟩ := known.viewedConnection
  cases action with
  | deleteConfigPeer i =>
    simp only [ConfigComponent.update, ConfigComponent.peerDeleted, same]
    split
    · exact ⟨_, rfl⟩
    · split_ifs <;> exact ⟨_, rfl⟩
  | configFocusNext | configFocusPrev =>
    simp only [ConfigComponent.update, same]
    exact ⟨_, rfl⟩
  | _ => exact ⟨_, rfl⟩

theorem visibleKnown_start (config : AppConfig) (history : List BenchmarkRun) :
    VisibleKnown (Loop.start config history).state := Finset.Subset.refl _

theorem visibleKnown_reload (s : AppState) (config : AppConfig) :
    VisibleKnown (s.reloadFromConfig config) := Finset.Subset.refl _

theorem visibleKnown_toggle (known : VisibleKnown s) {name : String}
    (there : name ∈ allVisible s.connections) : VisibleKnown (toggleVisibility name s) := by
  rw [toggleVisibility, VisibleKnown]
  split
  · exact (Finset.erase_subset _ _).trans known
  · exact Finset.insert_subset there known

section

variable [Externals]

theorem allVisible_updated (statuses : List PeerStatus) (connections : List ConnectionView) :
    allVisible (statuses.foldl updateConnection connections) = allVisible connections := by
  have names := congrArg (List.map Prod.fst) (updateConnections_stored statuses connections)
  simp only [List.map_map, Function.comp_def] at names
  simp only [allVisible, names]

theorem visibleKnown_dispatch {now : Clock} {action : Action} (known : VisibleKnown s)
    (toggles : TogglesKnown s action) (taken : dispatch now action s = some t) :
    VisibleKnown t := by
  cases action with
  | toggleConnectionVisibility name =>
    cases taken
    exact visibleKnown_toggle known toggles
  | updatePeers statuses =>
    cases taken
    simpa only [VisibleKnown, applyPeerUpdates, allVisible_updated] using known
  | _ =>
    have visible := dispatch_writes .visible (by simp [Action.writes]) taken
    have connections := dispatch_writes .connections (by simp [Action.writes]) taken
    simp only [Part.Same] at visible connections
    rw [VisibleKnown, visible, connections]
    exact known

/-- With the visible names known, no dispatch panics. -/
theorem VisibleKnown.dispatch (known : VisibleKnown s) {now : Clock} {action : Action}
    (inTime : InTime now action) : ∃ t, Tui.dispatch now action s = some t := by
  cases action with
  | enterConfigEdit sect fieldIdx =>
    simp only [Tui.dispatch, enterConfigEdit]
    cases least : s.minVisible with
    | none => exact ⟨s, rfl⟩
    | some name =>
      obtain ⟨c, found⟩ := known.findConnection least
      simp only [found]
      exact ⟨_, rfl⟩
  | benchmarkComplete result =>
    simp only [InTime] at inTime
    simp only [Tui.dispatch, benchmarkComplete, if_pos inTime]
    exact ⟨_, rfl⟩
  | importKey | exportKey =>
    simp only [Tui.dispatch]
    split <;> exact ⟨_, rfl⟩
  | _ => exact ⟨_, rfl⟩

theorem VisibleKnown.dispatchAll {l : Loop} (known : VisibleKnown l.state) {now : Clock}
    {action : Action} (inTime : InTime now action) (toggles : TogglesKnown l.state action) :
    ∃ next, Tui.dispatchAll now action l = some next ∧ VisibleKnown next.state := by
  obtain ⟨t, taken⟩ := known.dispatch inTime
  have kept := visibleKnown_dispatch known toggles taken
  obtain ⟨comp, updated⟩ := kept.configUpdate action l.bundle.config
  obtain ⟨bundle, all⟩ : ∃ bundle, l.bundle.update action t = some bundle := by
    rw [ComponentBundle.update, updated]
    exact ⟨_, rfl⟩
  exact ⟨⟨t, bundle⟩, by simp [Tui.dispatchAll, taken, all], kept⟩

theorem VisibleKnown.dispatchEach {now : Clock} {actions : List Action}
    (possible : ∀ action ∈ actions, InTime now action ∧ ∀ s, TogglesKnown s action) {l : Loop}
    (known : VisibleKnown l.state) :
    ∃ o, Tui.dispatchEach now actions l = some o ∧ VisibleKnown o.loop.state := by
  induction actions generalizing l with
  | nil => exact ⟨_, rfl, known⟩
  | cons action rest ih =>
    rw [List.forall_mem_cons] at possible
    obtain ⟨next, taken, kept⟩ := known.dispatchAll possible.1.1 (possible.1.2 l.state)
    obtain ⟨later, run, last⟩ := ih possible.2 kept
    exact ⟨_, dispatchEach_cons.mpr ⟨next, later, taken, run, rfl⟩, last⟩

theorem VisibleKnown.performEach {now : Clock} {actions : List Action}
    (possible : ∀ action ∈ actions, InTime now action ∧ ∀ s, TogglesKnown s action) {l : Loop}
    (known : VisibleKnown l.state) :
    ∃ o, Tui.performEach now actions l = some o ∧ VisibleKnown o.loop.state := by
  obtain ⟨dispatched, each, kept⟩ := known.dispatchEach possible
  have same := performEach_map now actions l
  rw [each, Option.map_some] at same
  obtain ⟨o, performed, loop⟩ := Option.map_eq_some_iff.mp same
  exact ⟨o, performed, loop ▸ kept⟩

omit [Externals] in
theorem KeyAction.togglesKnown {action : Action} (keyed : KeyAction s action) :
    TogglesKnown s action := by
  cases action with
  | toggleConnectionVisibility name => exact mem_allVisible.mpr keyed
  | _ => trivial

omit [Externals] in
theorem KeyAction.inTime {action : Action} (keyed : KeyAction s action) (now : Clock) :
    InTime now action := by
  cases action with
  | benchmarkComplete => exact absurd keyed id
  | _ => trivial

omit [Externals] in
theorem followUp_possible {action next : Action} {before : AppState}
    (follows : next ∈ (followUp action before).toList) (now : Clock) :
    InTime now next ∧ ∀ s, TogglesKnown s next := by
  obtain rfl | rfl | ⟨i, rfl⟩ := followUp_confirmed (Option.mem_toList.mp follows) <;>
    exact ⟨trivial, fun _ => trivial⟩

omit [Externals] in
/-- No message toggles a connection. -/
theorem daemonActions_togglesKnown {action : Action} {msg : DaemonMessage}
    (member : action ∈ daemonActions msg) (s : AppState) : TogglesKnown s action := by
  cases action with
  | toggleConnectionVisibility name => cases msg <;> simp [daemonActions] at member
  | _ => trivial

omit [Externals] in
theorem inTime_of_clock {now : Clock} (inTime : now.unixMs < 2 ^ 63) (action : Action) :
    InTime now action := by
  cases action with
  | benchmarkComplete => exact inTime
  | _ => trivial

theorem VisibleKnown.resolveKey {l : Loop} (known : VisibleKnown l.state) (key : KeyEvent) :
    ∃ bundle made, Tui.resolveKey key l = some (bundle, made) := by
  obtain ⟨viewed, same⟩ := known.viewedConnection
  suffices (Tui.resolveKey key l).isSome by
    obtain ⟨⟨bundle, made⟩, resolved⟩ := Option.isSome_iff_exists.mp this
    exact ⟨bundle, made, resolved⟩
  rw [Tui.resolveKey]
  split_ifs
  · rfl
  · rfl
  · rfl
  · rfl
  · split <;> try split
    all_goals try rfl
    all_goals
      rw [ComponentBundle.tabHandleKey, ConfigComponent.handleKey]
      split <;> simp [same]

theorem VisibleKnown.handleKeyEvent {l : Loop} (known : VisibleKnown l.state) (now : Clock)
    (key : KeyEvent) : ∃ next, (Tui.handleKeyEvent now key l).map (·.loop) = some next ∧
      VisibleKnown next.state := by
  obtain ⟨bundle, made, resolved⟩ := known.resolveKey key
  cases made with
  | none => exact ⟨⟨l.state, bundle⟩, by simp only [Tui.handleKeyEvent, resolved]; rfl, known⟩
  | some action =>
    have keyed := resolveKey_keyed resolved action rfl
    obtain ⟨next, taken, kept⟩ :=
      VisibleKnown.dispatchAll (l := ⟨l.state, bundle⟩) known (keyed.inTime now) keyed.togglesKnown
    have possible : ∀ follow ∈ (followUp action l.state).toList,
        InTime now follow ∧ ∀ s, TogglesKnown s follow :=
      fun _ follows => followUp_possible follows now
    obtain ⟨later, run, last⟩ := kept.performEach possible
    have performed := performEach_cons.mpr ⟨next, later, taken, run, rfl⟩
    refine ⟨later.loop, ?_, last⟩
    simp only [Tui.handleKeyEvent, resolved, Option.bind_some, handleAction]
    rw [performed]
    rfl

omit [Externals] in
theorem visibleKnown_received {l : Loop} (known : VisibleKnown l.state) (msg : DaemonMessage) :
    VisibleKnown (received msg l).state := by
  cases msg with
  | reloadConfig config message => exact visibleKnown_reload l.state config
  | _ => exact known

theorem VisibleKnown.handleDaemonMessage {l : Loop} (known : VisibleKnown l.state) {now : Clock}
    (msg : DaemonMessage) (inTime : now.unixMs < 2 ^ 63) :
    (Tui.handleDaemonMessage now msg l).isSome := by
  have possible : ∀ action ∈ daemonActions msg,
      InTime now action ∧ ∀ s, TogglesKnown s action :=
    fun action member => ⟨inTime_of_clock inTime action, daemonActions_togglesKnown member⟩
  obtain ⟨o, run, _⟩ := VisibleKnown.dispatchEach possible (visibleKnown_received known msg)
  rw [← Option.isSome_map (f := (·.loop)), handleDaemonMessage_map, run]
  rfl

theorem visibleKnown_handleDaemonMessage {l : Loop} {o : Outcome} {now : Clock}
    {msg : DaemonMessage} (known : VisibleKnown l.state)
    (done : handleDaemonMessage now msg l = some o) : VisibleKnown o.loop.state := by
  obtain ⟨dispatched, run, same⟩ := handleDaemonMessage_loop done
  rw [same]
  refine dispatchEach_inv VisibleKnown (fun action member s t known taken => ?_)
    (visibleKnown_received known msg) run
  exact visibleKnown_dispatch known (daemonActions_togglesKnown member s) taken

def Loop.step (l : Loop) : LoopEvent → Option Loop
  | .key now key => (handleKeyEvent now key l).map (·.loop)
  | .message now msg => (handleDaemonMessage now msg l).map (·.loop)

/-- The actions that an event makes. -/
def LoopEvent.Makes (l : Loop) (action : Action) : LoopEvent → Prop
  | .key _ pressed => ∃ bundle first, resolveKey pressed l = some (bundle, some first) ∧
      action ∈ first :: (followUp first l.state).toList
  | .message _ msg => action ∈ daemonActions msg

omit [Externals] in
/-- The state that the first of them finds. -/
def LoopEvent.finds (l : Loop) : LoopEvent → AppState
  | .key _ _ => l.state
  | .message _ msg => (received msg l).state

/-- What each of its actions preserves, an event does. -/
theorem Loop.step_inv (inv : AppState → Prop) {l next : Loop} {event : LoopEvent}
    (preserved : ∀ action, event.Makes l action → ∀ now s t, inv s →
      dispatch now action s = some t → inv t)
    (initial : inv (event.finds l)) (taken : l.step event = some next) : inv next.state := by
  cases event with
  | key now key =>
    obtain ⟨o, done, rfl⟩ := Option.map_eq_some_iff.mp taken
    obtain ⟨bundle, _, rfl⟩ | ⟨bundle, first, performed, resolved, run, rfl⟩ :=
      handleKeyEvent_cases done
    · exact initial
    · have kept := performEach_inv (l := ⟨l.state, bundle⟩) inv
        (fun action member => preserved action ⟨bundle, first, resolved, member⟩ now) initial run
      exact kept
  | message now msg =>
    obtain ⟨o, done, rfl⟩ := Option.map_eq_some_iff.mp taken
    obtain ⟨dispatched, run, same⟩ := handleDaemonMessage_loop done
    rw [same]
    exact dispatchEach_inv inv (fun action member => preserved action member now) initial run

/-- No look-up of the selected connection panics: not over a key, not over a message, and not in
drawing. -/
structure LooksUp (l : Loop) : Prop where
  key : ∀ now key, (handleKeyEvent now key l).isSome
  message : ∀ now msg, now.unixMs < 2 ^ 63 → (handleDaemonMessage now msg l).isSome
  drawing : ∀ width height, (ConfigComponent.drawnConnection width height l.state).isSome

theorem VisibleKnown.looksUp {l : Loop} (known : VisibleKnown l.state) : LooksUp l where
  key now key := by
    obtain ⟨next, done, _⟩ := known.handleKeyEvent now key
    rw [← Option.isSome_map (f := (·.loop)), done]
    rfl
  message _ msg inTime := known.handleDaemonMessage msg inTime
  drawing := known.drawnConnection

theorem visibleKnown_step {l next : Loop} {event : LoopEvent} (known : VisibleKnown l.state)
    (taken : l.step event = some next) : VisibleKnown next.state := by
  cases event with
  | key now key =>
    obtain ⟨next', done, kept⟩ := known.handleKeyEvent now key
    obtain rfl := Option.some.inj (done.symm.trans taken)
    exact kept
  | message now msg =>
    obtain ⟨o, done, rfl⟩ := Option.map_eq_some_iff.mp taken
    exact visibleKnown_handleDaemonMessage known done

/-- Over a run from any configuration, the visible names are known and the look-ups succeed. -/
theorem visible_known (config : AppConfig) (history : List BenchmarkRun)
    (events : List LoopEvent) :
    Always Loop.step (fun l => VisibleKnown l.state ∧ LooksUp l) events (.start config history) :=
  (always_of_step (fun _ _ _ known taken => visibleKnown_step known taken) events
    (visibleKnown_start config history)).mono fun _ known => ⟨known, known.looksUp⟩

end

end FerroWg.Tui
