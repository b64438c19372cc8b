import FerroWg.Tui.Visible

/-!
# Parts of the loop

A part of the loop has a step of its own. If it follows every action that is dispatched, every key
that is resolved and every reload, it follows the runs of the program.
-/

namespace FerroWg.Tui

open Lib

variable [Externals]

/-- What keys do to the components before any action: they reach the configuration tab, or the
log, or no component that keeps a state. -/
theorem resolveKey_bundle {l : Loop} {key : KeyEvent} {bundle : ComponentBundle}
    {made : Option Action} (resolved : resolveKey key l = some (bundle, made)) :
    bundle = l.bundle ∨
      (∃ config, l.bundle.config.handleKey key l.state = some (config, made) ∧
        bundle = { l.bundle with config := config }) ∨
      bundle = { l.bundle with logs := l.bundle.logs.handleKey key l.state } := by
  rw [resolveKey] at resolved
  split_ifs at resolved with help filter diff confirm
  case pos | pos | pos | pos =>
    cases resolved
    exact .inl rfl
  split at resolved
  case h_4 | h_5 =>
    split at resolved
    · cases resolved
      exact .inl rfl
    · rw [ComponentBundle.tabHandleKey] at resolved
      cases tab : l.state.activeTab with
      | config =>
        rw [tab] at resolved
        obtain ⟨⟨config, action⟩, handled, same⟩ := Option.map_eq_some_iff.mp resolved
        cases same
        exact .inr (.inl ⟨config, handled, rfl⟩)
      | logs =>
        rw [tab] at resolved
        cases resolved
        exact .inr (.inr rfl)
      | _ =>
        rw [tab] at resolved
        cases resolved
        exact .inl rfl
  all_goals
    cases resolved
    exact .inl rfl

variable {V E : Type} {fine : V → E → Option V} {f : Loop → V}

variable (fine f) in
/-- A part that follows what the loop does, each time by a run of its own. -/
structure Simulates : Prop where
  dispatched : ∀ {now action l next}, dispatchAll now action l = some next →
    ∃ events, run fine events (f l) = some (f next)
  resolved : ∀ {key l bundle made}, resolveKey key l = some (bundle, made) →
    ∃ events, run fine events (f l) = some (f ⟨l.state, bundle⟩)
  reloaded : ∀ config l,
    ∃ events, run fine events (f l) = some (f { l with state := l.state.reloadFromConfig config })

omit [Externals] in
theorem run_trans {a b c : V} (first : ∃ events, run fine events a = some b)
    (second : ∃ events, run fine events b = some c) : ∃ events, run fine events a = some c := by
  obtain ⟨done, reached⟩ := first
  obtain ⟨rest, last⟩ := second
  exact ⟨done ++ rest, by rw [run_append, reached, Option.bind_some, last]⟩

namespace Simulates

variable {l next : Loop}

theorem dispatchEach (sim : Simulates fine f) {now : Clock} {actions : List Action} {o : Outcome}
    (done : Tui.dispatchEach now actions l = some o) :
    ∃ events, run fine events (f l) = some (f o.loop) := by
  induction actions generalizing l o with
  | nil =>
    cases done
    exact ⟨[], rfl⟩
  | cons action rest ih =>
    obtain ⟨next, later, taken, performed, rfl⟩ := dispatchEach_cons.mp done
    have last := ih performed
    exact run_trans (sim.dispatched taken) last

theorem performEach (sim : Simulates fine f) {now : Clock} {actions : List Action} {o : Outcome}
    (done : Tui.performEach now actions l = some o) :
    ∃ events, run fine events (f l) = some (f o.loop) := by
  obtain ⟨dispatched, each, same⟩ := performEach_loop done
  rw [same]
  exact sim.dispatchEach each

theorem step (sim : Simulates fine f) {event : LoopEvent} (taken : l.step event = some next) :
    ∃ events, run fine events (f l) = some (f next) := by
  cases event with
  | key now key =>
    obtain ⟨o, done, rfl⟩ := Option.map_eq_some_iff.mp taken
    rcases handleKeyEvent_cases done with
      ⟨bundle, resolved, rfl⟩ | ⟨bundle, action, performed, resolved, each, rfl⟩
    · exact sim.resolved resolved
    · have last := sim.performEach each
      exact run_trans (sim.resolved resolved) last
  | message now msg =>
    obtain ⟨o, done, rfl⟩ := Option.map_eq_some_iff.mp taken
    obtain ⟨dispatched, each, same⟩ := handleDaemonMessage_loop done
    rw [same]
    refine run_trans ?_ (sim.dispatchEach each)
    cases msg with
    | reloadConfig config message => exact sim.reloaded config l
    | _ => exact ⟨[], rfl⟩

/-- What is proved of the runs of the part is proved of those of the program. -/
theorem runs (sim : Simulates fine f) {events : List LoopEvent}
    (reached : run Loop.step events l = some next) :
    ∃ events, run fine events (f l) = some (f next) :=
  run_simulated (fun _ _ _ taken => sim.step taken) reached

end Simulates

end FerroWg.Tui
