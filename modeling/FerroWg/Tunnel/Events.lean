import FerroWg.Lib.Run
import FerroWg.Tunnel.TearDown

/-!
# Runs of the manager

One connection going up or down is an event, as are a new configuration and a device that is let
go of. A call on all connections is a run of such events.
-/

namespace FerroWg.Tunnel

open Lib Lib.Undo

inductive Event where
  | up (name : String) (kind : BackendKind) (a : UpAnswers)
  | down (name : String) (a : DownAnswers)
  | reloadConfig (config : AppConfig)
  | letGo (tun : String)

inductive Call where
  | one (event : Event)
  | upAll (kind : BackendKind) (a : String → UpAnswers)
  | downAll (names : List String) (a : String → DownAnswers)

section

variable [Externals] (platform : Platform)

def stepEvent (w : World) : Event → Option World
  | .up name kind a => some (after (up platform a name kind) w)
  | .down name a => some (after (down a name) w)
  | .reloadConfig config => some (reloadConfig config w)
  | .letGo tun => if tun ∈ w.closing then some (letGo tun w) else none

/-- The names that `down_all` goes through are those that are up, in any order. -/
def stepCall (w : World) : Call → Option World
  | .one event => stepEvent platform w event
  | .upAll kind a => some (after (upAll platform a kind) w)
  | .downAll names a =>
    if names.Perm w.manager.connections.keys then some (after (downAll a names) w) else none

/-- The events of `up_all`: what is up already is skipped, and a failure is the last. -/
def upEvents (a : String → UpAnswers) (kind : BackendKind) : List String → World → List Event
  | [], _ => []
  | name :: rest, w =>
    if w.manager.connections.contains name then upEvents a kind rest w
    else .up name kind (a name) ::
      match (up platform (a name) name kind).run w with
      | .ok _ t => upEvents a kind rest t
      | .error _ _ => []

def eventsOf (w : World) : Call → List Event
  | .one event => [event]
  | .upAll kind a => upEvents platform a kind w.manager.config.connectionNames w
  | .downAll names a => names.map fun name => .down name (a name)

/-- `up_all` is the run of its events. -/
theorem run_upEvents (a : String → UpAnswers) (kind : BackendKind) (names : List String) (w : World) :
    run (stepEvent platform) (upEvents platform a kind names w) w =
      some (after (names.forM fun name => do
        if (← get).manager.connections.contains name then pure ()
        else up platform (a name) name kind) w) := by
  induction names generalizing w with
  | nil => rfl
  | cons name rest ih =>
    let body (name : String) : Daemon Unit := do
      if (← get).manager.connections.contains name then pure () else up platform (a name) name kind
    change _ = some (after (body name >>= fun _ => rest.forM body) w)
    rw [upEvents]
    cases active : w.manager.connections.contains name with
    | true =>
      have skipped : (body name).run w = .ok () w := by
        simp only [body, EStateM.run_bind, EStateM.run_get, active, if_true, EStateM.run_pure]
      rw [after_bind_of_ok skipped]
      exact ih w
    | false =>
      have called : (body name).run w = (up platform (a name) name kind).run w := by
        simp only [body, EStateM.run_bind, EStateM.run_get, active, Bool.false_eq_true, if_false]
      simp only [Bool.false_eq_true, if_false, run_cons, stepEvent, Option.bind_some]
      cases ran : (up platform (a name) name kind).run w with
      | ok u t =>
        rw [after_bind_of_ok (called.trans ran), after_of_ok ran]
        exact ih t
      | error e t =>
        rw [after_bind_of_error (called.trans ran), after_of_error ran]
        rfl

theorem run_downEvents (a : String → DownAnswers) (names : List String) (w : World) :
    run (stepEvent platform) (names.map fun name => .down name (a name)) w =
      some (after (downAll a names) w) := by
  induction names generalizing w with
  | nil => rfl
  | cons name rest ih =>
    refine (ih (after (down (a name) name) w)).trans (congrArg some ?_)
    exact (after_passOver_bind (down (a name) name) (fun _ => downAll a rest) w).symm

/-- A call is the run of its events. -/
theorem run_eventsOf {w t : World} {call : Call} (taken : stepCall platform w call = some t) :
    run (stepEvent platform) (eventsOf platform w call) w = some t := by
  cases call with
  | one event =>
    have last : stepEvent platform w event = some t := taken
    rw [eventsOf, run_cons, last]
    rfl
  | upAll kind a => exact (run_upEvents platform a kind _ w).trans taken
  | downAll names a =>
    simp only [stepCall] at taken
    split at taken
    · exact (run_downEvents platform a names w).trans taken
    · cases taken

theorem stepEvent_wellFormed {w t : World} {event : Event}
    (taken : stepEvent platform w event = some t) (wellFormed : w.system.WellFormed) :
    t.system.WellFormed := by
  cases event with
  | up name kind a =>
    cases taken
    rcases up_cases platform a kind name wellFormed with
      ⟨_, e, ran⟩ | ⟨plan, tun, dnsState, t, _, _, _, ⟨_, there, ran⟩ | ⟨_, network, e, ran⟩⟩
    · rwa [after_of_error ran]
    · rw [after_of_ok ran]
      exact there.wellFormed wellFormed
    · rw [after_of_error ran]
      exact wellFormed.congr network
  | down name a =>
    cases taken
    rcases down_cases a name w with ⟨_, e, ran⟩ | ⟨conn, t, _, torn, ran⟩
    · rwa [after_of_error ran]
    · rw [after_of_ok ran]
      split
      · exact (torn.wellFormed wellFormed).dropInterface _
      · exact torn.wellFormed wellFormed
  | reloadConfig config =>
    cases taken
    exact wellFormed
  | letGo tun =>
    simp only [stepEvent] at taken
    split at taken <;> cases taken
    exact wellFormed.dropInterface tun

end

end FerroWg.Tunnel
