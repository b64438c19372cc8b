import FerroWg.Core.Disk
import FerroWg.Lib.Expiring
import FerroWg.Lib.Run
import FerroWg.Tui.Writes

/-!
# Toasts

A toast is created with the time, and lasts for three seconds. At most five are kept, and a tick
clears those at the front that have expired, each by a reading of the clock.
-/

namespace FerroWg.Tui

open Lib

/-- `clear_expired_toasts` from the reading `n` on. -/
def clearExpiredReadings (clock : Nat → Nat) (n : Nat) (toasts : List Toast) : List Toast × Nat :=
  Expiring.clear Toast.expiresAt clock n toasts

theorem clearExpiredReadings_still {clock : Nat → Nat} {n : Nat} {now : Clock}
    (still : ∀ m, n ≤ m → clock m = now.instant) (s : AppState) :
    { s with toasts := (clearExpiredReadings clock n s.toasts).1 } = s.clearExpiredToasts now := by
  rw [clearExpiredReadings, Expiring.clear_still still, AppState.clearExpiredToasts]

/-- The toasts that an action creates. -/
def createdToasts (now : Clock) (s : AppState) : Action → List Toast
  | .daemonOk message => [⟨message, false, now.instant + toastDuration⟩]
  | .daemonError message => [⟨message, true, now.instant + toastDuration⟩]
  | .startBenchmark | .startBenchmarkForBackend _ =>
    if s.benchmarkRunning then
      [⟨"benchmark already running", true, now.instant + toastDuration⟩]
    else []
  | _ => []

/-- A state, all the toasts that were pushed, and how often the clock was read. -/
structure Toasting where
  state : AppState
  pushed : List Toast
  readings : Nat

inductive ToastEvent where
  | act (unixMs : Nat) (action : Action)
  | clearExpired

namespace Toasting

def start (config : AppConfig) : Toasting := ⟨AppState.new config, [], 0⟩

/-- The queue is the end of all that was pushed, in the order of expiry. -/
structure Queued (t : Toasting) : Prop where
  suffix : t.state.toasts <:+ t.pushed
  sorted : t.state.toasts.Pairwise fun a b => a.expiresAt ≤ b.expiresAt
  bounded : t.state.toasts.length ≤ maxVisibleToasts

variable (clock : Nat → Nat)

/-- What carries it: no toast expires later than one that is created now would. -/
structure Timed (t : Toasting) : Prop where
  holds : Expiring.Holds Toast.expiresAt clock maxVisibleToasts t.pushed t.state.toasts t.readings
  created : ∀ toast ∈ t.pushed, toast.expiresAt ≤ clock t.readings + toastDuration

section

variable [Externals]

def step (t : Toasting) : ToastEvent → Option Toasting
  | .act unixMs action =>
    let now : Clock := ⟨clock t.readings, unixMs⟩
    (dispatch now action t.state).map fun s =>
      ⟨s, t.pushed ++ createdToasts now t.state action, t.readings + 1⟩
  | .clearExpired =>
    let (kept, readings) := clearExpiredReadings clock t.readings t.state.toasts
    some ⟨{ t.state with toasts := kept }, t.pushed, readings⟩

/-- A clear leaves those of the last five that have not expired by its last reading. -/
def ClearsExpired (t : Toasting) (event : ToastEvent) : Prop :=
  event = .clearExpired → ∀ next, t.step clock event = some next →
    next.state.toasts = (t.pushed.drop (t.pushed.length - maxVisibleToasts)).filter fun toast =>
      clock (next.readings - 1) < toast.expiresAt

end

variable {clock}

theorem Timed.queued {t : Toasting} (timed : t.Timed clock) : t.Queued :=
  ⟨timed.holds.suffix, timed.holds.sorted_queue, timed.holds.length_le⟩

/-- The code drops the first toast once there are too many. -/
theorem pushToast_push {s : AppState} (bounded : s.toasts.length ≤ maxVisibleToasts) (now : Clock)
    (message : String) (isError : Bool) : (s.pushToast now message isError).toasts =
      Newest.push maxVisibleToasts s.toasts ⟨message, isError, now.instant + toastDuration⟩ := by
  rw [AppState.pushToast, Newest.push]
  simp only [List.length_append, List.length_singleton]
  by_cases full : s.toasts.length = maxVisibleToasts
  · have some_toast : s.toasts ≠ [] := by
      intro none
      rw [none] at full
      cases full
    rw [if_pos (by omega), if_pos full, List.tail_append_of_ne_nil some_toast]
  · rw [if_neg (by omega), if_neg full]

theorem dispatch_createdToasts [Externals] {now : Clock} {action : Action} {s t : AppState}
    (bounded : s.toasts.length ≤ maxVisibleToasts) (taken : dispatch now action s = some t) :
    t.toasts = (createdToasts now s action).foldl (Newest.push maxVisibleToasts) s.toasts := by
  cases action with
  | daemonOk | daemonError =>
    cases taken
    exact pushToast_push bounded _ _ _
  | startBenchmark | startBenchmarkForBackend =>
    cases taken
    rw [startBenchmark, createdToasts]
    split
    · exact pushToast_push bounded _ _ _
    · rfl
  | _ => exact dispatch_writes .toasts (by simp [Action.writes]) taken

theorem createdToasts_cases (now : Clock) (s : AppState) (action : Action) :
    createdToasts now s action = [] ∨ ∃ toast, createdToasts now s action = [toast] ∧
      toast.expiresAt = now.instant + toastDuration := by
  cases action with
  | daemonOk | daemonError => exact .inr ⟨_, rfl, rfl⟩
  | startBenchmark | startBenchmarkForBackend =>
    rw [createdToasts]
    split
    · exact .inr ⟨_, rfl, rfl⟩
    · exact .inl rfl
  | _ => exact .inl rfl

theorem timed_start (config : AppConfig) : (start config).Timed clock :=
  ⟨.empty, fun _ member => absurd member List.not_mem_nil⟩

theorem Timed.push {t : Toasting} (timed : t.Timed clock) (monotone : Monotone clock)
    {created : List Toast} (one : created = [] ∨ ∃ toast, created = [toast] ∧
      toast.expiresAt = clock t.readings + toastDuration) {s : AppState}
    (queue : s.toasts = created.foldl (Newest.push maxVisibleToasts) t.state.toasts) :
    Timed clock ⟨s, t.pushed ++ created, t.readings + 1⟩ := by
  have later : clock t.readings ≤ clock (t.readings + 1) := monotone (Nat.le_succ _)
  rcases one with rfl | ⟨toast, rfl, expires⟩
  · rw [List.append_nil]
    constructor
    · rw [queue]
      exact timed.holds.later monotone (Nat.le_succ _)
    · intro toast member
      exact (timed.created toast member).trans (Nat.add_le_add_right later _)
  · have last : ∀ b ∈ t.pushed, b.expiresAt ≤ toast.expiresAt := by
      rw [expires]
      exact timed.created
    constructor
    · rw [queue]
      exact (timed.holds.push (by decide) last).later monotone (Nat.le_succ _)
    · intro b member
      rcases List.mem_append.mp member with old | new
      · exact (timed.created b old).trans (Nat.add_le_add_right later _)
      · rw [List.mem_singleton.mp new, expires]
        exact Nat.add_le_add_right later _

theorem Timed.step [Externals] {t next : Toasting} (timed : t.Timed clock)
    (monotone : Monotone clock) {event : ToastEvent} (taken : t.step clock event = some next) :
    next.Timed clock := by
  cases event with
  | act unixMs action =>
    obtain ⟨s, dispatched, rfl⟩ := Option.map_eq_some_iff.mp taken
    exact timed.push monotone (createdToasts_cases _ _ _)
      (dispatch_createdToasts timed.queued.bounded dispatched)
  | clearExpired =>
    obtain rfl := Option.some.inj taken
    constructor
    · exact timed.holds.clear monotone
    · intro toast member
      refine (timed.created toast member).trans (Nat.add_le_add_right (monotone ?_) _)
      exact Expiring.le_clear _

theorem Timed.clearsExpired [Externals] {t : Toasting} (timed : t.Timed clock)
    (monotone : Monotone clock) (event : ToastEvent) : t.ClearsExpired clock event := by
  rintro rfl next taken
  obtain rfl := Option.some.inj taken
  exact timed.holds.clear_eq_filter monotone

/-- Over any run with a clock that never goes back. -/
theorem toasts_queued [Externals] {clock : Nat → Nat} (monotone : Monotone clock)
    (config : AppConfig) (events : List ToastEvent) :
    Always (step clock) Queued events (start config) ∧
      Along (step clock) (ClearsExpired clock) events (start config) := by
  have timed : Always (step clock) (Timed clock) events (start config) :=
    always_of_step (fun _ _ _ timed taken => timed.step monotone taken) events (timed_start config)
  constructor
  · exact timed.mono fun _ timed => timed.queued
  · exact along_of_always (fun _ event _ timed _ _ => timed.clearsExpired monotone event) timed

end Toasting

namespace ToastSample

@[reducible] def externals : Externals := .tabulated [] [] []

/-- Every two seconds. -/
def clock (n : Nat) : Nat := n * 2000000000

theorem clock_monotone : Monotone clock := fun _ _ le => Nat.mul_le_mul_right _ le

def events : List ToastEvent := [.act 0 (.daemonOk "up"), .act 0 (.daemonError "down"), .clearExpired]

end ToastSample

open Toasting ToastSample in
theorem toasts_queued_events :
    Always (@step clock externals) Queued events (start default) ∧
      Along (@step clock externals) (@ClearsExpired clock externals) events (start default) :=
  @toasts_queued externals clock clock_monotone default events

end FerroWg.Tui
