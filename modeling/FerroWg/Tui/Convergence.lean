import FerroWg.Tui.Polling

/-!
# A poll that gets through

Whatever was lost before: once a poll gets through and the mail has been taken, what is on show is
what the daemon has.
-/

namespace FerroWg.Tui

open Lib Daemon Tunnel

/-- A turn that polls, or takes a message: no key and no other client is in it. -/
inductive Turn.Polls (now : Clock) (p : Passage) : Turn → Prop
  | tick : Polls now p .tick
  | ask (i : Nat) : Polls now p (.askPoll i p)
  | tell (i : Nat) : Polls now p (.tellPoll i)
  | release (i : Nat) : Polls now p (.releasePoll i)
  | receive : Polls now p (.tui (.receive now))

section

variable [Externals]

/-- The connections are those of a configuration, each with the status it was given last. -/
def AppState.ViewsLoaded (s : AppState) : Prop :=
  ∃ w : Watch, s.connections = showStatuses (connectionViews w.loaded) w.applied

theorem AppState.ViewsLoaded.distinct {s : AppState} (loaded : s.ViewsLoaded) :
    (s.connections.map statusUpdate.key).Nodup := by
  obtain ⟨w, shown⟩ := loaded
  rw [shown, showStatuses, statusUpdate.batch_keys]
  exact connectionViews_distinct w.loaded

variable {json : SerdeJson} {platform : Platform}

variable {now : Clock}

/-- No component follows a message. -/
theorem reports_update {action : Action} (reports : action.reports = true) (s : AppState)
    (bundle : ComponentBundle) : bundle.update action s = some bundle := by
  cases action with
  | daemonOk | daemonError | updatePeers | daemonConnectivityChanged | benchmarkProgressUpdate
  | benchmarkComplete =>
    simp [ComponentBundle.update, ConfigComponent.update, TableState.update, connectionFilterUpdate]
  | _ => cases reports

/-- None makes the loop panic while the time fits, or stops it. -/
theorem reports_taken (inTime : now.unixMs < 2 ^ 63) {action : Action}
    (reports : action.reports = true) (l : Loop) :
    ∃ next, dispatchAll now action l = some next ∧ next.state.running = l.state.running := by
  have taken : ∃ t, dispatch now action l.state = some t ∧ t.running = l.state.running := by
    cases action with
    | daemonOk | daemonError | updatePeers | daemonConnectivityChanged | benchmarkProgressUpdate =>
      exact ⟨_, rfl, rfl⟩
    | benchmarkComplete =>
      simp only [dispatch, benchmarkComplete, inTime, if_true]
      exact ⟨_, rfl, rfl⟩
    | _ => cases reports
  obtain ⟨t, taken, running⟩ := taken
  refine ⟨⟨t, l.bundle⟩, ?_, running⟩
  rw [dispatchAll, taken, Option.bind_some, reports_update reports, Option.map_some]

theorem dispatchEach_taken {actions : List Action}
    (each : ∀ action ∈ actions, ∀ l : Loop,
      ∃ next, dispatchAll now action l = some next ∧ next.state.running = l.state.running)
    (l : Loop) :
    ∃ o, dispatchEach now actions l = some o ∧ o.loop.state.running = l.state.running := by
  induction actions generalizing l with
  | nil => exact ⟨.idle l, rfl, rfl⟩
  | cons action rest ih =>
    rw [List.forall_mem_cons] at each
    obtain ⟨next, taken, same⟩ := each.1 l
    obtain ⟨later, dispatched, still⟩ := ih each.2 next
    exact ⟨_, dispatchEach_cons.mpr ⟨next, later, taken, dispatched, rfl⟩, still.trans same⟩

theorem handleDaemonMessage_taken (inTime : now.unixMs < 2 ^ 63) (msg : DaemonMessage) (l : Loop) :
    ∃ o, handleDaemonMessage now msg l = some o ∧ o.loop.state.running = l.state.running := by
  obtain ⟨dispatched, each, same⟩ := dispatchEach_taken
    (fun action member => reports_taken inTime (daemonActions_reports member)) (received msg l)
  have loops := handleDaemonMessage_map now msg l
  rw [each, Option.map_some] at loops
  obtain ⟨o, done, loop⟩ := Option.map_eq_some_iff.mp loops
  refine ⟨o, done, ?_⟩
  rw [loop, same]
  cases msg <;> rfl

variable {s : Conversation} (json platform)

theorem receive_taken (running : s.program.loop.state.running = true)
    (inTime : now.unixMs < 2 ^ 63) {mail : Mail} {rest : List Mail}
    (channel : s.program.channel = mail :: rest) :
    ∃ o, handleDaemonMessage now mail.message s.program.loop = some o ∧
      o.loop.state.running = true ∧ s.step json platform (.tui (.receive now)) =
        some { s with program := { s.program with loop := o.loop, channel := rest } } := by
  obtain ⟨o, done, same⟩ := handleDaemonMessage_taken inTime mail.message s.program.loop
  refine ⟨o, done, same.trans running, ?_⟩
  simp [Conversation.step, running, Conversation.stepTask, Conversation.stepTui,
    Happening.sendsStatus, Program.step, channel, done, Conversation.effects, spawnedCommands]

/-- All the mail before the last, by induction on it. -/
theorem drained (inTime : now.unixMs < 2 ^ 63) {mails : List Mail} {last : Mail}
    (running : s.program.loop.state.running = true) (loaded : s.program.loop.state.ViewsLoaded)
    (channel : s.program.channel = mails ++ [last]) :
    ∃ program, run (Conversation.step json platform)
        (mails.map fun _ => .tui (.receive now)) s = some { s with program := program } ∧
      program.channel = [last] ∧ program.loop.state.running = true ∧
      program.loop.state.ViewsLoaded := by
  induction mails generalizing s with
  | nil => exact ⟨s.program, rfl, channel, running, loaded⟩
  | cons mail mails ih =>
    obtain ⟨o, done, running, taken⟩ := receive_taken json platform running inTime channel
    obtain ⟨w, shown⟩ := loaded
    obtain ⟨program, reached, rest⟩ := ih
      (s := { s with program := { s.program with loop := o.loop, channel := mails ++ [last] } })
      running ⟨_, handleDaemonMessage_connections done shown⟩ rfl
    refine ⟨program, ?_, rest⟩
    rw [List.map_cons, run_cons, taken, Option.bind_some]
    exact reached

/-! ## A poll asks -/

/-- Whatever became of the poll before, the next one gets to its question. -/
theorem asks (p : Passage) (now : Clock) (running : s.program.loop.state.running = true)
    (single : s.polls.length = s.pollInFlight.toNat) :
    ∃ more program, (∀ turn ∈ more, turn.Polls now p) ∧
      run (Conversation.step json platform) more s =
        some { s with program := program, pollInFlight := true, polls := [.asking] } ∧
      program.loop = s.program.loop := by
  obtain ⟨program, flag, polls, commands, daemon⟩ := s
  simp only at running single
  match polls, flag, single with
  | [], false, _ =>
    refine ⟨[.tick], program, by simp [Turn.Polls.tick], ?_, rfl⟩
    simp [run_cons, Conversation.step, running, Conversation.stepTask, Conversation.spawnStatusPoll]
  | [.asking], true, _ => exact ⟨[], program, by simp, rfl, rfl⟩
  | [.answered answer], true, _ =>
    refine ⟨[.tellPoll 0, .releasePoll 0, .tick], program.post (pollMessage answer), ?_, ?_, rfl⟩
    · simp [Turn.Polls.tick, Turn.Polls.tell, Turn.Polls.release]
    · simp [run_cons, Conversation.step, running, Conversation.stepTask,
        Conversation.spawnStatusPoll, Program.post]
  | [.told], true, _ =>
    refine ⟨[.releasePoll 0, .tick], program, ?_, ?_, rfl⟩
    · simp [Turn.Polls.tick, Turn.Polls.release]
    · simp [run_cons, Conversation.step, running, Conversation.stepTask,
        Conversation.spawnStatusPoll]

variable {json platform}

end

end FerroWg.Tui
