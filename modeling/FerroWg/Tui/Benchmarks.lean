import FerroWg.Lib.Run
import FerroWg.Tui.Keys
import FerroWg.Tui.Writes

/-!
# Benchmark tasks

The loop, the benchmark tasks it has spawned and the channel they answer through. A task streams
progress and ends with one message, a result or an error. Every other task is left to whoever
decides what happens next.
-/

namespace FerroWg.Tui

open Lib

/-- A `spawn_benchmark_task` that has not ended. -/
structure BenchmarkTask where
  connectionName : String
  durationSecs : UInt32
  streaming : Bool
  deriving DecidableEq, Repr

/-- What a task waits for: the answer to its request, then one response after another. -/
inductive StreamEvent where
  | failed (e : DaemonClientError)
  | connected
  | response (r : DaemonResponse)
  | closed

def errorToMessage (e : DaemonClientError) : DaemonMessage :=
  if e.isNotRunning then .unreachable else .commandError (.daemonClient e.display)

/-- The message a task sends, and the task it goes on as. -/
def BenchmarkTask.poll (task : BenchmarkTask) (event : StreamEvent) :
    Option (Option DaemonMessage × Option BenchmarkTask) :=
  match task.streaming, event with
  | false, .failed e => some (some (errorToMessage e), none)
  | false, .connected => some (none, some { task with streaming := true })
  | true, .response (.benchmarkProgress p) => some (some (.benchmarkProgress p), some task)
  | true, .response (.benchmarkResult r) => some (some (.benchmarkComplete r), none)
  | true, .response (.error e) => some (some (.commandError (.daemonResponse e)), none)
  | true, .response _ => some (none, some task)
  | true, .closed => some (some (.commandError .streamClosed), none)
  | _, _ => none

/-- A message in the channel, and the connection whose benchmark sent it, if one did. -/
structure Mail where
  sender : Option String
  message : DaemonMessage

structure Program where
  loop : Loop
  benchmarks : List BenchmarkTask
  channel : List Mail

inductive Happening where
  | key (now : Clock) (key : KeyEvent)
  | receive (now : Clock)
  | expire (now : Clock)
  | benchmark (i : Nat) (event : StreamEvent)
  | send (message : DaemonMessage)

def DaemonMessage.isProgress : DaemonMessage → Bool
  | .benchmarkProgress _ => true
  | _ => false

def DaemonMessage.isComplete : DaemonMessage → Bool
  | .benchmarkComplete _ => true
  | _ => false

theorem DaemonMessage.isComplete_iff {msg : DaemonMessage} :
    msg.isComplete = true ↔ ∃ result, msg = .benchmarkComplete result := by
  cases msg <;> simp [isComplete]

/-- The last message of a benchmark task. -/
def Mail.ends (m : Mail) : Bool := m.sender.isSome && !m.message.isProgress

def spawnedBenchmarks (effects : List Effect) : List BenchmarkTask :=
  effects.filterMap fun
    | .benchmark name duration => some ⟨name, duration, false⟩
    | _ => none

namespace Program

/-- The interface is started with the runs that were saved. -/
def start (config : AppConfig) (history : List BenchmarkRun) : Program where
  loop := ⟨{ AppState.new config with benchmarkHistory := history }, .new⟩
  benchmarks := []
  channel := []

/-- The task polled, with what it sent. -/
def pollTask (p : Program) (i : Nat) (event : StreamEvent) : Option Program :=
  p.benchmarks[i]?.bind fun task => (task.poll event).map fun (sent, goesOn) =>
    { p with
      benchmarks := match goesOn with
        | some task => p.benchmarks.set i task
        | none => p.benchmarks.eraseIdx i
      channel := p.channel ++ sent.toList.map fun message => ⟨some task.connectionName, message⟩ }

variable [Externals]

/-- A loop that has quit takes no further part. -/
def step (p : Program) (event : Happening) : Option Program :=
  if p.loop.state.running then
    match event with
    | .key now key => (handleKeyEvent now key p.loop).map fun o =>
      { p with loop := o.loop, benchmarks := p.benchmarks ++ spawnedBenchmarks o.effects }
    | .receive now =>
      match p.channel with
      | [] => none
      | mail :: rest => (handleDaemonMessage now mail.message p.loop).map fun o =>
        { p with loop := o.loop, channel := rest }
    | .expire now =>
      some { p with loop := { p.loop with state := p.loop.state.clearExpiredToasts now } }
    | .benchmark i event => p.pollTask i event
    | .send message =>
      if message.isProgress || message.isComplete then none
      else some { p with channel := p.channel ++ [⟨none, message⟩] }
  else none

end Program

/-! ## What actions, keys and messages do to a benchmark -/

def Action.startsBenchmark : Action → Bool
  | .startBenchmark | .startBenchmarkForBackend _ => true
  | _ => false

def Action.completesBenchmark : Action → Bool
  | .benchmarkComplete _ => true
  | _ => false

/-- The flag and the runs on record. -/
def AppState.benchmarks (s : AppState) : Bool × List BenchmarkRun :=
  (s.benchmarkRunning, s.benchmarkHistory)

theorem minVisible_eq_none {s : AppState} :
    s.minVisible = none ↔ s.visibleConnections = ∅ := Finset.min_eq_top

section

variable [Externals]

/-- A key that starts a benchmark, as far as the keys go. -/
def startKey (key : KeyEvent) (l : Loop) : Bool :=
  match resolveKey key l with
  | some (_, some action) => action.startsBenchmark
  | _ => false

theorem dispatch_benchmarks {now : Clock} {action : Action} {s t : AppState}
    (idle : action.startsBenchmark = false) (running : action.completesBenchmark = false)
    (taken : dispatch now action s = some t) : t.benchmarks = s.benchmarks := by
  have flag : Part.flag ∉ action.writes := by
    cases action <;> simp_all [Action.writes, Action.startsBenchmark, Action.completesBenchmark]
  have history : Part.history ∉ action.writes := by
    cases action <;> simp_all [Action.writes, Action.completesBenchmark]
  exact congrArg₂ Prod.mk (dispatch_writes .flag flag taken) (dispatch_writes .history history taken)

theorem dispatch_startBenchmark {now : Clock} {action : Action} {s t : AppState}
    (starts : action.startsBenchmark = true) (taken : dispatch now action s = some t) :
    t.benchmarkRunning = true ∧ t.benchmarkHistory = s.benchmarkHistory ∧
      t.visibleConnections = s.visibleConnections := by
  cases action with
  | startBenchmark | startBenchmarkForBackend =>
    have history := dispatch_writes .history (by simp [Action.writes]) taken
    have visible := dispatch_writes .visible (by simp [Action.writes]) taken
    refine ⟨?_, history, visible⟩
    cases taken
    rw [startBenchmark]
    split
    · rename_i running
      exact running
    · rfl
  | _ => cases starts

omit [Externals] in
theorem maybeSpawn_benchmarks {action : Action} (idle : action.startsBenchmark = false)
    (s : AppState) : spawnedBenchmarks (maybeSpawnCommand action s) = [] := by
  cases action with
  | startBenchmark | startBenchmarkForBackend => cases idle
  | switchBenchmarkBackend backend =>
    simp only [maybeSpawnCommand, spawnSwitchBackend]
    split <;> rfl
  | _ => rfl

omit [Externals] in
theorem maybeSpawn_start {action : Action} (starts : action.startsBenchmark = true)
    (s : AppState) : spawnedBenchmarks (maybeSpawnCommand action s) =
      s.minVisible.toList.map fun name => ⟨name, 10, false⟩ := by
  cases action with
  | startBenchmark | startBenchmarkForBackend =>
    simp only [maybeSpawnCommand]
    cases s.minVisible <;> rfl
  | _ => cases starts

omit [Externals] in
theorem submitted_benchmarks (action : Action) (before after : AppState) :
    spawnedBenchmarks (submittedTasks action before after) = [] :=
  submittedTasks_filterMap (fun _ => rfl) (fun _ _ => rfl) (fun _ _ _ => rfl) action before after

omit [Externals] in
theorem spawnedBenchmarks_append (first second : List Effect) :
    spawnedBenchmarks (first ++ second) = spawnedBenchmarks first ++ spawnedBenchmarks second :=
  List.filterMap_append

theorem performEach_idle {now : Clock} {actions : List Action} {l : Loop} {o : Outcome}
    (idle : ∀ action ∈ actions, action.startsBenchmark = false)
    (done : performEach now actions l = some o) : spawnedBenchmarks o.effects = [] :=
  performEach_filterMap (fun action member s => maybeSpawn_benchmarks (idle action member) s) done

omit [Externals] in
theorem KeyAction.completesBenchmark {s : AppState} {action : Action} (keyed : KeyAction s action) :
    action.completesBenchmark = false := by
  cases action with
  | benchmarkComplete => exact absurd keyed id
  | _ => rfl

omit [Externals] in
/-- No action that follows a confirmation has to do with a benchmark. -/
theorem followUp_idle {action next : Action} {s : AppState}
    (follows : next ∈ (followUp action s).toList) :
    next.startsBenchmark = false ∧ next.completesBenchmark = false := by
  obtain rfl | rfl | ⟨i, rfl⟩ := followUp_confirmed (Option.mem_toList.mp follows) <;> exact ⟨rfl, rfl⟩

omit [Externals] in
theorem followUp_start {action : Action} (starts : action.startsBenchmark = true) (s : AppState) :
    followUp action s = none := by
  cases action with
  | confirmYes => cases starts
  | _ => rfl

/-- A start raises the flag, whether or not there is anything to measure; it spawns a task,
whether or not the flag was up. -/
theorem handleKeyEvent_start {now : Clock} {key : KeyEvent} {l : Loop} {o : Outcome}
    (done : handleKeyEvent now key l = some o) (starts : startKey key l = true) :
    o.loop.state.benchmarks = (true, l.state.benchmarkHistory) ∧
      spawnedBenchmarks o.effects = l.state.minVisible.toList.map fun name => ⟨name, 10, false⟩ := by
  rw [startKey] at starts
  obtain ⟨bundle, resolved, rfl⟩ | ⟨bundle, action, performed, resolved, run, rfl⟩ :=
    handleKeyEvent_cases done
  · simp [resolved] at starts
  · rw [resolved] at starts
    rw [followUp_start starts] at run
    obtain ⟨next, later, taken, rest, rfl⟩ := performEach_cons.mp run
    cases rest
    obtain ⟨flag, history, visible⟩ := dispatch_startBenchmark starts (dispatchAll_state taken)
    refine ⟨congrArg₂ Prod.mk flag history, ?_⟩
    rw [spawnedBenchmarks_append, spawnedBenchmarks_append, submitted_benchmarks,
      maybeSpawn_start starts, AppState.minVisible, visible]
    simp [Outcome.idle, spawnedBenchmarks, AppState.minVisible]

theorem handleKeyEvent_idle {now : Clock} {key : KeyEvent} {l : Loop} {o : Outcome}
    (done : handleKeyEvent now key l = some o) (idle : startKey key l = false) :
    o.loop.state.benchmarks = l.state.benchmarks ∧ spawnedBenchmarks o.effects = [] := by
  rw [startKey] at idle
  obtain ⟨bundle, _, rfl⟩ | ⟨bundle, action, performed, resolved, run, rfl⟩ :=
    handleKeyEvent_cases done
  · exact ⟨rfl, rfl⟩
  · rw [resolved] at idle
    have all : ∀ next ∈ action :: (followUp action l.state).toList,
        next.startsBenchmark = false ∧ next.completesBenchmark = false := by
      rw [List.forall_mem_cons]
      exact ⟨⟨idle, (resolveKey_keyed resolved action rfl).completesBenchmark⟩,
        fun next follows => followUp_idle follows⟩
    have kept : performed.loop.state.benchmarks = l.state.benchmarks :=
      performEach_inv (·.benchmarks = l.state.benchmarks) (l := ⟨l.state, bundle⟩)
        (fun next member s t same taken =>
          (dispatch_benchmarks (all next member).1 (all next member).2 taken).trans same) rfl run
    refine ⟨kept, ?_⟩
    rw [spawnedBenchmarks_append, submitted_benchmarks,
      performEach_idle (fun next member => (all next member).1) run]
    rfl

omit [Externals] in
/-- No other message than a result has to do with a benchmark. -/
theorem daemonActions_idle {msg : DaemonMessage} (running : msg.isComplete = false)
    {action : Action} (member : action ∈ daemonActions msg) :
    action.startsBenchmark = false ∧ action.completesBenchmark = false := by
  cases msg with
  | benchmarkComplete => cases running
  | unreachable =>
    obtain rfl | rfl : action = .daemonConnectivityChanged false ∨
        action = .daemonError "daemon is not running" := by simpa [daemonActions] using member
    · exact ⟨rfl, rfl⟩
    · exact ⟨rfl, rfl⟩
  | _ =>
    obtain rfl := List.mem_singleton.mp member
    exact ⟨rfl, rfl⟩

theorem handleDaemonMessage_idle {now : Clock} {msg : DaemonMessage} {l : Loop} {o : Outcome}
    (done : handleDaemonMessage now msg l = some o) (running : msg.isComplete = false) :
    o.loop.state.benchmarks = l.state.benchmarks := by
  obtain ⟨dispatched, run, same⟩ := handleDaemonMessage_loop done
  have kept : dispatched.loop.state.benchmarks = (received msg l).state.benchmarks := by
    refine dispatchEach_inv (·.benchmarks = (received msg l).state.benchmarks)
      (fun action member s t same taken => ?_) rfl run
    obtain ⟨idle, unfinished⟩ := daemonActions_idle running member
    exact (dispatch_benchmarks idle unfinished taken).trans same
  rw [same, kept]
  cases msg <;> rfl

/-- The run that a result is filed as, under the least name that is visible when it comes. -/
def filedRun (now : Clock) (result : BenchmarkResult) (s : AppState) : BenchmarkRun :=
  ⟨.ofNat now.unixMs, s.minVisible.getD "", s.benchmarkResults.insert result.backend result⟩

omit [Externals] in
theorem benchmarkComplete_some {now : Clock} {result : BenchmarkResult} {s t : AppState}
    (taken : benchmarkComplete now result s = some t) :
    t.benchmarkRunning = false ∧
      t.benchmarkHistory =
        capHistory (s.benchmarkHistory ++ [filedRun now result s]) benchmarkHistoryCap ∧
      t.benchmarkResults = (filedRun now result s).results := by
  rw [benchmarkComplete] at taken
  split at taken
  · cases taken
    exact ⟨rfl, rfl, rfl⟩
  · cases taken

theorem handleDaemonMessage_complete {now : Clock} {result : BenchmarkResult} {l : Loop}
    {o : Outcome} (done : handleDaemonMessage now (.benchmarkComplete result) l = some o) :
    o.loop.state.benchmarkRunning = false ∧
      o.loop.state.benchmarkHistory =
        capHistory (l.state.benchmarkHistory ++ [filedRun now result l.state]) benchmarkHistoryCap ∧
      o.loop.state.benchmarkResults = (filedRun now result l.state).results := by
  obtain ⟨dispatched, run, same⟩ := handleDaemonMessage_loop done
  obtain ⟨next, later, taken, rest, rfl⟩ := dispatchEach_cons.mp run
  cases rest
  rw [same]
  exact benchmarkComplete_some (dispatchAll_state taken)

end

/-! ## The flag and the tasks -/

namespace Program

/-- The benchmark tasks whose last message has not been received. -/
def outstanding (p : Program) : Nat := p.benchmarks.length + p.channel.countP Mail.ends

/-- The flag says how many there are. -/
def FlagTruthful (p : Program) : Prop :=
  p.outstanding = if p.loop.state.benchmarkRunning then 1 else 0

/-- What a benchmark sends, nobody else does. -/
def MailKnown (p : Program) : Prop :=
  ∀ mail ∈ p.channel, mail.sender = none → mail.message.isProgress = false ∧
    mail.message.isComplete = false

variable [Externals]

/-- A start comes while there is something to measure and nothing being measured, or else changes
nothing; a benchmark ends with a result. -/
def KeepsFlag (p : Program) : Happening → Prop
  | .key _ key => startKey key p.loop = true →
    (p.loop.state.benchmarkRunning = true ↔ p.loop.state.visibleConnections = ∅)
  | .receive _ => ∀ mail ∈ p.channel.head?, mail.ends = true → mail.message.isComplete = true
  | _ => True

variable {p next : Program} {event : Happening}

omit [Externals] in
theorem errorToMessage_kind (e : DaemonClientError) :
    (errorToMessage e).isProgress = false ∧ (errorToMessage e).isComplete = false := by
  rw [errorToMessage]
  split <;> exact ⟨rfl, rfl⟩

omit [Externals] in
/-- A task goes on just as long as it sends nothing but progress. -/
theorem poll_ends {task : BenchmarkTask} {event : StreamEvent} {sent : Option DaemonMessage}
    {goesOn : Option BenchmarkTask} (poll : task.poll event = some (sent, goesOn)) :
    goesOn.toList.length + sent.toList.countP (fun message => !message.isProgress) = 1 := by
  unfold BenchmarkTask.poll at poll
  split at poll <;> cases poll
  case h_1 => simp [errorToMessage_kind]
  all_goals rfl

omit [Externals] in
/-- A task that ends leaves its last message in its place. -/
theorem pollTask_outstanding {i : Nat} {event : StreamEvent}
    (polled : p.pollTask i event = some next) : next.outstanding = p.outstanding := by
  obtain ⟨task, there, answered⟩ := Option.bind_eq_some_iff.mp polled
  obtain ⟨⟨sent, goesOn⟩, poll, rfl⟩ := Option.map_eq_some_iff.mp answered
  obtain ⟨inside, _⟩ := List.getElem?_eq_some_iff.mp there
  have ends := poll_ends poll
  have mail : (sent.toList.map fun message => (⟨some task.connectionName, message⟩ : Mail)).countP
      Mail.ends = sent.toList.countP fun message => !message.isProgress := by
    simp [List.countP_map, Function.comp_def, Mail.ends]
  cases goesOn with
  | none =>
    have one := List.length_eraseIdx_of_lt inside
    simp only [Option.toList_none, List.length_nil] at ends
    simp only [outstanding, one, List.countP_append, mail]
    omega
  | some task =>
    simp only [Option.toList_some, List.length_singleton] at ends
    simp only [outstanding, List.length_set, List.countP_append, mail]
    omega

theorem step_key {now : Clock} {key : KeyEvent} (taken : p.step (.key now key) = some next) :
    ∃ o, handleKeyEvent now key p.loop = some o ∧ next = { p with
      loop := o.loop, benchmarks := p.benchmarks ++ spawnedBenchmarks o.effects } := by
  rw [step] at taken
  split at taken
  · obtain ⟨o, done, rfl⟩ := Option.map_eq_some_iff.mp taken
    exact ⟨o, done, rfl⟩
  · cases taken

theorem step_receive {now : Clock} (taken : p.step (.receive now) = some next) :
    ∃ mail rest o, p.channel = mail :: rest ∧ handleDaemonMessage now mail.message p.loop = some o ∧
      next = { p with loop := o.loop, channel := rest } := by
  simp only [step] at taken
  split at taken
  · split at taken
    · cases taken
    · rename_i mail rest channel
      obtain ⟨o, done, rfl⟩ := Option.map_eq_some_iff.mp taken
      exact ⟨mail, rest, o, channel, done, rfl⟩
  · cases taken

theorem step_expire {now : Clock} (taken : p.step (.expire now) = some next) :
    next = { p with loop := { p.loop with state := p.loop.state.clearExpiredToasts now } } := by
  simp only [step] at taken
  split at taken <;> cases taken
  rfl

theorem step_benchmark {i : Nat} {event : StreamEvent}
    (taken : p.step (.benchmark i event) = some next) : p.pollTask i event = some next := by
  simp only [step] at taken
  split at taken
  · exact taken
  · cases taken

theorem step_send {message : DaemonMessage} (taken : p.step (.send message) = some next) :
    (message.isProgress = false ∧ message.isComplete = false) ∧
      next = { p with channel := p.channel ++ [⟨none, message⟩] } := by
  simp only [step] at taken
  split at taken
  · split at taken <;> cases taken
    rename_i neither
    exact ⟨by simpa using neither, rfl⟩
  · cases taken

omit [Externals] in
theorem pollTask_channel {i : Nat} {event : StreamEvent} (polled : p.pollTask i event = some next) :
    next.loop = p.loop ∧
      ∀ mail ∈ next.channel, mail ∈ p.channel ∨ mail.sender.isSome = true := by
  obtain ⟨task, there, answered⟩ := Option.bind_eq_some_iff.mp polled
  obtain ⟨⟨sent, goesOn⟩, poll, rfl⟩ := Option.map_eq_some_iff.mp answered
  refine ⟨rfl, fun mail member => ?_⟩
  rcases List.mem_append.mp member with old | new
  · exact .inl old
  · obtain ⟨message, _, rfl⟩ := List.mem_map.mp new
    exact .inr rfl

theorem mailKnown_step (known : p.MailKnown) (taken : p.step event = some next) :
    next.MailKnown := by
  cases event with
  | key now key =>
    obtain ⟨o, _, rfl⟩ := step_key taken
    exact known
  | receive now =>
    obtain ⟨mail, rest, o, channel, _, rfl⟩ := step_receive taken
    intro other member
    exact known other (channel ▸ List.mem_cons_of_mem mail member)
  | expire now =>
    obtain rfl := step_expire taken
    exact known
  | benchmark i event =>
    intro mail member unsent
    rcases (pollTask_channel (step_benchmark taken)).2 mail member with old | sent
    · exact known mail old unsent
    · simp [unsent] at sent
  | send message =>
    obtain ⟨neither, rfl⟩ := step_send taken
    intro mail member unsent
    rcases List.mem_append.mp member with old | new
    · exact known mail old unsent
    · obtain rfl := List.mem_singleton.mp new
      exact neither

theorem flagTruthful_key {now : Clock} {key : KeyEvent} (truthful : p.FlagTruthful)
    (taken : p.step (.key now key) = some next) :
    next.FlagTruthful ↔ p.KeepsFlag (.key now key) := by
  obtain ⟨o, done, rfl⟩ := step_key taken
  rw [FlagTruthful, outstanding] at truthful
  simp only [FlagTruthful, outstanding, KeepsFlag, List.length_append]
  cases starts : startKey key p.loop with
  | false =>
    obtain ⟨same, none⟩ := handleKeyEvent_idle done starts
    have flag : o.loop.state.benchmarkRunning = p.loop.state.benchmarkRunning :=
      congrArg Prod.fst same
    simp [none, flag, truthful]
  | true =>
    obtain ⟨same, spawned⟩ := handleKeyEvent_start done starts
    have flag : o.loop.state.benchmarkRunning = true := congrArg Prod.fst same
    rw [spawned, List.length_map, flag]
    simp only [if_true, forall_const]
    generalize List.countP Mail.ends p.channel = waiting at truthful ⊢
    cases least : p.loop.state.minVisible with
    | none =>
      have empty := minVisible_eq_none.mp least
      simp only [empty, iff_true, Option.toList_none, List.length_nil]
      cases running : p.loop.state.benchmarkRunning <;>
        simp only [running, if_true, Bool.false_eq_true, if_false, iff_true, iff_false]
          at truthful ⊢ <;> omega
    | some name =>
      have shown : p.loop.state.visibleConnections ≠ ∅ := by
        intro empty
        rw [minVisible_eq_none.mpr empty] at least
        cases least
      simp only [shown, iff_false, Option.toList_some, List.length_singleton]
      cases running : p.loop.state.benchmarkRunning <;>
        simp only [running, if_true, Bool.false_eq_true, if_false, not_true_eq_false,
          not_false_eq_true, iff_true, iff_false] at truthful ⊢ <;> omega

theorem flagTruthful_receive {now : Clock} (known : p.MailKnown) (truthful : p.FlagTruthful)
    (taken : p.step (.receive now) = some next) :
    next.FlagTruthful ↔ p.KeepsFlag (.receive now) := by
  obtain ⟨mail, rest, o, channel, done, rfl⟩ := step_receive taken
  rw [FlagTruthful, outstanding] at truthful
  simp only [FlagTruthful, outstanding, KeepsFlag, channel, List.countP_cons, List.head?_cons,
    Option.mem_some_iff, forall_eq'] at truthful ⊢
  cases complete : mail.message.isComplete with
  | true =>
    obtain ⟨result, message⟩ := DaemonMessage.isComplete_iff.mp complete
    rw [message] at done
    have down := (handleDaemonMessage_complete done).1
    have ends : mail.ends = true := by
      have sent : mail.sender ≠ none := fun unsent => by
        simp [(known mail (by simp [channel]) unsent).2] at complete
      simp [Mail.ends, Option.isSome_iff_ne_none, sent, message, DaemonMessage.isProgress]
    simp only [ends, down, if_true] at truthful ⊢
    simp only [Bool.false_eq_true, if_false, implies_true, iff_true]
    split at truthful <;> omega
  | false =>
    have same : o.loop.state.benchmarkRunning = p.loop.state.benchmarkRunning :=
      congrArg Prod.fst (handleDaemonMessage_idle done complete)
    rw [same]
    cases ends : mail.ends with
    | true =>
      simp only [ends, if_true] at truthful
      simp only [Bool.false_eq_true, imp_false, not_true_eq_false, iff_false]
      split at truthful <;> split <;> omega
    | false =>
      simp only [ends, Bool.false_eq_true, if_false, Nat.add_zero] at truthful
      simp [truthful]

theorem flagTruthful_step (known : p.MailKnown) (truthful : p.FlagTruthful)
    (taken : p.step event = some next) : next.FlagTruthful ↔ p.KeepsFlag event := by
  cases event with
  | key now key => exact flagTruthful_key truthful taken
  | receive now => exact flagTruthful_receive known truthful taken
  | expire now =>
    obtain rfl := step_expire taken
    exact iff_of_true truthful trivial
  | benchmark i event =>
    have polled := step_benchmark taken
    refine iff_of_true ?_ trivial
    rw [FlagTruthful]
    rw [pollTask_outstanding polled, (pollTask_channel polled).1]
    exact truthful
  | send message =>
    obtain ⟨_, rfl⟩ := step_send taken
    refine iff_of_true ?_ trivial
    simpa [FlagTruthful, outstanding, Mail.ends] using truthful

theorem flag_truthful_iff (config : AppConfig) (history : List BenchmarkRun)
    (events : List Happening) :
    Always step FlagTruthful events (start config history) ↔
      Along step KeepsFlag events (start config history) :=
  always_iff_along (fun _ _ _ _ known taken _ => mailKnown_step known taken)
    (fun _ _ _ _ known truthful taken => flagTruthful_step known truthful taken) nofun rfl

open ImportSample in
omit [Externals] in
/-- Without a daemon the benchmark ends at once, and the flag stays up. -/
theorem flag_stuck_without_daemon :
    ¬ Always (@step externals) FlagTruthful
      [.key ⟨0, 0⟩ { code := .char '4' }, .key ⟨0, 0⟩ { code := .char 'b' },
        .benchmark 0 (.failed .notRunning), .receive ⟨0, 0⟩] (start home []) := by
  intro always
  have stuck : ((@run _ _ (@step externals)
      [.key ⟨0, 0⟩ { code := .char '4' }, .key ⟨0, 0⟩ { code := .char 'b' },
        .benchmark 0 (.failed .notRunning), .receive ⟨0, 0⟩] (start home [])).map
      fun p => (p.outstanding, p.loop.state.benchmarkRunning)) = some (0, true) := by
    decide +kernel
  obtain ⟨p, reached, shown⟩ := Option.map_eq_some_iff.mp stuck
  have truthful := always.last reached
  obtain ⟨none, up⟩ := Prod.mk.inj shown
  rw [FlagTruthful, none, up] at truthful
  cases truthful

end Program

/-! ## The name a result is filed under -/

/-- The connection whose result is next to be received. -/
def measured (p : Program) : Option String :=
  p.channel.head?.bind fun mail => if mail.message.isComplete then mail.sender else none

/-- One more name, of which as many as are kept of the runs. -/
def capNames (names : List String) (name : String) : List String :=
  (names ++ [name]).drop ((names ++ [name]).length - benchmarkHistoryCap)

/-- The names that the last runs measured. -/
def noteMeasured (p : Program) (event : Happening) (names : List String) : List String :=
  match event with
  | .receive _ => ((measured p).map (capNames names)).getD names
  | _ => names

/-- Every run on record has the name of the connection it measured. -/
def FiledRight (s : Program × List String) : Prop :=
  s.1.loop.state.benchmarkHistory.map (·.connectionName) = s.2

/-- The name of the least visible connection, or the empty one if none is visible. -/
def LeastVisible (s : AppState) (name : String) : Prop :=
  (name ∈ s.visibleConnections ∧ ∀ other ∈ s.visibleConnections, name ≤ other) ∨
    s.visibleConnections = ∅ ∧ name = ""

/-- When a result comes, what it measured is what is selected. -/
def StillSelected (p : Program) : Happening → Prop
  | .receive _ => ∀ name, measured p = some name → LeastVisible p.loop.state name
  | _ => True

theorem leastVisible_iff (s : AppState) (name : String) :
    LeastVisible s name ↔ s.minVisible.getD "" = name := by
  rw [LeastVisible]
  cases least : s.minVisible with
  | none =>
    have empty := minVisible_eq_none.mp least
    simp [empty, eq_comm]
  | some found =>
    have member : found ∈ s.visibleConnections := Finset.mem_of_min least
    have lower : ∀ other ∈ s.visibleConnections, found ≤ other :=
      fun other there => Finset.min_le_of_eq there least
    have shown : s.visibleConnections ≠ ∅ := Finset.ne_empty_of_mem member
    simp only [shown, false_and, or_false, Option.getD_some]
    constructor
    · rintro ⟨there, least⟩
      exact le_antisymm (lower name there) (least found member)
    · rintro rfl
      exact ⟨member, lower⟩

theorem capHistory_names (runs : List BenchmarkRun) (last : BenchmarkRun) :
    (capHistory (runs ++ [last]) benchmarkHistoryCap).map (·.connectionName) =
      capNames (runs.map (·.connectionName)) last.connectionName := by
  simp [capHistory, capNames, List.map_drop]

/-- The last name is always among those kept. -/
theorem capNames_inj {names : List String} {a b : String} :
    capNames names a = capNames names b ↔ a = b := by
  have inside : names.length + 1 - benchmarkHistoryCap ≤ names.length := by
    simp only [benchmarkHistoryCap]
    omega
  simp [capNames, List.drop_append_of_le_length, inside]

section

variable [Externals] {s next : Program × List String} {event : Happening}

abbrev measuredStep := instrument Program.step noteMeasured

theorem filedRight_receive {p : Program} {names : List String} {now : Clock}
    (known : p.MailKnown) (filed : FiledRight (p, names))
    (taken : measuredStep (p, names) (.receive now) = some next) :
    FiledRight next ↔ StillSelected p (.receive now) := by
  obtain ⟨w, g⟩ := next
  obtain ⟨stepped, noted⟩ := instrument_some.mp taken
  simp only at stepped noted
  obtain ⟨⟨sender, message⟩, rest, o, channel, done, rfl⟩ := Program.step_receive stepped
  have next : measured p = if message.isComplete then sender else none := by simp [measured, channel]
  simp only [noteMeasured, next] at noted
  simp only [StillSelected, next]
  cases complete : message.isComplete with
  | false =>
    have same : o.loop.state.benchmarkHistory = p.loop.state.benchmarkHistory :=
      congrArg Prod.snd (handleDaemonMessage_idle done complete)
    simp only [complete, Bool.false_eq_true, if_false] at noted
    simp [FiledRight, same, noted, show _ = names from filed]
  | true =>
    obtain ⟨result, rfl⟩ := DaemonMessage.isComplete_iff.mp complete
    obtain ⟨_, history, _⟩ := handleDaemonMessage_complete done
    cases sender with
    | none =>
      have unknown := (known _ (channel ▸ List.mem_cons_self) rfl).2
      simp [DaemonMessage.isComplete] at unknown
    | some measured =>
      simp only [complete, if_true] at noted
      simp only [FiledRight] at filed ⊢
      rw [noted, history, capHistory_names, filed, Option.map_some, Option.getD_some, capNames_inj]
      simp [leastVisible_iff, filedRun]

theorem filedRight_step (known : s.1.MailKnown) (filed : FiledRight s)
    (taken : measuredStep s event = some next) : FiledRight next ↔ StillSelected s.1 event := by
  obtain ⟨p, names⟩ := s
  cases event with
  | receive now => exact filedRight_receive known filed taken
  | key now key =>
    obtain ⟨taken, noted⟩ := instrument_some.mp taken
    obtain ⟨o, done, reached⟩ := Program.step_key taken
    have same : o.loop.state.benchmarkHistory = p.loop.state.benchmarkHistory := by
      cases starts : startKey key p.loop with
      | false => exact congrArg Prod.snd (handleKeyEvent_idle done starts).1
      | true => exact congrArg Prod.snd (handleKeyEvent_start done starts).1
    refine iff_of_true ?_ trivial
    rw [FiledRight, noted, reached]
    exact (congrArg _ same).trans filed
  | expire now =>
    obtain ⟨taken, noted⟩ := instrument_some.mp taken
    refine iff_of_true ?_ trivial
    rw [FiledRight, noted, Program.step_expire taken]
    exact filed
  | benchmark i event =>
    obtain ⟨taken, noted⟩ := instrument_some.mp taken
    refine iff_of_true ?_ trivial
    rw [FiledRight, noted, (Program.pollTask_channel (Program.step_benchmark taken)).1]
    exact filed
  | send message =>
    obtain ⟨taken, noted⟩ := instrument_some.mp taken
    refine iff_of_true ?_ trivial
    rw [FiledRight, noted, (Program.step_send taken).2]
    exact filed

theorem filed_right_iff (config : AppConfig) (history : List BenchmarkRun)
    (events : List Happening) :
    Always measuredStep FiledRight events
        (.start config history, history.map (·.connectionName)) ↔
      Along Program.step StillSelected events (.start config history) := by
  rw [← along_instrument Program.step noteMeasured StillSelected events
    (Program.start config history, history.map (·.connectionName))]
  have known : (Program.start config history).MailKnown := nofun
  have kept (s next : Program × List String) (event : Happening) (known : s.1.MailKnown)
      (taken : measuredStep s event = some next) : next.1.MailKnown :=
    Program.mailKnown_step known (instrument_some.mp taken).1
  exact always_iff_along (fun event _ s next known taken _ => kept s next event known taken)
    (fun event _ s next known filed taken => filedRight_step known filed taken) known rfl

end

open ImportSample in
/-- The connection being measured is hidden before its result comes. -/
theorem result_filed_elsewhere :
    ¬ Always (@measuredStep externals) FiledRight
      [.key ⟨0, 0⟩ { code := .char '4' }, .key ⟨0, 0⟩ { code := .char 'b' },
        .benchmark 0 .connected, .key ⟨0, 0⟩ { code := .char '2' },
        .key ⟨0, 0⟩ { code := .char 'f' }, .key ⟨0, 0⟩ { code := .enter },
        .benchmark 0 (.response (.benchmarkResult ⟨"boringtun", 0, 0, 0, 0, 0, 0, 0, 0⟩)),
        .receive ⟨0, 0⟩] (.start (home.insert "office" (wgNamed "office")) [], []) := by
  intro always
  have elsewhere : ((@run _ _ (@measuredStep externals)
      [.key ⟨0, 0⟩ { code := .char '4' }, .key ⟨0, 0⟩ { code := .char 'b' },
        .benchmark 0 .connected, .key ⟨0, 0⟩ { code := .char '2' },
        .key ⟨0, 0⟩ { code := .char 'f' }, .key ⟨0, 0⟩ { code := .enter },
        .benchmark 0 (.response (.benchmarkResult ⟨"boringtun", 0, 0, 0, 0, 0, 0, 0, 0⟩)),
        .receive ⟨0, 0⟩] (.start (home.insert "office" (wgNamed "office")) [], [])).map
      fun s => (s.1.loop.state.benchmarkHistory.map (·.connectionName), s.2)) =
      some (["office"], ["home"]) := by decide +kernel
  obtain ⟨s, reached, shown⟩ := Option.map_eq_some_iff.mp elsewhere
  have filed := always.last reached
  obtain ⟨names, measured⟩ := Prod.mk.inj shown
  rw [FiledRight, names, measured] at filed
  exact absurd filed (by decide)

end FerroWg.Tui
