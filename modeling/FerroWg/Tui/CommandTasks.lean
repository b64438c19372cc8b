import FerroWg.Tui.Conversation
import FerroWg.Tui.Toasts

/-!
# What becomes of a command

A key spawns a task for a command, the task asks the daemon once and sends what it was told, and the
loop shows it.
-/

namespace FerroWg.Tui

open Lib Daemon Tunnel

/-- The text that a message reports a success with. -/
def DaemonMessage.success? : DaemonMessage → Option String
  | .commandOk text => some text
  | .reloadConfig _ text => some text
  | _ => none

/-- The success that a task reports without being asked about: of a file, or of the daemon's start. -/
def Happening.announces : Happening → List String
  | .send message => message.success?.toList
  | _ => []

/-- A task that has asked, and what the daemon did for it. -/
structure Attempt where
  task : CommandTask
  outcome : Option DaemonResponse

structure Ledger where
  spawned : List CommandTask
  attempts : List Attempt
  told : List CommandTask
  announced : List String

def Ledger.empty : Ledger := ⟨[], [], [], []⟩

/-- As it was spawned. -/
def CommandTask.bare (task : CommandTask) : CommandTask := { task with answer := none }

def CommandTask.asked (task : CommandTask) : Bool := task.answer.isSome

/-- A command that has no answer but success or an error. -/
def settles : DaemonCommand → Bool
  | .up .. | .down _ | .switchBackend .. | .shutdown => true
  | _ => false

def settled : DaemonResponse → Bool
  | .ok | .error _ => true
  | _ => false

section

variable [Externals] (json : SerdeJson) (platform : Platform)

/-- What is done for a task that asks now. -/
def attempt (s : Conversation) (p : Passage) (task : CommandTask) : Attempt where
  task := { task with answer := some (exchange json platform p task.cmd s.daemon).2 }
  outcome :=
    if s.daemon.gets json p task.cmd
    then some (processCommand platform p.answers p.loaded task.cmd s.daemon.world).2 else none

def keepBooks (s : Conversation) (turn : Turn) (l : Ledger) : Ledger :=
  match turn with
  | .tui event => { l with
      spawned := l.spawned ++ spawnedCommands (s.effects event)
      announced := l.announced ++ event.announces }
  | .askCommand i p => { l with
      attempts := l.attempts ++ (s.commands[i]?.map (attempt json platform s p)).toList }
  | .tellCommand i => { l with told := l.told ++ s.commands[i]?.toList }
  | _ => l

/-- A command and its answer are such that either side reads what the other means. -/
def ReadsCommands (s : Conversation) : Turn → Prop
  | .askCommand i p => ∀ task, s.commands[i]? = some task → json.Sends task.cmd ∧
    json.Answers (processCommand platform p.answers p.loaded task.cmd s.daemon.world).2
  | _ => True

end

/-- A success that was reported is one of the daemon, or that of another task. -/
def Ledger.Earned (l : Ledger) (text : String) : Prop :=
  text ∈ l.announced ∨
    ∃ a ∈ l.attempts, a.task ∈ l.told ∧ a.outcome = some .ok ∧ a.task.description = text

/-- The successes on show, and those that are still to be shown. -/
structure Program.Reports (p : Program) (earned : String → Prop) : Prop where
  queued : ∀ mail ∈ p.channel, ∀ text, mail.message.success? = some text → earned text
  shown : ∀ toast ∈ p.loop.state.toasts, toast.isError = false → earned toast.message

/-- No command is lost or asked for twice, the answer is what the daemon did, every task that has
ended has sent a message, and a success is only shown of a command that was one. -/
structure Accounted (s : Conversation × Ledger) : Prop where
  spawned : s.2.spawned.Perm ((s.1.commands ++ s.2.told).map CommandTask.bare)
  attempts : (s.2.attempts.map Attempt.task).Perm
    ((s.1.commands ++ s.2.told).filter CommandTask.asked)
  kinds : ∀ task ∈ s.2.spawned, settles task.cmd = true
  sound : ∀ a ∈ s.2.attempts, ∀ response, a.task.answer = some (.ok response) →
    a.outcome = some response ∧ settled response = true
  told : ∀ task ∈ s.2.told, ∃ message, task.answer.bind (commandMessage task.description) = some message
  reports : s.1.program.Reports s.2.Earned

/-! ## Commands and answers -/

theorem spawnedCommands_append (first second : List Effect) :
    spawnedCommands (first ++ second) = spawnedCommands first ++ spawnedCommands second :=
  List.filterMap_append

/-- The commands of keys are those that end in success or an error. -/
theorem maybeSpawn_settles {action : Action} {s : AppState} {task : CommandTask}
    (spawned : task ∈ spawnedCommands (maybeSpawnCommand action s)) :
    settles task.cmd = true ∧ task.answer = none := by
  obtain ⟨effect, member, made⟩ := List.mem_filterMap.mp spawned
  cases effect with
  | command cmd description =>
    cases made
    refine ⟨?_, rfl⟩
    cases action with
    | switchBenchmarkBackend backend =>
      simp only [maybeSpawnCommand, spawnSwitchBackend] at member
      split at member <;> simp_all [settles]
    | _ => simp_all [maybeSpawnCommand, settles]
  | _ => cases made

theorem performEach_spawned [Externals] {now : Clock} {actions : List Action} {l : Loop}
    {o : Outcome} (done : performEach now actions l = some o) {task : CommandTask}
    (spawned : task ∈ spawnedCommands o.effects) :
    settles task.cmd = true ∧ task.answer = none := by
  induction actions generalizing l o with
  | nil =>
    cases done
    cases spawned
  | cons action rest ih =>
    obtain ⟨next, later, _, run, rfl⟩ := performEach_cons.mp done
    rw [spawnedCommands_append] at spawned
    rcases List.mem_append.mp spawned with first | second
    · exact maybeSpawn_settles first
    · exact ih run second

/-- So are those of what follows a key, and none has been asked. -/
theorem spawned_settles [Externals] {s : Conversation} {event : Happening} {task : CommandTask}
    (spawned : task ∈ spawnedCommands (s.effects event)) :
    settles task.cmd = true ∧ task.answer = none := by
  cases event with
  | key now key =>
    rw [Conversation.effects] at spawned
    cases done : handleKeyEvent now key s.program.loop with
    | none => simp [done, spawnedCommands] at spawned
    | some o =>
      rw [done] at spawned
      obtain ⟨bundle, _, rfl⟩ | ⟨bundle, action, performed, _, run, rfl⟩ := handleKeyEvent_cases done
      · simp [Outcome.idle, spawnedCommands] at spawned
      · simp only [Option.map_some, Option.getD_some, spawnedCommands_append] at spawned
        rcases List.mem_append.mp spawned with first | second
        · exact performEach_spawned run first
        · have none_submitted : spawnedCommands
              (submittedTasks action s.program.loop.state performed.loop.state) = [] :=
            submittedTasks_filterMap (fun _ => rfl) (fun _ _ => rfl) (fun _ _ _ => rfl) _ _ _
          rw [none_submitted] at second
          cases second
  | _ => simp [Conversation.effects, spawnedCommands] at spawned

/-- The answers to such a command. -/
theorem processCommand_settled [Externals] (platform : Platform) (p : Passage)
    {command : DaemonCommand} (kind : settles command = true) (w : Tunnel.World) :
    settled (processCommand platform p.answers p.loaded command w).2 = true := by
  have responds (r : EStateM.Result WgError Tunnel.World Unit) : settled (respond r).2 = true := by
    cases r <;> rfl
  cases command with
  | up name backend => cases name <;> exact responds _
  | down name =>
    cases name with
    | none => rfl
    | some name => exact responds _
  | switchBackend => exact responds _
  | shutdown => rfl
  | _ => cases kind

theorem commandMessage_settled (description : String)
    {answer : Except DaemonClientError DaemonResponse}
    (kind : ∀ response, answer = .ok response → settled response = true) :
    ∃ message, commandMessage description answer = some message := by
  cases answer with
  | error e => exact ⟨_, rfl⟩
  | ok response =>
    have kind := kind response rfl
    cases response with
    | ok => exact ⟨_, rfl⟩
    | error => exact ⟨_, rfl⟩
    | _ => cases kind

/-- A success is reported of an answer that is one. -/
theorem commandMessage_success {description text : String}
    {answer : Except DaemonClientError DaemonResponse} {message : DaemonMessage}
    (sent : commandMessage description answer = some message)
    (success : message.success? = some text) : answer = .ok .ok ∧ description = text := by
  rw [commandMessage.eq_def] at sent
  split at sent <;> cases sent
  · exact ⟨rfl, Option.some.inj success⟩
  · cases success
  · rw [errorToMessage] at success
    split at success <;> cases success

theorem pollMessage_success {answer : Except DaemonClientError DaemonResponse}
    {message : DaemonMessage} (sent : pollMessage answer = some message) :
    message.success? = none := by
  rw [pollMessage.eq_def] at sent
  split at sent <;> cases sent
  · rfl
  · rw [errorToMessage]
    split <;> rfl

/-! ## Successes on show -/

section

variable [Externals] {earned : String → Prop}

omit [Externals] in
theorem pushToast_mem {s : AppState} {now : Clock} {message : String} {isError : Bool} {toast : Toast}
    (member : toast ∈ (s.pushToast now message isError).toasts) :
    toast ∈ s.toasts ∨ toast = ⟨message, isError, now.instant + toastDuration⟩ := by
  have all : toast ∈ s.toasts ++ [⟨message, isError, now.instant + toastDuration⟩] := by
    rw [AppState.pushToast] at member
    dsimp only at member
    split at member
    · exact List.mem_of_mem_tail member
    · exact member
  simpa using all

/-- An action shows no other success than the one it is given. -/
theorem dispatch_successes {now : Clock} {action : Action} {s t : AppState}
    (given : ∀ text, action = .daemonOk text → earned text)
    (shown : ∀ toast ∈ s.toasts, toast.isError = false → earned toast.message)
    (taken : dispatch now action s = some t) :
    ∀ toast ∈ t.toasts, toast.isError = false → earned toast.message := by
  intro toast member success
  cases action with
  | daemonOk text =>
    cases taken
    rcases pushToast_mem member with old | rfl
    · exact shown toast old success
    · exact given text rfl
  | daemonError text =>
    cases taken
    rcases pushToast_mem member with old | rfl
    · exact shown toast old success
    · cases success
  | startBenchmark | startBenchmarkForBackend =>
    cases taken
    rw [startBenchmark] at member
    split at member
    · rcases pushToast_mem member with old | rfl
      · exact shown toast old success
      · cases success
    · exact shown toast member success
  | _ =>
    have same := dispatch_writes .toasts (by simp [Action.writes]) taken
    exact shown toast (same ▸ member) success

theorem handleKeyEvent_successes {now : Clock} {key : KeyEvent} {l : Loop} {o : Outcome}
    (shown : ∀ toast ∈ l.state.toasts, toast.isError = false → earned toast.message)
    (done : handleKeyEvent now key l = some o) :
    ∀ toast ∈ o.loop.state.toasts, toast.isError = false → earned toast.message := by
  obtain ⟨bundle, _, rfl⟩ | ⟨bundle, action, performed, resolved, run, rfl⟩ :=
    handleKeyEvent_cases done
  · exact shown
  · have silent : ∀ next ∈ action :: (followUp action l.state).toList,
        ∀ text, next ≠ .daemonOk text := by
      rw [List.forall_mem_cons]
      constructor
      · rintro text rfl
        exact resolveKey_keyed resolved _ rfl
      · intro next follows text
        obtain rfl | rfl | ⟨i, rfl⟩ := followUp_confirmed (Option.mem_toList.mp follows)
        all_goals nofun
    have kept : ∀ toast ∈ performed.loop.state.toasts, toast.isError = false →
        earned toast.message :=
      performEach_inv (fun s => ∀ toast ∈ s.toasts, toast.isError = false → earned toast.message)
        (l := ⟨l.state, bundle⟩) (fun next member s t before taken =>
          dispatch_successes (fun text same => absurd same (silent next member text)) before taken)
        shown run
    exact kept

theorem handleDaemonMessage_successes {now : Clock} {message : DaemonMessage} {l : Loop} {o : Outcome}
    (given : ∀ text, message.success? = some text → earned text)
    (shown : ∀ toast ∈ l.state.toasts, toast.isError = false → earned toast.message)
    (done : handleDaemonMessage now message l = some o) :
    ∀ toast ∈ o.loop.state.toasts, toast.isError = false → earned toast.message := by
  obtain ⟨dispatched, run, same⟩ := handleDaemonMessage_loop done
  have found : (received message l).state.toasts = l.state.toasts := by
    cases message <;> rfl
  rw [same]
  refine dispatchEach_inv
    (fun s => ∀ toast ∈ s.toasts, toast.isError = false → earned toast.message)
    (fun action member s t before taken => dispatch_successes ?_ before taken) (found ▸ shown) run
  rintro text rfl
  apply given
  cases message <;> simp_all [daemonActions, DaemonMessage.success?]

omit [Externals] in
theorem BenchmarkTask.poll_success {task : BenchmarkTask} {event : StreamEvent}
    {message : DaemonMessage} {goesOn : Option BenchmarkTask}
    (answered : task.poll event = some (some message, goesOn)) : message.success? = none := by
  rw [poll.eq_def] at answered
  split at answered <;> cases answered
  · rw [errorToMessage]
    split <;> rfl
  all_goals rfl

theorem Program.Reports.step {p next : Program} {event : Happening} (reports : p.Reports earned)
    (announced : ∀ text ∈ event.announces, earned text) (taken : p.step event = some next) :
    next.Reports earned := by
  obtain ⟨queued, shown⟩ := reports
  cases event with
  | key now key =>
    obtain ⟨o, done, rfl⟩ := Program.step_key taken
    exact ⟨queued, handleKeyEvent_successes shown done⟩
  | receive now =>
    obtain ⟨mail, rest, o, channel, done, rfl⟩ := Program.step_receive taken
    rw [channel, List.forall_mem_cons] at queued
    exact ⟨queued.2, handleDaemonMessage_successes queued.1 shown done⟩
  | expire now =>
    obtain rfl := Program.step_expire taken
    exact ⟨queued, fun toast member => shown toast ((List.dropWhile_suffix _).subset member)⟩
  | benchmark i event =>
    obtain ⟨task, _, polled⟩ := Option.bind_eq_some_iff.mp (Program.step_benchmark taken)
    obtain ⟨⟨sent, goesOn⟩, answered, rfl⟩ := Option.map_eq_some_iff.mp polled
    refine ⟨List.forall_mem_append.mpr ⟨queued, ?_⟩, shown⟩
    cases sent with
    | none => simp
    | some message => simp [BenchmarkTask.poll_success answered]
  | send message =>
    obtain ⟨_, rfl⟩ := Program.step_send taken
    refine ⟨List.forall_mem_append.mpr ⟨queued, ?_⟩, shown⟩
    intro mail member text success
    obtain rfl := List.mem_singleton.mp member
    exact announced text (Option.mem_toList.mpr success)

omit [Externals] in
theorem Program.Reports.post {p : Program} (reports : p.Reports earned)
    {message : Option DaemonMessage}
    (given : ∀ sent text, message = some sent → sent.success? = some text → earned text) :
    (p.post message).Reports earned where
  queued := by
    refine List.forall_mem_append.mpr ⟨reports.queued, fun mail member text success => ?_⟩
    obtain ⟨sent, there, rfl⟩ := List.mem_map.mp member
    exact given sent text (Option.mem_toList.mp there) success
  shown := reports.shown

end

/-! ## One step -/

theorem Ledger.Earned.mono {l m : Ledger} {text : String} (earned : l.Earned text)
    (announced : l.announced ⊆ m.announced) (attempts : l.attempts ⊆ m.attempts)
    (told : l.told ⊆ m.told) : m.Earned text := by
  rcases earned with other | ⟨a, member, ended, ok, named⟩
  · exact .inl (announced other)
  · exact .inr ⟨a, attempts member, told ended, ok, named⟩

theorem Program.Reports.mono {p : Program} {earned more : String → Prop} (reports : p.Reports earned)
    (weaker : ∀ text, earned text → more text) : p.Reports more where
  queued mail member text success := weaker text (reports.queued mail member text success)
  shown toast member success := weaker toast.message (reports.shown toast member success)

theorem exists_split {α : Type} {l : List α} {i : Nat} {a : α} (there : l[i]? = some a) :
    ∃ front back, l = front ++ a :: back ∧ l.eraseIdx i = front ++ back ∧
      ∀ b, l.set i b = front ++ b :: back := by
  obtain ⟨inside, rfl⟩ := List.getElem?_eq_some_iff.mp there
  refine ⟨l.take i, l.drop (i + 1), ?_, List.eraseIdx_eq_take_drop_succ l i, fun b => ?_⟩
  · rw [← List.drop_eq_getElem_cons inside, List.take_append_drop]
  · rw [List.set_eq_take_append_cons_drop, if_pos inside]

section

variable [Externals] {json : SerdeJson} {platform : Platform} {s : Conversation} {l : Ledger}

omit [Externals] in
theorem Accounted.settles_of_mem (accounted : Accounted (s, l)) {task : CommandTask}
    (member : task ∈ s.commands) : settles task.cmd = true := by
  have there : task.bare ∈ l.spawned :=
    accounted.spawned.mem_iff.mpr (List.mem_map_of_mem (List.mem_append_left _ member))
  exact accounted.kinds task.bare there

omit [Externals] in
/-- A task that has an answer is one that has asked. -/
theorem Accounted.attempt_of_mem (accounted : Accounted (s, l)) {task : CommandTask}
    (member : task ∈ s.commands) (asked : task.asked = true) :
    ∃ a ∈ l.attempts, a.task = task := by
  apply List.mem_map.mp
  exact accounted.attempts.mem_iff.mpr
    (List.mem_filter.mpr ⟨List.mem_append_left _ member, asked⟩)

theorem accounted_tui {event : Happening} {program : Program} (accounted : Accounted (s, l))
    (taken : s.program.step event = some program) :
    Accounted ({ s with
      program := program, commands := s.commands ++ spawnedCommands (s.effects event) },
      keepBooks json platform s (.tui event) l) := by
  obtain ⟨spawned, attempts, kinds, sound, told, reports⟩ := accounted
  have fresh : ∀ task ∈ spawnedCommands (s.effects event), settles task.cmd = true ∧
      task.answer = none := fun task member => spawned_settles member
  have bare : (spawnedCommands (s.effects event)).map CommandTask.bare =
      spawnedCommands (s.effects event) := by
    refine (List.map_congr_left fun task member => ?_).trans (List.map_id _)
    rw [CommandTask.bare, ← (fresh task member).2]
    rfl
  have unasked : (spawnedCommands (s.effects event)).filter CommandTask.asked = [] := by
    rw [List.filter_eq_nil_iff]
    intro task member
    simp [CommandTask.asked, (fresh task member).2]
  refine ⟨?_, ?_, ?_, sound, told, ?_⟩
  · simp only [List.map_append, keepBooks, bare] at spawned ⊢
    refine (spawned.append_right _).trans ?_
    rw [List.append_assoc, List.append_assoc]
    exact List.perm_append_comm.append_left _
  · simpa [List.filter_append, keepBooks, unasked] using attempts
  · exact List.forall_mem_append.mpr ⟨kinds, fun task member => (fresh task member).1⟩
  · refine Program.Reports.step (reports.mono fun text earned => ?_) (fun text member => ?_) taken
    · exact earned.mono (List.subset_append_left _ _) (List.Subset.refl _) (List.Subset.refl _)
    · exact .inl (List.mem_append_right _ member)

theorem accounted_askCommand {i : Nat} {p : Passage} {cmd : DaemonCommand} {description : String}
    (accounted : Accounted (s, l)) (reads : ReadsCommands json platform s (.askCommand i p))
    (waiting : s.commands[i]? = some ⟨cmd, description, none⟩) :
    Accounted ({ s with
      daemon := (exchange json platform p cmd s.daemon).1
      commands := s.commands.set i
        ⟨cmd, description, some (exchange json platform p cmd s.daemon).2⟩ },
      keepBooks json platform s (.askCommand i p) l) := by
  obtain ⟨sends, answers⟩ := reads _ waiting
  have kind := accounted.settles_of_mem (List.mem_of_getElem? waiting)
  obtain ⟨front, back, whole, _, replaced⟩ := exists_split waiting
  obtain ⟨spawned, attempts, kinds, sound, told, reports⟩ := accounted
  have books : keepBooks json platform s (.askCommand i p) l = { l with
      attempts := l.attempts ++ [attempt json platform s p ⟨cmd, description, none⟩] } := by
    simp [keepBooks, waiting]
  simp only [whole] at spawned attempts
  rw [books, replaced]
  refine ⟨?_, ?_, kinds, List.forall_mem_append.mpr ⟨sound, ?_⟩, told, ?_⟩
  · simpa [CommandTask.bare] using spawned
  · simp only [List.map_append, List.map_cons, List.map_nil, List.filter_append, List.append_assoc,
      List.cons_append, CommandTask.asked, List.filter_cons, attempt, Option.isSome_none,
      Option.isSome_some, if_true, Bool.false_eq_true, if_false] at attempts ⊢
    refine List.perm_append_comm.trans ?_
    exact (List.Perm.cons _ attempts).trans List.perm_middle.symm
  · rw [List.forall_mem_singleton]
    intro response answered
    have single : cmd ≠ .streamLogs := by
      rintro rfl
      cases kind
    obtain ⟨executed, rfl⟩ := (exchanged sends answers single).answered response
      (Option.some.inj answered)
    exact ⟨if_pos executed, processCommand_settled platform p kind _⟩
  · exact reports.mono fun text earned =>
      earned.mono (List.Subset.refl _) (List.subset_append_left _ _) (List.Subset.refl _)

theorem accounted_tellCommand {i : Nat} {cmd : DaemonCommand} {description : String}
    {answer : Except DaemonClientError DaemonResponse} (accounted : Accounted (s, l))
    (waiting : s.commands[i]? = some ⟨cmd, description, some answer⟩) :
    Accounted ({ s with
      program := s.program.post (commandMessage description answer)
      commands := s.commands.eraseIdx i },
      keepBooks json platform s (.tellCommand i) l) := by
  obtain ⟨a, member, same⟩ :=
    accounted.attempt_of_mem (List.mem_of_getElem? waiting) rfl
  obtain ⟨front, back, whole, left, _⟩ := exists_split waiting
  obtain ⟨spawned, attempts, kinds, sound, told, reports⟩ := accounted
  have books : keepBooks json platform s (.tellCommand i) l =
      { l with told := l.told ++ [⟨cmd, description, some answer⟩] } := by
    simp [keepBooks, waiting]
  have answered : ∀ response, answer = .ok response → a.outcome = some response ∧
      settled response = true := by
    rintro response rfl
    exact sound a member response (by rw [same])
  have moved : (s.commands ++ l.told).Perm
      (s.commands.eraseIdx i ++ (l.told ++ [⟨cmd, description, some answer⟩])) := by
    rw [left, whole, List.append_assoc, List.append_assoc, List.cons_append]
    refine (List.perm_middle.trans ?_)
    rw [← List.append_assoc, ← List.append_assoc, ← List.append_assoc]
    exact (List.perm_append_singleton _ _).symm
  rw [books]
  refine ⟨spawned.trans (moved.map _), attempts.trans (moved.filter _), kinds, sound, ?_, ?_⟩
  · refine List.forall_mem_append.mpr ⟨told, List.forall_mem_singleton.mpr ?_⟩
    exact commandMessage_settled description fun response same => (answered response same).2
  · refine (reports.mono fun text earned => ?_).post fun sent text message success => ?_
    · exact earned.mono (List.Subset.refl _) (List.Subset.refl _) (List.subset_append_left _ _)
    · obtain ⟨ok, named⟩ := commandMessage_success message success
      refine .inr ⟨a, member, List.mem_append_right _ (List.mem_singleton.mpr same),
        (answered _ ok).1, ?_⟩
      rw [same]
      exact named

theorem accounted_step (s : Conversation × Ledger) (turn : Turn) (next : Conversation × Ledger)
    (accounted : Accounted s) (reads : ReadsCommands json platform s.1 turn)
    (taken : instrument (Conversation.step json platform) (keepBooks json platform) s turn =
      some next) : Accounted next := by
  obtain ⟨s, l⟩ := s
  obtain ⟨next, l'⟩ := next
  obtain ⟨stepped, noted⟩ := instrument_some.mp taken
  simp only at stepped noted reads
  subst noted
  cases Conversation.stepped stepped with
  | tui running other went => exact accounted_tui accounted went
  | askCommand running waiting => exact accounted_askCommand accounted reads waiting
  | tellCommand running waiting => exact accounted_tellCommand accounted waiting
  | tick running =>
    rw [Conversation.spawnStatusPoll]
    split <;> exact ⟨accounted.spawned, accounted.attempts, accounted.kinds, accounted.sound,
      accounted.told, accounted.reports⟩
  | tellPoll running waiting =>
    refine ⟨accounted.spawned, accounted.attempts, accounted.kinds, accounted.sound, accounted.told,
      accounted.reports.post fun sent text message success => ?_⟩
    rw [pollMessage_success message] at success
    cases success
  | askPoll running waiting | releasePoll running waiting | serve =>
    exact ⟨accounted.spawned, accounted.attempts, accounted.kinds, accounted.sound, accounted.told,
      accounted.reports⟩

omit [Externals] in
theorem accounted_start (config : AppConfig) (history : List BenchmarkRun) (daemon : Process) :
    Accounted (.start config history daemon, .empty) := by
  refine ⟨.nil, .nil, ?_, ?_, ?_, ?_, ?_⟩ <;> exact fun _ member => absurd member List.not_mem_nil

/-- Whatever keys are typed, tasks do and clients ask of the daemon, in any order. -/
theorem commands_accounted {config : AppConfig} {history : List BenchmarkRun} {daemon : Process}
    {turns : List Turn} {final : Conversation × Ledger}
    (reads : Along (Conversation.step json platform) (ReadsCommands json platform) turns
      (.start config history daemon))
    (reached : run (instrument (Conversation.step json platform) (keepBooks json platform)) turns
      (.start config history daemon, .empty) = some final) : Accounted final := by
  have along : Along (instrument (Conversation.step json platform) (keepBooks json platform))
      (fun s => ReadsCommands json platform s.1) turns (.start config history daemon, .empty) :=
    (along_instrument _ _ _ turns _).mpr reads
  exact run_of_along (fun turn _ s next => accounted_step s turn next)
    (accounted_start config history daemon) along reached

end

namespace CommandSample

open ImportSample
open RpcSample (whole broken)
open TunnelSample (worldOf)

def line : String := "\x7b\"Down\":\x7b\"connection_name\":null\x7d\x7d"

/-- The texts of one command and its answer. -/
def json : SerdeJson where
  client := {
    encode := fun command => if command = .down none then .ok line else .error "another"
    decode := fun s => if s = "\"Ok\"" then .ok .ok else .error "EOF while parsing" }
  daemon := {
    encode := fun
      | .ok => .ok "\"Ok\""
      | _ => .error "another"
    decode := fun s => if s = line then .ok (.down none) else .error "EOF while parsing" }

theorem sends_down : json.Sends (.down none) :=
  ⟨line, rfl, .of_only (by decide) (by decide +kernel) (by decide +kernel)
    (by simp [json, Except.toOption]) fun _ other => by simp [json, other, Except.toOption]⟩

theorem answers_ok : json.Answers .ok :=
  ⟨"\"Ok\"", rfl, .of_only (by decide) (by decide) (by decide +kernel)
    (by simp [json, Except.toOption]) fun _ other => by simp [json, other, Except.toOption]⟩

def daemon : Process := ⟨⟨worldOf home, [], 0⟩, false⟩

def typed (c : Char) : Turn := .tui (.key ⟨0, 0⟩ ⟨.char c, false⟩)

/-- Everything is to be torn down twice, and the pipe of the first command breaks. -/
def turns : List Turn := [typed 'd', typed 'y', typed 'd', typed 'y', .askCommand 0 broken,
  .askCommand 1 whole, .tellCommand 0, .tellCommand 0, .tui (.receive ⟨0, 0⟩), .tui (.receive ⟨0, 0⟩)]

/-- There is never another command. -/
theorem only_down : Always (@Conversation.step externals json .macos)
    (fun s => ∀ task ∈ s.commands, task.cmd = .down none) turns (.start home [] daemon) := by
  have each : ∀ done ∈ turns.inits,
      ((run (@Conversation.step externals json .macos) done (.start home [] daemon)).all fun s =>
        s.commands.all (·.cmd = .down none)) = true := by decide +kernel
  rw [always_iff_reached]
  intro done rest split next reached
  have all := each done ((List.mem_inits _ _).mpr ⟨rest, split.symm⟩)
  simpa [reached] using all

theorem reads {s : Conversation} (only : ∀ task ∈ s.commands, task.cmd = .down none) (turn : Turn) :
    @ReadsCommands externals json .macos s turn := by
  cases turn with
  | askCommand i p =>
    intro task there
    rw [only task (List.mem_of_getElem? there)]
    exact ⟨sends_down, answers_ok⟩
  | _ => trivial

end CommandSample

open CommandSample ImportSample in
/-- One success is on show, and it is the daemon's. -/
theorem commands_accounted_twice :
    ∃ final, run (instrument (@Conversation.step externals json .macos)
        (@keepBooks externals json .macos)) turns (.start home [] daemon, .empty) = some final ∧
      (final.1.program.loop.state.toasts.map fun toast => (toast.message, toast.isError)) =
        [("socket I/O: broken pipe", true), ("All connections down", false)] ∧
      Accounted final := by
  have there : ((run (instrument (@Conversation.step externals json .macos)
      (@keepBooks externals json .macos)) turns (.start home [] daemon, .empty)).map fun final =>
        final.1.program.loop.state.toasts.map fun toast => (toast.message, toast.isError)) =
      some [("socket I/O: broken pipe", true), ("All connections down", false)] := by
    decide +kernel
  obtain ⟨final, reached, shown⟩ := Option.map_eq_some_iff.mp there
  refine ⟨final, reached, shown, @commands_accounted externals json .macos home [] daemon turns final
    ?_ reached⟩
  exact along_of_always (fun s turn next only _ _ => reads only turn) only_down

end FerroWg.Tui
