import FerroWg.Lib.Lines
import FerroWg.Lib.Newest
import FerroWg.Tui.Benchmarks

/-!
# The file of benchmark runs

`history.rs`, and the tasks that save to the file. Each completion spawns a task with the runs as
they are then, and the tasks write the whole file in whatever order they are scheduled.
-/

namespace FerroWg.Tui

open Lib

inductive BenchmarkError where
  | serialize (message : String)
  | io (message : String)
  deriving DecidableEq, Repr

def BenchmarkError.display : BenchmarkError → String
  | .serialize message => s!"serialization failed: {message}"
  | .io message => s!"I/O error: {message}"

/-- An absent file is an empty history, an empty one is an error. -/
def loadBenchmarkHistory (decode : String → Except String (List BenchmarkRun)) (io : Io)
    (disk : Disk) (path : OsPath) : Except BenchmarkError (List BenchmarkRun) :=
  if io.readError path = none ∧ disk path = none then .ok []
  else match readToString io disk path with
    | .error e => .error (.io e)
    | .ok content =>
      if Text.trim content = "" then .error (.serialize "file is empty")
      else (decode content).mapError .serialize

/-! ## Histories that are capped -/

theorem capHistory_length (runs : List BenchmarkRun) (cap : Nat) :
    (capHistory runs cap).length = min cap runs.length :=
  Newest.length_rtake runs cap

theorem capHistory_idempotent (runs : List BenchmarkRun) (cap : Nat) :
    capHistory (capHistory runs cap) cap = capHistory runs cap :=
  Newest.rtake_idempotent cap runs

/-- What a completion does to the history. -/
def keepRun (history : List BenchmarkRun) (run : BenchmarkRun) : List BenchmarkRun :=
  capHistory (history ++ [run]) benchmarkHistoryCap

theorem dispatch_keepRun [Externals] {now : Clock} {result : BenchmarkResult} {s t : AppState}
    (taken : dispatch now (.benchmarkComplete result) s = some t) :
    t.benchmarkHistory = keepRun s.benchmarkHistory (filedRun now result s) :=
  (benchmarkComplete_some taken).2.1

/-- Capping at every completion is capping once. -/
theorem foldl_keepRun {runs : List BenchmarkRun} (any : runs ≠ []) (history : List BenchmarkRun) :
    runs.foldl keepRun history = capHistory (history ++ runs) benchmarkHistoryCap :=
  Newest.foldl_pushTrim any benchmarkHistoryCap history

/-- A history is not capped before the first completion. -/
theorem foldl_keepRun_ite (runs history : List BenchmarkRun) :
    runs.foldl keepRun history =
      if runs = [] then history else capHistory (history ++ runs) benchmarkHistoryCap := by
  split
  case isTrue none => rw [none, List.foldl_nil]
  case isFalse any => exact foldl_keepRun any history

/-! ## The tasks -/

structure SaveTask where
  number : Nat
  runs : List BenchmarkRun

/-- The loop, the saves that were spawned and have not written yet, and what those that failed
have sent back. -/
structure Saver where
  loop : Loop
  tasks : List SaveTask
  spawned : Nat
  disk : Disk
  mail : List DaemonMessage

inductive SaveEvent where
  | message (now : Clock) (msg : DaemonMessage)
  | key (now : Clock) (key : KeyEvent)
  | save (i : Nat) (io : Io)

def spawnedSaves (effects : List Effect) : List (List BenchmarkRun) :=
  effects.filterMap fun
    | .saveHistory runs => some runs
    | _ => none

def Saver.start (loop : Loop) (disk : Disk) : Saver := ⟨loop, [], 0, disk, []⟩

def Saver.handled (s : Saver) (o : Outcome) : Saver :=
  let saves := spawnedSaves o.effects
  { s with
    loop := o.loop
    tasks := s.tasks ++ saves.mapIdx fun i runs => ⟨s.spawned + i, runs⟩
    spawned := s.spawned + saves.length }

section

variable (encode : List BenchmarkRun → Except String String) (path : OsPath)

def saveBenchmarkHistory (io : Io) (disk : Disk) (runs : List BenchmarkRun) :
    Disk × Except BenchmarkError Unit :=
  match encode (capHistory runs benchmarkHistoryCap) with
  | .error e => (disk, .error (.serialize e))
  | .ok text =>
    let (disk, result) := writeFile io disk path text
    (disk, result.mapError .io)

/-- `spawn_save_history_task`, once it is scheduled. -/
def Saver.runTask (io : Io) (task : SaveTask) (s : Saver) : Saver :=
  let (disk, result) := saveBenchmarkHistory encode path io s.disk task.runs
  { s with
    disk := disk
    mail := s.mail ++ match result with
      | .ok () => []
      | .error e =>
        [.commandError (.generic s!"failed to save benchmark history: {e.display}")] }

/-- The file is the JSON of the runs. -/
def HoldsRuns (disk : Disk) (runs : List BenchmarkRun) : Prop :=
  ∃ text, encode runs = .ok text ∧ disk path = some (.text text)

/-- The JSON of the runs is read back as they are, and it is not blank. -/
def RunsReadBack (decode : String → Except String (List BenchmarkRun)) (runs : List BenchmarkRun) :
    Prop :=
  ∀ text, encode runs = .ok text → decode text = .ok runs ∧ Text.trim text ≠ ""

theorem HoldsRuns.load {encode : List BenchmarkRun → Except String String} {path : OsPath}
    {disk : Disk} {runs : List BenchmarkRun} (holds : HoldsRuns encode path disk runs)
    {decode : String → Except String (List BenchmarkRun)} (reads : RunsReadBack encode decode runs)
    {io : Io} (readable : io.readError path = none) :
    loadBenchmarkHistory decode io disk path = .ok runs := by
  obtain ⟨text, encoded, there⟩ := holds
  obtain ⟨decoded, some⟩ := reads text encoded
  have read : readToString io disk path = .ok text := by
    rw [readToString, readable, there]
  simp [loadBenchmarkHistory, read, there, some, decoded, Except.mapError]

variable [Externals]

def Saver.step (s : Saver) : SaveEvent → Option Saver
  | .message now msg =>
    if s.loop.state.running then (handleDaemonMessage now msg s.loop).map s.handled else none
  | .key now key =>
    if s.loop.state.running then (handleKeyEvent now key s.loop).map s.handled else none
  | .save i io => s.tasks[i]?.map fun task =>
    { s.runTask encode path io task with tasks := s.tasks.eraseIdx i }

end

/-- The runs that were completed, and the number of the save that wrote last. -/
structure SaveRecord where
  completed : List BenchmarkRun
  last : Option Nat

def noteSave (s : Saver) (event : SaveEvent) (record : SaveRecord) : SaveRecord :=
  match event with
  | .message now (.benchmarkComplete result) =>
    { record with completed := record.completed ++ [filedRun now result s.loop.state] }
  | .save i _ => { record with last := (s.tasks[i]?.map SaveTask.number).or record.last }
  | _ => record

/-! ## What is spawned and written -/

theorem spawnedSaves_append (first second : List Effect) :
    spawnedSaves (first ++ second) = spawnedSaves first ++ spawnedSaves second :=
  List.filterMap_append

theorem maybeSpawn_saves (action : Action) (s : AppState) :
    spawnedSaves (maybeSpawnCommand action s) = [] := by
  cases action with
  | switchBenchmarkBackend backend =>
    simp only [maybeSpawnCommand, spawnSwitchBackend]
    split <;> rfl
  | startBenchmark | startBenchmarkForBackend =>
    simp only [maybeSpawnCommand]
    cases s.minVisible <;> rfl
  | _ => rfl

theorem submitted_saves (action : Action) (before after : AppState) :
    spawnedSaves (submittedTasks action before after) = [] :=
  submittedTasks_filterMap (fun _ => rfl) (fun _ _ => rfl) (fun _ _ _ => rfl) action before after

section

variable [Externals]

theorem performEach_saves {now : Clock} {actions : List Action} {l : Loop} {o : Outcome}
    (done : performEach now actions l = some o) : spawnedSaves o.effects = [] :=
  performEach_filterMap (fun action _ s => maybeSpawn_saves action s) done

/-- A key has nothing to do with the history or its file. -/
theorem handleKeyEvent_saves {now : Clock} {key : KeyEvent} {l : Loop} {o : Outcome}
    (done : handleKeyEvent now key l = some o) :
    o.loop.state.benchmarkHistory = l.state.benchmarkHistory ∧ spawnedSaves o.effects = [] := by
  constructor
  · cases starts : startKey key l with
    | false => exact congrArg Prod.snd (handleKeyEvent_idle done starts).1
    | true => exact congrArg Prod.snd (handleKeyEvent_start done starts).1
  · obtain ⟨bundle, _, rfl⟩ | ⟨bundle, action, performed, _, run, rfl⟩ := handleKeyEvent_cases done
    · rfl
    · rw [spawnedSaves_append, submitted_saves, performEach_saves run]
      rfl

/-- Only a result changes the history, and it has it saved. -/
theorem handleDaemonMessage_saves {now : Clock} {msg : DaemonMessage} {l : Loop} {o : Outcome}
    (done : handleDaemonMessage now msg l = some o) :
    spawnedSaves o.effects = if msg.isComplete then [o.loop.state.benchmarkHistory] else [] := by
  obtain ⟨dispatched, run, rfl⟩ := Option.map_eq_some_iff.mp done
  cases msg with
  | benchmarkComplete result => rfl
  | _ =>
    simp only [DaemonMessage.isComplete, Bool.false_eq_true, if_false]
    rw [dispatchEach_effects run]
    rfl

end

/-- The history when the completion of a number was handled. -/
def snapshot (initial completed : List BenchmarkRun) (number : Nat) : List BenchmarkRun :=
  capHistory (initial ++ completed.take (number + 1)) benchmarkHistoryCap

/-- What of the loop and the file is known from the record. -/
structure Tracks (encode : List BenchmarkRun → Except String String) (path : OsPath)
    (initial : List BenchmarkRun) (s : Saver × SaveRecord) : Prop where
  history : s.1.loop.state.benchmarkHistory =
    if s.2.completed = [] then initial
    else capHistory (initial ++ s.2.completed) benchmarkHistoryCap
  spawned : s.1.spawned = s.2.completed.length
  tasks : ∀ task ∈ s.1.tasks, task.number < s.2.completed.length ∧
    task.runs = snapshot initial s.2.completed task.number
  pending : s.2.completed ≠ [] → s.1.tasks ≠ [] ∨ s.2.last ≠ none
  last : ∀ k, s.2.last = some k → k < s.2.completed.length
  written : s.1.mail = [] → ∀ k, s.2.last = some k →
    HoldsRuns encode path s.1.disk (snapshot initial s.2.completed k)

section

variable {encode : List BenchmarkRun → Except String String} {path : OsPath}
  {initial : List BenchmarkRun}

theorem saveBenchmarkHistory_holds {io : Io} {disk : Disk} {runs : List BenchmarkRun}
    (saved : (saveBenchmarkHistory encode path io disk runs).2 = .ok ()) :
    HoldsRuns encode path (saveBenchmarkHistory encode path io disk runs).1
      (capHistory runs benchmarkHistoryCap) := by
  rw [saveBenchmarkHistory] at saved ⊢
  cases encoded : encode (capHistory runs benchmarkHistoryCap) with
  | error e => simp [encoded] at saved
  | ok text =>
    simp only [encoded] at saved ⊢
    obtain ⟨_, after⟩ := writeFile_ok (mapError_eq_ok.mp saved)
    exact ⟨text, encoded, by simp [after, Disk.put]⟩

/-- What a save leaves is loaded as the runs that it kept. -/
theorem saveBenchmarkHistory_load {io : Io} {disk : Disk} {runs : List BenchmarkRun}
    (saved : (saveBenchmarkHistory encode path io disk runs).2 = .ok ())
    {decode : String → Except String (List BenchmarkRun)}
    (reads : RunsReadBack encode decode (capHistory runs benchmarkHistoryCap)) {next : Io}
    (readable : next.readError path = none) :
    loadBenchmarkHistory decode next (saveBenchmarkHistory encode path io disk runs).1 path =
      .ok (capHistory runs benchmarkHistoryCap) :=
  (saveBenchmarkHistory_holds saved).load reads readable

/-- A later completion changes no earlier snapshot. -/
theorem snapshot_append {completed : List BenchmarkRun} {number : Nat}
    (earlier : number < completed.length) (run : BenchmarkRun) :
    snapshot initial (completed ++ [run]) number = snapshot initial completed number := by
  unfold snapshot
  rw [List.take_append_of_le_length earlier]

theorem Tracks.start (loop : Loop) (disk : Disk) :
    Tracks encode path loop.state.benchmarkHistory (.start loop disk, ⟨[], none⟩) where
  history := rfl
  spawned := rfl
  tasks := nofun
  pending any := absurd rfl any
  last := nofun
  written := nofun

theorem Tracks.handled {s : Saver} {record : SaveRecord}
    (tracks : Tracks encode path initial (s, record)) {o : Outcome}
    (history : o.loop.state.benchmarkHistory = s.loop.state.benchmarkHistory)
    (idle : spawnedSaves o.effects = []) : Tracks encode path initial (s.handled o, record) where
  history := history.trans tracks.history
  spawned := by simpa [Saver.handled, idle] using tracks.spawned
  tasks := by simpa [Saver.handled, idle] using tracks.tasks
  pending := by simpa [Saver.handled, idle] using tracks.pending
  last := tracks.last
  written := tracks.written

theorem Tracks.completed {s : Saver} {record : SaveRecord}
    (tracks : Tracks encode path initial (s, record)) {o : Outcome} {run : BenchmarkRun}
    (history : o.loop.state.benchmarkHistory =
      capHistory (s.loop.state.benchmarkHistory ++ [run]) benchmarkHistoryCap)
    (saves : spawnedSaves o.effects = [o.loop.state.benchmarkHistory]) :
    Tracks encode path initial
      (s.handled o, { record with completed := record.completed ++ [run] }) := by
  have whole : o.loop.state.benchmarkHistory =
      capHistory (initial ++ (record.completed ++ [run])) benchmarkHistoryCap := by
    have before : s.loop.state.benchmarkHistory = record.completed.foldl keepRun initial :=
      tracks.history.trans (foldl_keepRun_ite _ _).symm
    rw [history, before, ← keepRun, ← foldl_keepRun (by simp), List.foldl_append, List.foldl_cons,
      List.foldl_nil]
  have spawned : s.spawned = record.completed.length := tracks.spawned
  have tasks : (s.handled o).tasks =
      s.tasks ++ [⟨record.completed.length, o.loop.state.benchmarkHistory⟩] := by
    simp [Saver.handled, saves, spawned]
  refine ⟨?_, ?_, ?_, ?_, ?_, ?_⟩
  · rw [if_neg (by simp)]
    exact whole
  · simp [Saver.handled, saves, spawned]
  · intro task member
    simp only [tasks, List.mem_append, List.mem_singleton] at member
    rcases member with older | rfl
    · obtain ⟨earlier, runs⟩ := tracks.tasks task older
      refine ⟨?_, by rw [runs, snapshot_append earlier]⟩
      rw [List.length_append]
      exact Nat.lt_add_right _ earlier
    · refine ⟨by simp, ?_⟩
      rw [whole, snapshot, List.take_of_length_le (by simp)]
  · simp [tasks]
  · intro k same
    rw [List.length_append]
    exact Nat.lt_add_right _ (tracks.last k same)
  · intro quiet k same
    rw [snapshot_append (tracks.last k same)]
    exact tracks.written quiet k same

theorem Tracks.saved {s : Saver} {record : SaveRecord}
    (tracks : Tracks encode path initial (s, record)) {i : Nat} {task : SaveTask} (io : Io)
    (there : s.tasks[i]? = some task) :
    Tracks encode path initial
      ({ s.runTask encode path io task with tasks := s.tasks.eraseIdx i },
        { record with last := some task.number }) := by
  obtain ⟨earlier, runs⟩ : task.number < record.completed.length ∧
      task.runs = snapshot initial record.completed task.number :=
    tracks.tasks task (List.mem_of_getElem? there)
  refine ⟨tracks.history, tracks.spawned, fun other member => ?_, fun _ => .inr nofun, ?_, ?_⟩
  · exact tracks.tasks other (List.mem_of_mem_eraseIdx member)
  · intro k same
    cases same
    exact earlier
  · intro quiet k same
    cases same
    have capped : capHistory task.runs benchmarkHistoryCap = task.runs := by
      rw [runs, snapshot, capHistory_idempotent]
    have saved : (saveBenchmarkHistory encode path io s.disk task.runs).2 = .ok () := by
      simp only [Saver.runTask, List.append_eq_nil_iff] at quiet
      cases result : (saveBenchmarkHistory encode path io s.disk task.runs).2 with
      | ok => rfl
      | error e => simp [result] at quiet
    change HoldsRuns encode path (saveBenchmarkHistory encode path io s.disk task.runs).1
      (snapshot initial record.completed task.number)
    rw [← runs]
    simpa only [capped] using saveBenchmarkHistory_holds saved

variable [Externals]

theorem Tracks.step {s next : Saver × SaveRecord} {event : SaveEvent}
    (tracks : Tracks encode path initial s)
    (taken : instrument (Saver.step encode path) noteSave s event = some next) :
    Tracks encode path initial next := by
  obtain ⟨s, record⟩ := s
  obtain ⟨t, after⟩ := next
  obtain ⟨stepped, noted⟩ := instrument_some.mp taken
  simp only at stepped noted
  cases event with
  | key now key =>
    simp only [Saver.step] at stepped
    split at stepped
    · obtain ⟨o, done, rfl⟩ := Option.map_eq_some_iff.mp stepped
      obtain ⟨history, idle⟩ := handleKeyEvent_saves done
      rw [noted]
      exact tracks.handled history idle
    · cases stepped
  | message now msg =>
    simp only [Saver.step] at stepped
    split at stepped
    · obtain ⟨o, done, rfl⟩ := Option.map_eq_some_iff.mp stepped
      have saves := handleDaemonMessage_saves done
      cases complete : msg.isComplete with
      | false =>
        have same : after = record := by
          cases msg with
          | benchmarkComplete => cases complete
          | _ => exact noted
        rw [complete] at saves
        rw [same]
        exact tracks.handled (congrArg Prod.snd (handleDaemonMessage_idle done complete)) saves
      | true =>
        obtain ⟨result, rfl⟩ := DaemonMessage.isComplete_iff.mp complete
        obtain ⟨_, history, _⟩ := handleDaemonMessage_complete done
        rw [noted]
        exact tracks.completed history saves
    · cases stepped
  | save i io =>
    obtain ⟨task, there, rfl⟩ := Option.map_eq_some_iff.mp stepped
    rw [noted, noteSave, there]
    exact tracks.saved io there

theorem tracks_run {loop : Loop} {disk : Disk} {events : List SaveEvent}
    {final : Saver × SaveRecord}
    (reached : run (instrument (Saver.step encode path) noteSave) events
      (.start loop disk, ⟨[], none⟩) = some final) :
    Tracks encode path loop.state.benchmarkHistory final :=
  run_invariant (fun _ _ _ tracks taken => tracks.step taken) (Tracks.start loop disk) reached

/-- Whatever comes in between, the history is what the completions made of the first one. -/
theorem Saver.history_kept {loop : Loop} {disk : Disk} {events : List SaveEvent}
    {final : Saver × SaveRecord}
    (reached : run (instrument (Saver.step encode path) noteSave) events
      (.start loop disk, ⟨[], none⟩) = some final) :
    final.1.loop.state.benchmarkHistory =
      final.2.completed.foldl keepRun loop.state.benchmarkHistory :=
  (tracks_run reached).history.trans (foldl_keepRun_ite _ _).symm

/-- A completion as a step on its own, and the run that it files. -/
def fileResult (s : AppState) (c : Clock × BenchmarkResult) : Option AppState :=
  dispatch c.1 (.benchmarkComplete c.2) s

def noteFiled (s : AppState) (c : Clock × BenchmarkResult) (filed : List BenchmarkRun) :
    List BenchmarkRun :=
  filed ++ [filedRun c.1 c.2 s]

/-- Completions that come in time are all filed. -/
theorem fileResult_run {completions : List (Clock × BenchmarkResult)}
    (inTime : ∀ c ∈ completions, c.1.unixMs < 2 ^ 63) (s : AppState) (before : List BenchmarkRun) :
    ∃ t filed, run (instrument fileResult noteFiled) completions (s, before) =
        some (t, before ++ filed) ∧ filed.length = completions.length ∧
      t.benchmarkHistory = filed.foldl keepRun s.benchmarkHistory := by
  induction completions generalizing s before with
  | nil => exact ⟨s, [], by rw [List.append_nil]; rfl, rfl, rfl⟩
  | cons c rest ih =>
    obtain ⟨here, later⟩ := List.forall_mem_cons.mp inTime
    obtain ⟨next, taken⟩ : ∃ next, fileResult s c = some next := by
      simp only [fileResult, dispatch, benchmarkComplete, here, if_true]
      exact ⟨_, rfl⟩
    have kept := dispatch_keepRun taken
    obtain ⟨t, filed, reached, length, history⟩ := ih later next (before ++ [filedRun c.1 c.2 s])
    refine ⟨t, filedRun c.1 c.2 s :: filed, ?_, congrArg Nat.succ length, ?_⟩
    · have stepped : instrument fileResult noteFiled (s, before) c =
          some (next, before ++ [filedRun c.1 c.2 s]) := instrument_some.mpr ⟨taken, rfl⟩
      rw [run_cons, stepped, Option.bind_some, reached, List.append_assoc]
      rfl
    · rw [history, kept]
      rfl

/-- Completions leave the newest runs, as capping once would, and a save of them is loaded back as
they are, however long the history was at first. -/
theorem history_capped_once (encode : List BenchmarkRun → Except String String)
    (decode : String → Except String (List BenchmarkRun)) (path : OsPath)
    (initial runs : List BenchmarkRun) (any : runs ≠ []) :
    (∀ now result s t, dispatch now (.benchmarkComplete result) s = some t →
      t.benchmarkHistory = keepRun s.benchmarkHistory (filedRun now result s)) ∧
    (∀ completions : List (Clock × BenchmarkResult), (∀ c ∈ completions, c.1.unixMs < 2 ^ 63) →
      ∀ s, ∃ t filed, run (instrument fileResult noteFiled) completions (s, []) = some (t, filed) ∧
        filed.length = completions.length ∧
        t.benchmarkHistory = filed.foldl keepRun s.benchmarkHistory) ∧
    runs.foldl keepRun initial = capHistory (initial ++ runs) 50 ∧
    (runs.foldl keepRun initial).length = min 50 (initial.length + runs.length) ∧
    runs.foldl keepRun initial <:+ initial ++ runs ∧
    (∀ (other : List BenchmarkRun) (cap : Nat),
      capHistory (capHistory other cap) cap = capHistory other cap) ∧
    ∀ (io next : Io) (disk : Disk), next.readError path = none →
      RunsReadBack encode decode (runs.foldl keepRun initial) →
      (saveBenchmarkHistory encode path io disk (runs.foldl keepRun initial)).2 = .ok () →
      loadBenchmarkHistory decode next
        (saveBenchmarkHistory encode path io disk (runs.foldl keepRun initial)).1 path =
          .ok (runs.foldl keepRun initial) := by
  have once : runs.foldl keepRun initial = capHistory (initial ++ runs) benchmarkHistoryCap :=
    foldl_keepRun any initial
  refine ⟨fun _ _ _ _ => dispatch_keepRun, fun _ inTime s => fileResult_run inTime s [], once, ?_, ?_,
    capHistory_idempotent, ?_⟩
  · rw [once, capHistory_length, List.length_append, benchmarkHistoryCap]
  · rw [once]
    exact Newest.rtake_suffix _ _
  · intro io next disk readable reads saved
    -- the save caps once more
    have kept : capHistory (runs.foldl keepRun initial) benchmarkHistoryCap =
        runs.foldl keepRun initial := by
      rw [once, capHistory_idempotent]
    have loaded := saveBenchmarkHistory_load saved (by rwa [kept] : RunsReadBack encode decode _)
      readable
    rwa [kept] at loaded

/-- When every completion has been saved, the file has the history exactly when the save that
wrote last is that of the last completion, or one with the same JSON. -/
theorem saved_history_latest_iff (encode : List BenchmarkRun → Except String String)
    (path : OsPath) (loop : Loop) (disk : Disk) (events : List SaveEvent) (final : Saver)
    (record : SaveRecord)
    (reached : run (instrument (Saver.step encode path) noteSave) events
      (.start loop disk, ⟨[], none⟩) = some (final, record))
    (any : record.completed ≠ []) (done : final.tasks = []) (succeeded : final.mail = []) :
    HoldsRuns encode path final.disk final.loop.state.benchmarkHistory ↔
      ∃ k, record.last = some k ∧ (k + 1 = record.completed.length ∨
        encode (snapshot loop.state.benchmarkHistory record.completed k) =
          encode (capHistory (loop.state.benchmarkHistory ++ record.completed)
            benchmarkHistoryCap)) := by
  have tracks := tracks_run reached
  obtain ⟨k, last⟩ := Option.ne_none_iff_exists'.mp ((tracks.pending any).resolve_left (· done))
  obtain ⟨text, encoded, there⟩ := tracks.written succeeded k last
  have history : final.loop.state.benchmarkHistory =
      capHistory (loop.state.benchmarkHistory ++ record.completed) benchmarkHistoryCap := by
    rw [tracks.history, if_neg any]
  rw [history]
  constructor
  · rintro ⟨text', encoded', there'⟩
    rw [there, Option.some.injEq, Contents.text.injEq] at there'
    exact ⟨k, last, .inr (by rw [encoded, encoded', there'])⟩
  · rintro ⟨k', last', newest⟩
    obtain rfl := Option.some.inj (last.symm.trans last')
    rcases newest with newest | same
    · refine ⟨text, ?_, there⟩
      rw [← encoded, snapshot, List.take_of_length_le newest.ge]
    · exact ⟨text, same.symm.trans encoded, there⟩

end

namespace HistorySample

open ImportSample

def durationJson (duration : Duration) : String :=
  "\x7b\n          \"secs\": " ++ toString (duration / 1000000000) ++
  ",\n          \"nanos\": " ++ toString (duration % 1000000000) ++ "\n        \x7d"

/-- Every throughput that is shown here is zero. -/
def resultJson (result : BenchmarkResult) : String :=
  "      \"" ++ result.backend ++ "\": \x7b\n        \"backend\": \"" ++ result.backend ++
  "\",\n        \"packets_processed\": " ++ toString result.packetsProcessed ++
  ",\n        \"bytes_encapsulated\": " ++ toString result.bytesEncapsulated ++
  ",\n        \"elapsed\": " ++ durationJson result.elapsed ++
  ",\n        \"throughput_bps\": 0.0,\n        \"avg_latency\": " ++
  durationJson result.avgLatency ++ ",\n        \"p50_latency\": " ++
  durationJson result.p50Latency ++ ",\n        \"p95_latency\": " ++
  durationJson result.p95Latency ++ ",\n        \"p99_latency\": " ++
  durationJson result.p99Latency ++ "\n      \x7d"

def runJson (run : BenchmarkRun) : String :=
  "  \x7b\n    \"timestamp_ms\": " ++ toString run.timestampMs ++
  ",\n    \"connection_name\": \"" ++ run.connectionName ++ "\",\n    \"results\": \x7b\n" ++
  String.join ((run.results.toList.map fun entry => resultJson entry.2).intersperse ",\n") ++
  "\n    \x7d\n  \x7d"

/-- The pretty-printed list. -/
def encode (runs : List BenchmarkRun) : Except String String :=
  .ok ("[\n" ++ String.join ((runs.map runJson).intersperse ",\n") ++ "\n]")

theorem encode_longer (first second : BenchmarkRun) : encode [first] ≠ encode [first, second] := by
  intro same
  have length := congrArg String.length (Except.ok.inj same)
  have comma : ",\n".length = 2 := by decide
  simp only [List.map_cons, List.map_nil, List.intersperse, String.join, List.foldl_cons,
    List.foldl_nil, String.length_append] at length
  omega

/-- What is read back of runs that were written so. -/
def decode (runs : List BenchmarkRun) (text : String) : Except String (List BenchmarkRun) :=
  if encode runs = .ok text then .ok runs else .error "expected value at line 1 column 1"

theorem encode_decode (runs : List BenchmarkRun) : RunsReadBack encode (decode runs) runs := by
  intro text encoded
  have bracket : '[' ∈ text.toList := by
    rw [← Except.ok.inj encoded]
    simp
  exact ⟨if_pos encoded, Text.trim_ne_empty bracket (by decide)⟩

def benchmarks : OsPath := .ofString "/home/user/.local/share/ferro-wg/benchmarks.json"

def loop : Loop := ⟨AppState.new home, .new⟩

def runAt (ms : Nat) : BenchmarkRun :=
  ⟨.ofNat ms, "home", (∅ : BTreeMap BenchmarkResult).insert "boringtun"
    ⟨"boringtun", 0, 0, 0, 0, 0, 0, 0, 0⟩⟩

/-- A result that comes at a time. -/
def complete (ms : Nat) : SaveEvent :=
  .message ⟨0, ms⟩ (.benchmarkComplete ⟨"boringtun", 0, 0, 0, 0, 0, 0, 0, 0⟩)

end HistorySample

open HistorySample ImportSample in
/-- One run more than a history that was over the cap already. -/
theorem history_capped_once_over : ∃ kept : List BenchmarkRun,
    kept.length = 50 ∧ kept <:+ List.replicate 60 (runAt 1) ++ [runAt 2] ∧
    loadBenchmarkHistory (decode kept) .clean
      (saveBenchmarkHistory encode benchmarks .clean disk kept).1 benchmarks = .ok kept := by
  let kept := [runAt 2].foldl keepRun (List.replicate 60 (runAt 1))
  obtain ⟨-, -, -, length, newest, -, loaded⟩ := @history_capped_once externals encode (decode kept)
    benchmarks (List.replicate 60 (runAt 1)) [runAt 2] (List.cons_ne_nil _ _)
  exact ⟨kept, length, newest, loaded .clean .clean disk rfl (encode_decode kept) rfl⟩

open HistorySample ImportSample in
/-- One completion and its save. -/
theorem saved_history_once : ∃ final record,
    run (instrument (@Saver.step encode benchmarks externals) noteSave)
      [complete 1, .save 0 .clean] (.start loop disk, ⟨[], none⟩) = some (final, record) ∧
    HoldsRuns encode benchmarks final.disk final.loop.state.benchmarkHistory := by
  have ends : ((run (instrument (@Saver.step encode benchmarks externals) noteSave)
      [complete 1, .save 0 .clean] (.start loop disk, ⟨[], none⟩)).map fun s =>
      (s.2.completed.length, s.1.tasks.length, s.1.mail.length, s.2.last)) =
      some (1, 0, 0, some 0) := by
    decide +kernel
  obtain ⟨⟨final, record⟩, reached, shown⟩ := Option.map_eq_some_iff.mp ends
  simp only [Prod.mk.injEq, List.length_eq_zero_iff] at shown
  obtain ⟨completed, tasks, mail, last⟩ := shown
  refine ⟨final, record, reached, ?_⟩
  have any : record.completed ≠ [] := fun none => by simp [none] at completed
  exact (@saved_history_latest_iff externals encode benchmarks loop disk _ final record reached any
    tasks mail).mpr ⟨0, last, .inl (by rw [completed])⟩

open HistorySample ImportSample in
/-- The save of the second completion writes first, so that the second run is not in the file. -/
theorem saved_history_loses_run : ∃ final record,
    run (instrument (@Saver.step encode benchmarks externals) noteSave)
      [complete 1, complete 2, .save 1 .clean, .save 0 .clean] (.start loop disk, ⟨[], none⟩) =
        some (final, record) ∧
    final.tasks = [] ∧ final.mail = [] ∧
    ¬ HoldsRuns encode benchmarks final.disk final.loop.state.benchmarkHistory := by
  have ends : ((run (instrument (@Saver.step encode benchmarks externals) noteSave)
      [complete 1, complete 2, .save 1 .clean, .save 0 .clean]
      (.start loop disk, ⟨[], none⟩)).map fun s =>
      (s.2.completed.length, s.1.tasks.length, s.1.mail.length, s.2.last)) =
      some (2, 0, 0, some 0) := by
    decide +kernel
  obtain ⟨⟨final, record⟩, reached, shown⟩ := Option.map_eq_some_iff.mp ends
  simp only [Prod.mk.injEq, List.length_eq_zero_iff] at shown
  obtain ⟨completed, tasks, mail, last⟩ := shown
  refine ⟨final, record, reached, tasks, mail, ?_⟩
  have tracks := @tracks_run encode benchmarks externals _ _ _ _ reached
  obtain ⟨first, second, both⟩ := List.length_eq_two.mp completed
  have history : final.loop.state.benchmarkHistory = [first, second] := by
    rw [tracks.history, both]
    rfl
  obtain ⟨text, encoded, there⟩ := tracks.written mail 0 last
  rintro ⟨text', encoded', there'⟩
  rw [there, Option.some.injEq, Contents.text.injEq] at there'
  rw [history, ← there', ← encoded, both] at encoded'
  exact encode_longer first second encoded'.symm

end FerroWg.Tui
