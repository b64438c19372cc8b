import FerroWg.Daemon.Rpc
import FerroWg.Tui.Benchmarks

/-!
# Benchmarks against the daemon

The daemon answers a request for a benchmark with an error, whoever asks. So nothing is ever
measured, and the interface never stops waiting for what it started.
-/

namespace FerroWg.Tui

open Lib Daemon Tunnel

section

variable [Externals] (json : SerdeJson) (platform : Platform)

def unimplemented : DaemonResponse := .error "Benchmark not implemented yet"

/-- A response comes to a task from the daemon, at whatever time and however the connection ends. -/
def FromDaemon : Happening → Prop
  | .benchmark _ (.response response) => ∃ p s name secs taken responses,
    json.Sends (.benchmark name secs) ∧ json.Answers unimplemented ∧
      sendStreamingCommandTo json.client (contact json platform p (.benchmark name secs) s).2
        (.benchmark name secs) taken = .ok responses ∧ response ∈ responses
  | _ => True

variable {json platform}

theorem FromDaemon.unimplemented {i : Nat} {response : DaemonResponse}
    (genuine : FromDaemon json platform (.benchmark i (.response response))) :
    response = Tui.unimplemented := by
  obtain ⟨p, s, name, secs, taken, responses, sends, answers, streamed, member⟩ := genuine
  exact (streamed_answered sends answers nofun streamed response member).2

/-- Nothing was measured, and a flag that was raised still is. -/
structure Unmeasured (history : List BenchmarkRun) (raised : Prop) (s : AppState) : Prop where
  history : s.benchmarkHistory = history
  progress : s.benchmarkProgressHistory = []
  results : s.benchmarkResults = ∅
  flag : raised → s.benchmarkRunning = true

/-- An action that is about what a benchmark measures. -/
def Action.measures : Action → Bool
  | .benchmarkProgressUpdate _ | .benchmarkComplete _ => true
  | _ => false

def DaemonMessage.measures (message : DaemonMessage) : Bool := message.isProgress || message.isComplete

variable {history : List BenchmarkRun} {raised : Prop}

theorem dispatch_unmeasured {now : Clock} {action : Action} {s t : AppState}
    (other : action.measures = false) (unmeasured : Unmeasured history raised s)
    (taken : dispatch now action s = some t) : Unmeasured history raised t := by
  obtain ⟨recorded, progress, results, flag⟩ := unmeasured
  cases action with
  | benchmarkProgressUpdate | benchmarkComplete => cases other
  | startBenchmark | startBenchmarkForBackend =>
    cases taken
    rw [startBenchmark]
    split
    · exact ⟨recorded, progress, results, flag⟩
    · exact ⟨recorded, rfl, rfl, fun _ => rfl⟩
  | _ =>
    have silent (part : Part) (measured : part ∈ [Part.history, .progress, .results, .flag]) :
        part.Same s t := by
      refine dispatch_writes part ?_ taken
      simp only [List.mem_cons, List.not_mem_nil, or_false] at measured
      rcases measured with rfl | rfl | rfl | rfl <;> simp [Action.writes]
    exact ⟨(silent .history (by simp)).trans recorded, (silent .progress (by simp)).trans progress,
      (silent .results (by simp)).trans results,
      fun before => (silent .flag (by simp)).trans (flag before)⟩

theorem handleKeyEvent_unmeasured {now : Clock} {key : KeyEvent} {l : Loop} {o : Outcome}
    (unmeasured : Unmeasured history raised l.state) (done : handleKeyEvent now key l = some o) :
    Unmeasured history raised o.loop.state := by
  obtain ⟨bundle, _, rfl⟩ | ⟨bundle, action, performed, resolved, run, rfl⟩ :=
    handleKeyEvent_cases done
  · exact unmeasured
  · have other : ∀ next ∈ action :: (followUp action l.state).toList, next.measures = false := by
      rw [List.forall_mem_cons]
      constructor
      · have keyed := resolveKey_keyed resolved action rfl
        cases action with
        | benchmarkProgressUpdate | benchmarkComplete => exact absurd keyed id
        | _ => rfl
      · intro next follows
        obtain rfl | rfl | ⟨i, rfl⟩ := followUp_confirmed (Option.mem_toList.mp follows) <;> rfl
    have kept : Unmeasured history raised performed.loop.state :=
      performEach_inv (Unmeasured history raised) (l := ⟨l.state, bundle⟩)
        (fun next member s t before taken => dispatch_unmeasured (other next member) before taken)
        unmeasured run
    exact kept

theorem handleDaemonMessage_unmeasured {now : Clock} {message : DaemonMessage} {l : Loop}
    {o : Outcome} (other : message.measures = false) (unmeasured : Unmeasured history raised l.state)
    (done : handleDaemonMessage now message l = some o) :
    Unmeasured history raised o.loop.state := by
  obtain ⟨dispatched, run, same⟩ := handleDaemonMessage_loop done
  have found : Unmeasured history raised (received message l).state := by
    cases message <;> exact ⟨unmeasured.history, unmeasured.progress, unmeasured.results,
      unmeasured.flag⟩
  rw [same]
  refine dispatchEach_inv (Unmeasured history raised)
    (fun action member s t before taken => dispatch_unmeasured ?_ before taken) found run
  cases message with
  | benchmarkProgress | benchmarkComplete => cases other
  | unreachable =>
    simp only [daemonActions, List.mem_cons, List.not_mem_nil, or_false] at member
    rcases member with rfl | rfl <;> rfl
  | _ =>
    obtain rfl := List.mem_singleton.mp member
    rfl

/-- The same of a program: nothing that was measured is on its way either. -/
structure Program.Unmeasured (history : List BenchmarkRun) (raised : Prop) (p : Program) : Prop where
  state : Tui.Unmeasured history raised p.loop.state
  queued : ∀ mail ∈ p.channel, mail.message.measures = false

omit [Externals] in
theorem BenchmarkTask.poll_unmeasured {task : BenchmarkTask} {event : StreamEvent}
    {message : DaemonMessage} {goesOn : Option BenchmarkTask}
    (genuine : ∀ response, event = .response response → response = unimplemented)
    (answered : task.poll event = some (some message, goesOn)) : message.measures = false := by
  rw [poll.eq_def] at answered
  split at answered <;> cases answered
  · obtain ⟨progress, complete⟩ := Program.errorToMessage_kind ‹_›
    rw [DaemonMessage.measures, progress, complete]
    rfl
  · cases genuine _ rfl
  · cases genuine _ rfl
  · rfl
  · rfl

theorem unmeasured_step {p next : Program} {event : Happening}
    (unmeasured : p.Unmeasured history raised) (genuine : FromDaemon json platform event)
    (taken : p.step event = some next) : next.Unmeasured history raised := by
  obtain ⟨state, queued⟩ := unmeasured
  cases event with
  | key now key =>
    obtain ⟨o, done, rfl⟩ := Program.step_key taken
    exact ⟨handleKeyEvent_unmeasured state done, queued⟩
  | receive now =>
    obtain ⟨mail, rest, o, channel, done, rfl⟩ := Program.step_receive taken
    rw [channel, List.forall_mem_cons] at queued
    exact ⟨handleDaemonMessage_unmeasured queued.1 state done, queued.2⟩
  | expire now =>
    obtain rfl := Program.step_expire taken
    exact ⟨⟨state.history, state.progress, state.results, state.flag⟩, queued⟩
  | benchmark i event =>
    obtain ⟨task, _, polled⟩ := Option.bind_eq_some_iff.mp (Program.step_benchmark taken)
    obtain ⟨⟨sent, goesOn⟩, answered, rfl⟩ := Option.map_eq_some_iff.mp polled
    refine ⟨state, List.forall_mem_append.mpr ⟨queued, ?_⟩⟩
    rw [List.forall_mem_map]
    intro message member
    obtain rfl := Option.mem_toList.mp member
    refine BenchmarkTask.poll_unmeasured ?_ answered
    rintro response rfl
    exact genuine.unimplemented
  | send message =>
    obtain ⟨⟨progress, complete⟩, rfl⟩ := Program.step_send taken
    refine ⟨state, List.forall_mem_append.mpr ⟨queued, List.forall_mem_singleton.mpr ?_⟩⟩
    rw [DaemonMessage.measures, progress, complete]
    rfl

/-- Whatever is typed, received and sent, over any two stretches of a run: no run is recorded, and
once the interface waits for a benchmark it never stops. -/
theorem benchmarks_unmeasured {config : AppConfig} {history : List BenchmarkRun}
    {first second : List Happening} {middle final : Program}
    (genuine : ∀ event ∈ first ++ second, FromDaemon json platform event)
    (started : run Program.step first (.start config history) = some middle)
    (reached : run Program.step second middle = some final) :
    final.Unmeasured history (middle.loop.state.benchmarkRunning = true) := by
  rw [List.forall_mem_append] at genuine
  have kept (raised : Prop) {events : List Happening}
      (all : ∀ event ∈ events, FromDaemon json platform event) {p next : Program}
      (before : p.Unmeasured history raised) (taken : run Program.step events p = some next) :
      next.Unmeasured history raised :=
    run_of_along (fun _ _ _ _ before genuine stepped => unmeasured_step before genuine stepped) before
      (along_of_mem _ all p) taken
  have begun : (Program.start config history).Unmeasured history False :=
    ⟨⟨rfl, rfl, rfl, nofun⟩, nofun⟩
  obtain ⟨⟨recorded, progress, results, _⟩, queued⟩ := kept False genuine.1 begun started
  exact kept _ genuine.2 ⟨⟨recorded, progress, results, id⟩, queued⟩ reached

end

namespace UnmeasuredSample

open ImportSample
open RpcSample (whole)
open TunnelSample (worldOf)

def request : DaemonCommand := .benchmark "home" 10

def requestLine : String :=
  "\x7b\"Benchmark\":\x7b\"connection_name\":\"home\",\"duration_secs\":10\x7d\x7d"

def answerLine : String := "\x7b\"Error\":\"Benchmark not implemented yet\"\x7d"

/-- The texts of one request and its answer. -/
def json : SerdeJson where
  client := {
    encode := fun command => if command = request then .ok requestLine else .error "another"
    decode := fun s => if s = answerLine then .ok unimplemented else .error "EOF while parsing" }
  daemon := {
    encode := fun
      | .error "Benchmark not implemented yet" => .ok answerLine
      | _ => .error "another"
    decode := fun s => if s = requestLine then .ok request else .error "EOF while parsing" }

theorem sends_request : json.Sends request :=
  ⟨requestLine, by decide, .of_only (by decide +kernel) (by decide +kernel) (by decide +kernel)
    (by simp [json, Except.toOption]) fun _ other => by simp [json, other, Except.toOption]⟩

theorem answers_request : json.Answers unimplemented :=
  ⟨answerLine, by decide, .of_only (by decide +kernel) (by decide +kernel) (by decide +kernel)
    (by simp [json, Except.toOption]) fun _ other => by simp [json, other, Except.toOption]⟩

def daemon : Process := ⟨⟨worldOf home, [], 0⟩, false⟩

def first : List Happening :=
  [.key ⟨0, 0⟩ { code := .char '4' }, .key ⟨0, 0⟩ { code := .char 'b' }, .benchmark 0 .connected]

def second : List Happening := [.benchmark 0 (.response unimplemented), .receive ⟨0, 0⟩]

theorem genuine : ∀ event ∈ first ++ second, @FromDaemon externals json .macos event := by
  have answered := @streamed_fair externals json .macos whole request daemon sends_request
    answers_request nofun rfl ⟨rfl, rfl, rfl, rfl⟩ 1 Nat.one_pos
  simp only [first, second, List.cons_append, List.nil_append, List.forall_mem_cons]
  exact ⟨trivial, trivial, trivial, ⟨whole, daemon, "home", 10, 1, _, sends_request, answers_request,
    answered, List.mem_singleton.mpr rfl⟩, trivial, fun _ none => absurd none List.not_mem_nil⟩

end UnmeasuredSample

open UnmeasuredSample ImportSample in
/-- The answer has come, the task is gone, and the interface still waits. -/
theorem benchmarks_unmeasured_home :
    ∃ middle final, run (@Program.step externals) first (.start home []) = some middle ∧
      run (@Program.step externals) second middle = some final ∧ final.benchmarks = [] ∧
      final.loop.state.benchmarkRunning = true := by
  have there : ((run (@Program.step externals) first (.start home [])).bind fun middle =>
      (run (@Program.step externals) second middle).map fun final =>
        (middle.loop.state.benchmarkRunning, final.benchmarks)) = some (true, []) := by
    decide +kernel
  obtain ⟨middle, started, later⟩ := Option.bind_eq_some_iff.mp there
  obtain ⟨final, reached, shown⟩ := Option.map_eq_some_iff.mp later
  obtain ⟨waits, ended⟩ := Prod.mk.inj shown
  have unmeasured := @benchmarks_unmeasured externals json .macos home [] first second middle final
    genuine started reached
  exact ⟨middle, final, started, reached, ended, unmeasured.state.flag waits⟩

end FerroWg.Tui
