import FerroWg.Daemon.Rpc
import FerroWg.Tui.Benchmarks

/-!
# The interface and the daemon

The loop with its tasks on one side, the daemon with all its clients on the other. A task asks, has
its answer some time, and sends a message some time later. What the remaining tasks do is left to
whoever decides what happens next, and so are the other clients.
-/

namespace FerroWg.Tui

open Lib Daemon Tunnel

/-- `spawn_status_poll`: the flag is let go of after the message. -/
inductive PollTask where
  | asking
  | answered (answer : Except DaemonClientError DaemonResponse)
  | told

def pollMessage : Except DaemonClientError DaemonResponse → Option DaemonMessage
  | .ok (.status peers) => some (.statusUpdate peers)
  | .error e => some (errorToMessage e)
  | .ok _ => none

/-- A task of `maybe_spawn_command`, or of `spawn_switch_backend_task`. -/
structure CommandTask where
  cmd : DaemonCommand
  description : String
  answer : Option (Except DaemonClientError DaemonResponse)

def commandMessage (description : String) :
    Except DaemonClientError DaemonResponse → Option DaemonMessage
  | .ok .ok => some (.commandOk description)
  | .ok (.error e) => some (.commandError (.daemonResponse e))
  | .error e => some (errorToMessage e)
  | .ok _ => none

def spawnedCommands (effects : List Effect) : List CommandTask :=
  effects.filterMap fun
    | .command cmd description => some ⟨cmd, description, none⟩
    | _ => none

def DaemonMessage.isStatus : DaemonMessage → Bool
  | .statusUpdate _ => true
  | _ => false

def Happening.sendsStatus : Happening → Bool
  | .send message => message.isStatus
  | _ => false

/-- A message from a task that is no benchmark. -/
def Program.post (p : Program) (message : Option DaemonMessage) : Program :=
  { p with channel := p.channel ++ message.toList.map fun message => ⟨none, message⟩ }

structure Conversation where
  program : Program
  pollInFlight : Bool
  polls : List PollTask
  commands : List CommandTask
  daemon : Process

inductive Turn where
  | tui (event : Happening)
  | tick
  | askPoll (i : Nat) (passage : Passage)
  | tellPoll (i : Nat)
  | releasePoll (i : Nat)
  | askCommand (i : Nat) (passage : Passage)
  | tellCommand (i : Nat)
  /-- Another client, or that none can be accepted any more; and what is answered when that is the
  end of the daemon. -/
  | serve (answers : CommandAnswers) (accepted : Except String Client)

namespace Conversation

def start (config : AppConfig) (history : List BenchmarkRun) (daemon : Process) : Conversation where
  program := .start config history
  pollInFlight := false
  polls := []
  commands := []
  daemon := daemon

variable [Externals]

/-- The effects of a key; nothing else makes the loop spawn a command. -/
def effects (s : Conversation) : Happening → List Effect
  | .key now key => ((handleKeyEvent now key s.program.loop).map (·.effects)).getD []
  | _ => []

/-- `AppEvent::Tick`. -/
def spawnStatusPoll (s : Conversation) : Conversation :=
  if s.pollInFlight then s else { s with pollInFlight := true, polls := s.polls ++ [.asking] }

/-- A step of the loop or of a task that the loop is not asked about again: none of these has a
status to send. -/
def stepTui (s : Conversation) (event : Happening) : Option Conversation :=
  if event.sendsStatus then none
  else (s.program.step event).map fun program =>
    { s with program := program, commands := s.commands ++ spawnedCommands (s.effects event) }

variable (json : SerdeJson) (platform : Platform)

def stepTask (s : Conversation) : Turn → Option Conversation
  | .tui event => s.stepTui event
  | .tick => some s.spawnStatusPoll
  | .askPoll i passage =>
    match s.polls[i]? with
    | some .asking =>
      let (daemon, answer) := exchange json platform passage .status s.daemon
      some { s with daemon := daemon, polls := s.polls.set i (.answered answer) }
    | _ => none
  | .tellPoll i =>
    match s.polls[i]? with
    | some (.answered answer) =>
      some { s with program := s.program.post (pollMessage answer), polls := s.polls.set i .told }
    | _ => none
  | .releasePoll i =>
    match s.polls[i]? with
    | some .told => some { s with pollInFlight := false, polls := s.polls.eraseIdx i }
    | _ => none
  | .askCommand i passage =>
    match s.commands[i]? with
    | some ⟨cmd, description, none⟩ =>
      let (daemon, answer) := exchange json platform passage cmd s.daemon
      some { s with
        daemon := daemon
        commands := s.commands.set i ⟨cmd, description, some answer⟩ }
    | _ => none
  | .tellCommand i =>
    match s.commands[i]? with
    | some ⟨_, description, some answer⟩ => some { s with
        program := s.program.post (commandMessage description answer)
        commands := s.commands.eraseIdx i }
    | _ => none
  | .serve answers accepted =>
    some { s with daemon := Daemon.serve json.daemon platform answers accepted s.daemon }

/-- The tasks are aborted when the loop has quit; the daemon goes on. -/
def step (s : Conversation) (turn : Turn) : Option Conversation :=
  match turn with
  | .serve _ _ => s.stepTask json platform turn
  | turn => if s.program.loop.state.running then s.stepTask json platform turn else none

variable {json platform} {s next : Conversation} {turn : Turn}

/-- The steps of a conversation, each with what it is taken in. -/
inductive Stepped (json : SerdeJson) (platform : Platform) (s : Conversation) :
    Turn → Conversation → Prop
  | tui {event : Happening} {program : Program} (running : s.program.loop.state.running = true)
    (other : event.sendsStatus = false) (taken : s.program.step event = some program) :
    Stepped json platform s (.tui event)
      { s with program := program, commands := s.commands ++ spawnedCommands (s.effects event) }
  | tick (running : s.program.loop.state.running = true) :
    Stepped json platform s .tick s.spawnStatusPoll
  | askPoll {i : Nat} {passage : Passage} (running : s.program.loop.state.running = true)
    (waiting : s.polls[i]? = some .asking) :
    Stepped json platform s (.askPoll i passage) { s with
      daemon := (exchange json platform passage .status s.daemon).1
      polls := s.polls.set i (.answered (exchange json platform passage .status s.daemon).2) }
  | tellPoll {i : Nat} {answer : Except DaemonClientError DaemonResponse}
    (running : s.program.loop.state.running = true)
    (waiting : s.polls[i]? = some (.answered answer)) :
    Stepped json platform s (.tellPoll i)
      { s with program := s.program.post (pollMessage answer), polls := s.polls.set i .told }
  | releasePoll {i : Nat} (running : s.program.loop.state.running = true)
    (waiting : s.polls[i]? = some .told) :
    Stepped json platform s (.releasePoll i)
      { s with pollInFlight := false, polls := s.polls.eraseIdx i }
  | askCommand {i : Nat} {passage : Passage} {cmd : DaemonCommand} {description : String}
    (running : s.program.loop.state.running = true)
    (waiting : s.commands[i]? = some ⟨cmd, description, none⟩) :
    Stepped json platform s (.askCommand i passage) { s with
      daemon := (exchange json platform passage cmd s.daemon).1
      commands := s.commands.set i
        ⟨cmd, description, some (exchange json platform passage cmd s.daemon).2⟩ }
  | tellCommand {i : Nat} {cmd : DaemonCommand} {description : String}
    {answer : Except DaemonClientError DaemonResponse}
    (running : s.program.loop.state.running = true)
    (waiting : s.commands[i]? = some ⟨cmd, description, some answer⟩) :
    Stepped json platform s (.tellCommand i) { s with
      program := s.program.post (commandMessage description answer)
      commands := s.commands.eraseIdx i }
  | serve {answers : CommandAnswers} {accepted : Except String Client} :
    Stepped json platform s (.serve answers accepted)
      { s with daemon := Daemon.serve json.daemon platform answers accepted s.daemon }

theorem stepped (taken : s.step json platform turn = some next) :
    Stepped json platform s turn next := by
  cases turn with
  | serve answers accepted =>
    cases taken
    exact .serve
  | tui event =>
    simp only [step] at taken
    split at taken
    · rename_i running
      simp only [stepTask, stepTui] at taken
      split at taken
      · cases taken
      · rename_i other
        obtain ⟨program, stepped, rfl⟩ := Option.map_eq_some_iff.mp taken
        exact .tui running (Bool.eq_false_iff.mpr other) stepped
    · cases taken
  | tick =>
    simp only [step] at taken
    split at taken <;> cases taken
    exact .tick ‹_›
  | askPoll | tellPoll | releasePoll | askCommand | tellCommand =>
    simp only [step] at taken
    split at taken
    · rename_i running
      simp only [stepTask] at taken
      split at taken <;> cases taken
      first
        | exact .askPoll running ‹_›
        | exact .tellPoll running ‹_›
        | exact .releasePoll running ‹_›
        | exact .askCommand running ‹_›
        | exact .tellCommand running ‹_›
    · cases taken

end Conversation

end FerroWg.Tui
