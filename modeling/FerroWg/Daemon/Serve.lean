import FerroWg.Core.Client
import FerroWg.Daemon.Commands

/-!
# The loop of the daemon

One client at a time: its first line is read, decoded and acted on. What goes wrong with a client,
on the way in or out, is passed over; only a failing `accept` would leave the loop with an error.
With the loop the manager goes, and with that all connections.
-/

namespace FerroWg.Daemon

open Lib Tunnel

/-- One connection: what comes over the socket until the client closes its side or reading fails,
whether it is still there for the reply, and what the rest of the system answers meanwhile. -/
structure Client where
  sent : List UInt8
  readError : Option String
  sendError : Option String
  answers : CommandAnswers
  loaded : Except ConfigError AppConfig

/-- `serde_json` at the two message types. -/
structure IpcJson where
  encode : DaemonResponse → Except String String
  decode : String → Except String DaemonCommand

def IpcJson.encodeMessage (json : IpcJson) (response : DaemonResponse) : Except String String :=
  (json.encode response).map (· ++ "\n")

def IpcJson.decodeMessage (json : IpcJson) (line : String) : Except String DaemonCommand :=
  json.decode (Text.trim line)

structure Server where
  world : World
  replies : List String
  /-- The tasks that were spawned for log streams. -/
  streams : Nat

abbrev Serving := EStateM String Server

def Client.incoming (client : Client) : Incoming := ⟨client.sent, client.readError⟩

/-- What comes behind the line is never read. -/
def Client.readLine (client : Client) : Except String (Nat × String) :=
  client.incoming.readLine.map fun read => (read.1, read.2.1)

section

variable (json : IpcJson)

def sendResponse (client : Client) (response : DaemonResponse) : Serving Unit :=
  match json.encodeMessage response with
  | .error e => throw e
  | .ok text => match client.sendError with
    | some e => throw e
    | none => modify fun s => { s with replies := s.replies ++ [text] }

def readCommand (client : Client) : Serving (Option DaemonCommand) :=
  match client.readLine with
  | .error _ => pure none
  | .ok (0, _) => pure none
  | .ok (_ + 1, line) => match json.decodeMessage line with
    | .ok command => pure (some command)
    | .error e => do
      passOver (sendResponse json client (.error s!"invalid command: {e}")) ()
      pure none

def acceptCommand (accepted : Except String Client) :
    Serving (Option (Client × DaemonCommand)) := do
  match accepted with
  | .error e => throw e
  | .ok client =>
    match ← readCommand json client with
    | none => pure none
    | some command => pure (some (client, command))

def isShutdown : DaemonResponse → DaemonCommand → Bool
  | .ok, .shutdown => true
  | _, _ => false

variable [Externals] (platform : Platform)

/-- `process_command` with the reply. -/
def answerCommand (client : Client) (command : DaemonCommand) : Serving Bool := do
  let response ← modifyGet fun s =>
    let (world, response) := processCommand platform client.answers client.loaded command s.world
    (response, { s with world := world })
  passOver (sendResponse json client response) ()
  pure (isShutdown response command)

/-- A log stream gets a task of its own. -/
def routeCommand (client : Client) (command : DaemonCommand) : Serving Bool :=
  match command with
  | .streamLogs => do
    modify fun s => { s with streams := s.streams + 1 }
    pure false
  | command => answerCommand json platform client command

def handleConnection (accepted : Except String Client) : Serving Bool := do
  match ← acceptCommand json accepted with
  | none => pure false
  | some (client, command) => routeCommand json platform client command

/-- How far the loop has come: it has no result as long as it waits for the next client. -/
structure Progress where
  server : Server
  result : Option (Except String Unit)
  waiting : List (Except String Client)

/-- The loop of `run`, over the answers of `accept`. -/
def runLoop : List (Except String Client) → Server → Progress
  | [], s => ⟨s, none, []⟩
  | accepted :: rest, s =>
    match (handleConnection json platform accepted).run s with
    | .error e s => ⟨s, some (.error e), rest⟩
    | .ok true s => ⟨s, some (.ok ()), rest⟩
    | .ok false s => runLoop rest s

/-- The daemon, while it runs and when it has stopped. -/
structure Process extends Server where
  stopped : Bool

/-- `run`, as far as it has come: when the loop is left, in either way, the manager is dropped. -/
def runDaemon (a : CommandAnswers) (accepted : List (Except String Client)) (s : Server) : Process :=
  let progress := runLoop json platform accepted s
  match progress.result with
  | none => ⟨progress.server, false⟩
  | some _ => ⟨{ progress.server with world := dropManager a progress.server.world }, true⟩

/-- One client of `run`; nobody is served when it has been left. -/
def serve (a : CommandAnswers) (accepted : Except String Client) (s : Process) : Process :=
  if s.stopped then s
  else match (handleConnection json platform accepted).run s.toServer with
    | .ok false t => ⟨t, false⟩
    | .ok true t | .error _ t => ⟨{ t with world := dropManager a t.world }, true⟩

theorem serve_stopped (a : CommandAnswers) (accepted : List (Except String Client)) {s : Process}
    (stopped : s.stopped = true) :
    accepted.foldl (fun s next => serve json platform a next s) s = s := by
  induction accepted with
  | nil => rfl
  | cons next rest ih => rw [List.foldl_cons, serve, if_pos stopped, ih]

/-- Serving one client after the other is what `run` does. -/
theorem runDaemon_eq (a : CommandAnswers) (accepted : List (Except String Client)) (s : Server) :
    runDaemon json platform a accepted s =
      accepted.foldl (fun s next => serve json platform a next s) ⟨s, false⟩ := by
  induction accepted generalizing s with
  | nil => rfl
  | cons next rest ih =>
    rw [List.foldl_cons, serve, if_neg Bool.false_ne_true]
    rcases ran : (handleConnection json platform next).run s with ⟨_ | _, t⟩ | ⟨e, t⟩
    · rw [← ih t, runDaemon, runLoop, ran]
      rfl
    · rw [serve_stopped _ _ _ _ rfl, runDaemon, runLoop, ran]
    · rw [serve_stopped _ _ _ _ rfl, runDaemon, runLoop, ran]

/-- The command on the first line that a client sends, if that is one. -/
def Client.command (client : Client) : Option DaemonCommand :=
  match client.readLine with
  | .ok (_ + 1, line) => (json.decodeMessage line).toOption
  | _ => none

/-- What the manager does for a client: one command, at most. -/
def Client.effect (client : Client) (w : World) : World :=
  match client.command json with
  | none => w
  | some command =>
    let reloaded := match command, client.loaded with
      | .up _ _, .ok config | .status, .ok config => reloadConfig config w
      | _, _ => w
    (handleCommand platform client.answers command reloaded).1

omit [Externals] in
/-- A reply that cannot be sent is as good as one that was. -/
theorem sendResponse_world (client : Client) (response : DaemonResponse) :
    Leaves Server.world (sendResponse json client response) := by
  rw [sendResponse]
  split
  · exact .throw _
  · split
    · exact .throw _
    · exact .modify fun _ => rfl

omit [Externals] in
/-- Sending a reply always ends well, and is no concern of the manager. -/
theorem sendResponse_passed (client : Client) (response : DaemonResponse) (s : Server) :
    ∃ t, (passOver (sendResponse json client response) () : Serving Unit).run s = .ok () t ∧
      t.world = s.world := by
  have world := sendResponse_world json client response s
  rw [run_passOver]
  cases ran : (sendResponse json client response).run s with
  | ok u t => exact ⟨t, rfl, by rwa [after_of_ok ran] at world⟩
  | error e t => exact ⟨t, rfl, by rwa [after_of_error ran] at world⟩

omit [Externals] in
theorem readCommand_run (client : Client) (s : Server) :
    ∃ t, (readCommand json client).run s = .ok (client.command json) t ∧ t.world = s.world := by
  rw [readCommand, Client.command]
  rcases client.readLine with e | ⟨_ | count, line⟩
  · exact ⟨s, rfl, rfl⟩
  · exact ⟨s, rfl, rfl⟩
  · simp only
    cases json.decodeMessage line with
    | ok command => exact ⟨s, rfl, rfl⟩
    | error e =>
      obtain ⟨t, sent, world⟩ :=
        sendResponse_passed json client (.error s!"invalid command: {e}") s
      refine ⟨t, ?_, world⟩
      simp only [EStateM.run_bind, sent]
      rfl

theorem isShutdown_processCommand (a : CommandAnswers) (loaded : Except ConfigError AppConfig)
    (command : DaemonCommand) (w : World) :
    isShutdown (processCommand platform a loaded command w).2 command =
      decide (command = .shutdown) := by
  cases command with
  | shutdown => rfl
  | _ => simp [isShutdown]

theorem answerCommand_run (client : Client) (command : DaemonCommand) (s : Server) :
    ∃ t, (answerCommand json platform client command).run s = .ok (command = .shutdown) t ∧
      t.world = (processCommand platform client.answers client.loaded command s.world).1 := by
  let outcome := processCommand platform client.answers client.loaded command s.world
  obtain ⟨t, sent, world⟩ :=
    sendResponse_passed json client outcome.2 { s with world := outcome.1 }
  have stops := isShutdown_processCommand platform client.answers client.loaded command s.world
  refine ⟨t, ?_, world⟩
  rw [← stops]
  have made : (modifyGet fun s : Server =>
      let (world, response) := processCommand platform client.answers client.loaded command s.world
      (response, { s with world := world }) : Serving DaemonResponse).run s =
      .ok outcome.2 { s with world := outcome.1 } := rfl
  simp only [answerCommand, EStateM.run_bind, made, sent]
  rfl

theorem routeCommand_run (client : Client) (command : DaemonCommand) (s : Server) :
    ∃ t, (routeCommand json platform client command).run s = .ok (command = .shutdown) t ∧
      t.world = (processCommand platform client.answers client.loaded command s.world).1 := by
  have answered := answerCommand_run json platform client command s
  cases command with
  | streamLogs => exact ⟨{ s with streams := s.streams + 1 }, rfl, rfl⟩
  | _ => exact answered

/-- One round of the loop ends well; it has the effect of the client's command, and asks to leave
the loop only for a shutdown. -/
theorem handleConnection_run (client : Client) (s : Server) :
    ∃ t, (handleConnection json platform (.ok client)).run s =
        .ok (client.command json = some .shutdown) t ∧
      t.world = client.effect json platform s.world := by
  obtain ⟨t, read, same⟩ := readCommand_run json client s
  simp only [handleConnection, acceptCommand, EStateM.run_bind, read]
  cases said : client.command json with
  | none =>
    refine ⟨t, rfl, ?_⟩
    rw [same, Client.effect, said]
  | some command =>
    obtain ⟨u, ran, world⟩ := routeCommand_run json platform client command t
    refine ⟨u, ?_, ?_⟩
    · simp only [EStateM.run_pure, ran, Option.some.injEq]
    · simp only [world, same, processCommand, reloadFromDisk, Client.effect, said]
      cases command with
      | up | status => cases client.loaded <;> rfl
      | _ => rfl

/-- The loop is left after the first client that asks for a shutdown, and only then; until then
each client has the effect of its command on the manager. -/
theorem only_shutdown_stops (clients : List Client) (s : Server) :
    let asks (client : Client) : Bool := client.command json = some .shutdown
    let served := clients.findIdx asks + 1
    let progress := runLoop json platform (clients.map .ok) s
    progress.result = (if clients.any asks then some (.ok ()) else none) ∧
      progress.waiting = (clients.drop served).map .ok ∧
      progress.server.world =
        (clients.take served).foldl (fun w client => client.effect json platform w) s.world := by
  induction clients generalizing s with
  | nil => exact ⟨rfl, rfl, rfl⟩
  | cons client rest ih =>
    obtain ⟨t, ran, world⟩ := handleConnection_run json platform client s
    simp only [List.map_cons, runLoop, ran, List.any_cons, List.findIdx_cons]
    by_cases asks : client.command json = some .shutdown
    · simp [asks, world]
    · obtain ⟨result, waiting, later⟩ := ih t
      simp only [asks, decide_false, Bool.false_or, cond_false, List.drop_succ_cons,
        List.take_succ_cons, List.foldl_cons]
      exact ⟨result, waiting, by rw [later, world]⟩

end

namespace ServeSample

open TunnelSample

def json : IpcJson where
  encode _ := .error "no response"
  decode s :=
    if s = "\"Status\"" then .ok .status
    else if s = "\"Shutdown\"" then .ok .shutdown
    else .error "expected value"

def home : AppConfig := (default : AppConfig).insert "home" (wgWith [] [])

/-- Whatever is sent, the file has been changed meanwhile. -/
def client (line : String) : Client where
  sent := Text.utf8 line
  readError := none
  sendError := none
  answers := ⟨fun _ => upAnswers "utun4", fun _ => downAnswers, [], fun _ => ⟨0, 0, none, 0, none⟩⟩
  loaded := .ok home

def clients : List Client :=
  [client "Status\n", client "\"Status\"\n", client "\"Shutdown\"", client "\"Status\"\n"]

end ServeSample

open ServeSample TunnelSample in
/-- No reply can be sent, and the first line is no command; the third client stops the daemon. -/
theorem only_shutdown_stops_third :
    let progress := @runLoop json externals .macos (clients.map .ok) ⟨worldOf default, [], 0⟩
    progress.result = some (.ok ()) ∧ progress.waiting = [.ok (client "\"Status\"\n")] ∧
      progress.server.world = worldOf home := by
  have spec := @only_shutdown_stops json externals .macos clients ⟨worldOf default, [], 0⟩
  have commands : clients.map (Client.command json) =
      [none, some .status, some .shutdown, some .status] := by decide +kernel
  simp only [clients, List.map_cons, List.map_nil, List.cons.injEq, and_true] at commands
  obtain ⟨garbled, status, shutdown, -⟩ := commands
  have loaded (line : String) : (client line).loaded = .ok home := rfl
  simpa [clients, List.findIdx_cons, garbled, status, shutdown, Client.effect, loaded, handleCommand,
    reloadConfig, worldOf] using spec

end FerroWg.Daemon
