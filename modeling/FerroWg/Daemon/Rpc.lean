import FerroWg.Core.Client
import FerroWg.Daemon.Serve

/-!
# A command and its reply

Both ends of one connection: what a client writes is what the daemon reads, and the other way
round. On the way a connection may break at any byte.
-/

namespace FerroWg.Daemon

open Lib Tunnel

/-- `serde_json` at either end. -/
structure SerdeJson where
  client : ClientJson
  daemon : IpcJson

/-- The daemon reads the command that the client means. -/
def SerdeJson.Sends (json : SerdeJson) (command : DaemonCommand) : Prop :=
  ∃ text, json.client.encode command = .ok text ∧
    Text.OnLine (fun s => (json.daemon.decode s).toOption) text command

/-- The client reads the response that the daemon gives. -/
def SerdeJson.Answers (json : SerdeJson) (response : DaemonResponse) : Prop :=
  ∃ text, json.daemon.encode response = .ok text ∧
    Text.OnLine (fun s => (json.client.decode s).toOption) text response

/-- What may happen to one exchange, with what the rest of the system answers meanwhile. -/
structure Passage where
  connectError : Option ConnectError
  /-- The bytes of the command that arrive although it could not be written. -/
  writeError : Option (Nat × String)
  readError : Option String
  sendError : Option String
  /-- The bytes of the reply that arrive before the connection is lost, by an error or a close. -/
  breakOff : Option (Nat × Option String)
  answers : CommandAnswers
  loaded : Except ConfigError AppConfig

namespace Passage

/-- The connection as the daemon sees it, when the client writes some bytes. -/
def client (p : Passage) (bytes : List UInt8) : Client where
  sent := match p.writeError with
    | none => bytes
    | some (count, _) => bytes.take count
  readError := p.readError
  sendError := p.sendError
  answers := p.answers
  loaded := p.loaded

def incoming (p : Passage) (reply : List UInt8) : Incoming :=
  match p.breakOff with
  | none => ⟨reply, none⟩
  | some (count, e) => ⟨reply.take count, e⟩

structure Fair (p : Passage) : Prop where
  connects : p.connectError = none
  writes : p.writeError = none
  sends : p.sendError = none
  arrives : p.breakOff = none

/-- Whether the command gets to the daemon: as a line of its own, or as all that ever comes. -/
def executes (p : Passage) (json : SerdeJson) (command : DaemonCommand) : Bool :=
  p.connectError.isNone && match json.client.encode command with
    | .error _ => false
    | .ok text =>
      let arrived := (p.client (Text.utf8 text ++ [10])).sent
      (Text.utf8 text).isPrefixOf arrived && (arrived.contains 10 || p.readError.isNone)

end Passage

def writtenBytes (json : ClientJson) (command : DaemonCommand) : List UInt8 :=
  match json.encodeMessage command with
  | .ok text => Text.utf8 text
  | .error _ => []

section

variable [Externals] (json : SerdeJson) (platform : Platform)

/-- A client sends its command when the daemon comes to serve it; what the daemon makes of it, and
what of the reply is there to be read. To a daemon that has stopped the client cannot connect, or it
is not served any more. -/
def contact (p : Passage) (command : DaemonCommand) (s : Process) : Process × Socket :=
  let client := p.client (writtenBytes json.client command)
  let t := if p.connectError.isNone
    then serve json.daemon platform p.answers (.ok client) s else s
  let reply := (t.replies.drop s.replies.length).flatMap Text.utf8
  (t, ⟨p.connectError, p.writeError.map (·.2), p.incoming reply⟩)

/-- The client takes one reply. -/
def exchange (p : Passage) (command : DaemonCommand) (s : Process) :
    Process × Except DaemonClientError DaemonResponse :=
  let (t, socket) := contact json platform p command s
  (t, sendCommandTo json.client socket command)

omit [Externals] in
/-- Whether the daemon acts on the command, which it cannot when it has stopped. -/
def Process.gets (s : Process) (json : SerdeJson) (p : Passage) (command : DaemonCommand) : Bool :=
  !s.stopped && p.executes json command

/-- What a command comes to; the one that ends `run` drops the manager behind its answer. -/
def carryOut (p : Passage) (command : DaemonCommand) (w : World) : World × DaemonResponse :=
  let (t, response) := processCommand platform p.answers p.loaded command w
  (if command = .shutdown then dropManager p.answers t else t, response)

/-- What the daemon writes to a client, if it can. -/
def sentReply (json : IpcJson) (client : Client) (response : DaemonResponse) : Option String :=
  match json.encodeMessage response, client.sendError with
  | .ok text, none => some text
  | _, _ => none

omit [Externals] in
theorem sendResponse_sent (json : IpcJson) (client : Client) (response : DaemonResponse)
    (s : Server) :
    (passOver (sendResponse json client response) () : Serving Unit).run s =
      .ok () { s with replies := s.replies ++ (sentReply json client response).toList } := by
  rw [run_passOver, sendResponse, sentReply]
  cases json.encodeMessage response with
  | error e =>
    simp only [Option.toList_none, List.append_nil]
    rfl
  | ok text =>
    cases client.sendError with
    | some e =>
      simp only [Option.toList_none, List.append_nil]
      rfl
    | none => rfl

omit [Externals] in
theorem readCommand_said {json : IpcJson} {client : Client} {command : DaemonCommand}
    (said : client.command json = some command) (s : Server) :
    (readCommand json client).run s = .ok (some command) s := by
  rw [Client.command] at said
  rw [readCommand]
  rcases read : client.readLine with e | ⟨_ | count, line⟩ <;> simp only [read] at said
  · cases said
  · cases said
  · cases decoded : json.decodeMessage line with
    | error e => simp [decoded, Except.toOption] at said
    | ok other =>
      obtain rfl : other = command := by simpa [decoded, Except.toOption] using said
      simp only [decoded]
      rfl

/-- What the daemon does for a client, what it writes to it, and whether that was the last one. -/
theorem handleConnection_said {json : IpcJson} {client : Client} {command : DaemonCommand}
    (said : client.command json = some command) (single : command ≠ .streamLogs) (s : Server) :
    let outcome := processCommand platform client.answers client.loaded command s.world
    (handleConnection json platform (.ok client)).run s =
      .ok (command = .shutdown) { s with
        world := outcome.1
        replies := s.replies ++ (sentReply json client outcome.2).toList } := by
  intro outcome
  -- The pair that the command answers with is taken apart by computation.
  have first : (answerCommand json platform client command).run s =
      (do passOver (sendResponse json client outcome.2) ()
          pure (isShutdown outcome.2 command) : Serving Bool).run { s with world := outcome.1 } := rfl
  have routed : routeCommand json platform client command =
      answerCommand json platform client command := by
    cases command with
    | streamLogs => exact absurd rfl single
    | _ => rfl
  have stops : isShutdown outcome.2 command = decide (command = .shutdown) :=
    isShutdown_processCommand platform client.answers client.loaded command s.world
  simp only [handleConnection, acceptCommand, EStateM.run_bind, readCommand_said said,
    EStateM.run_pure, routed, first, sendResponse_sent, stops]

omit [Externals] in
theorem Passage.sent_cut (p : Passage) (bytes : List UInt8) : (p.client bytes).sent <+: bytes := by
  rw [client]
  cases p.writeError with
  | none => exact List.prefix_rfl
  | some failed => exact List.take_prefix _ _

omit [Externals] in
theorem Passage.incoming_cut (p : Passage) (reply : List UInt8) :
    (p.incoming reply).bytes <+: reply := by
  rw [incoming]
  cases p.breakOff with
  | none => exact List.prefix_rfl
  | some lost => exact List.take_prefix _ _

omit [Externals] in
theorem writtenBytes_of_encode {json : ClientJson} {command : DaemonCommand} {text : String}
    (encoded : json.encode command = .ok text) :
    writtenBytes json command = Text.utf8 text ++ [10] := by
  rw [writtenBytes, ClientJson.encodeMessage, encoded]
  exact Text.utf8_newline text

omit [Externals] in
/-- The command that the daemon reads, when a line is cut. -/
theorem Client.command_cut {json : IpcJson} {text : String} {command : DaemonCommand}
    (line : Text.OnLine (fun s => (json.decode s).toOption) text command) {client : Client}
    (cut : client.sent <+: Text.utf8 text ++ [10]) :
    client.command json =
      if Text.utf8 text <+: client.sent ∧ (10 ∈ client.sent ∨ client.readError.isNone)
      then some command else none := by
  rw [Client.command, Client.readLine, Client.incoming]
  have arrived : (⟨client.sent, client.readError⟩ : Incoming).bytes <+: Text.utf8 text ++ [10] := cut
  rcases Incoming.readLine_cut line arrived with
    ⟨all, ready, count, read, rest, got, decoded⟩ | ⟨short, lost⟩
  · rw [if_pos ⟨all, ready⟩, got]
    exact decoded
  · rw [if_neg short]
    rcases got : Incoming.readLine ⟨client.sent, client.readError⟩ with e | ⟨_ | count, read, rest⟩
    · rfl
    · rfl
    · exact lost _ _ _ got

omit [Externals] in
/-- The daemon acts on the command if it arrives, and else on none. -/
theorem Passage.command_eq {json : SerdeJson} {command : DaemonCommand} (sends : json.Sends command)
    {p : Passage} (connects : p.connectError = none) :
    (p.client (writtenBytes json.client command)).command json.daemon =
      if p.executes json command then some command else none := by
  obtain ⟨text, encoded, line⟩ := sends
  rw [writtenBytes_of_encode encoded, Client.command_cut line (p.sent_cut _)]
  simp [executes, connects, encoded, Passage.client]

omit [Externals] in
/-- A command that could be written is one that arrives. -/
theorem Passage.executes_of_written {json : SerdeJson} {command : DaemonCommand} {text : String}
    (encoded : json.client.encode command = .ok text) {p : Passage} (connects : p.connectError = none)
    (written : p.writeError = none) : p.executes json command = true := by
  simp [executes, connects, encoded, client, written]

omit [Externals] in
theorem sentReply_bytes {json : IpcJson} {response : DaemonResponse} {text : String}
    (encoded : json.encode response = .ok text) (client : Client) :
    (sentReply json client response).toList.flatMap Text.utf8 =
      if client.sendError = none then Text.utf8 text ++ [10] else [] := by
  rw [sentReply, IpcJson.encodeMessage, encoded]
  cases client.sendError with
  | none => simpa [Except.map] using Text.utf8_newline text
  | some e => rfl

omit [Externals] in
/-- The whole reply arrives. -/
theorem Passage.Fair.incoming_eq {p : Passage} (fair : p.Fair) {json : IpcJson}
    {response : DaemonResponse} {text : String} (encoded : json.encode response = .ok text)
    (bytes : List UInt8) :
    p.incoming ((sentReply json (p.client bytes) response).toList.flatMap Text.utf8) =
      ⟨Text.utf8 text ++ [10], none⟩ := by
  have sent : (p.client bytes).sendError = none := fair.sends
  rw [sentReply_bytes encoded, if_pos sent, Passage.incoming, fair.arrives]

omit [Externals] in
/-- The client reads the reply as what it is, or not at all. -/
theorem reply_read {json : SerdeJson} {response other : DaemonResponse}
    (answers : json.Answers response) {client : Client} {incoming rest : Incoming}
    (cut : incoming.bytes <+:
      (sentReply json.daemon client response).toList.flatMap Text.utf8)
    {count : Nat} {line : String} (read : incoming.readLine = .ok (count, line, rest))
    (some_read : line ≠ "") (decoded : json.client.decodeMessage line = .ok other) :
    other = response := by
  obtain ⟨text, encoded, single⟩ := answers
  rw [sentReply_bytes encoded] at cut
  split at cut
  · have known : (json.client.decode (Text.trim line)).toOption = some other := by
      rw [ClientJson.decodeMessage] at decoded
      rw [decoded]
      rfl
    rcases Incoming.readLine_cut single cut with
      ⟨_, _, count', line', rest', read', decoded'⟩ | ⟨_, lost⟩
    · rw [read] at read'
      cases read'
      rw [decoded'] at known
      exact (Option.some.inj known).symm
    · rw [lost _ _ _ read] at known
      cases known
  · exact absurd (Incoming.line_of_nothing (List.prefix_nil.mp cut) read) some_read

/-- What an exchange comes to: the daemon acts on the command at most once, on no other, and the
client takes nothing else for its answer. -/
structure Exchanged (p : Passage) (command : DaemonCommand) (s : Process) : Prop where
  world : (exchange json platform p command s).1.world =
    if s.gets json p command then (carryOut platform p command s.world).1 else s.world
  stopped : (exchange json platform p command s).1.stopped =
    (s.stopped || (p.executes json command && command = .shutdown))
  answered : ∀ response, (exchange json platform p command s).2 = .ok response →
    s.gets json p command = true ∧
      response = (processCommand platform p.answers p.loaded command s.world).2
  unreached : (exchange json platform p command s).2 = .error .notRunning →
    (exchange json platform p command s).1 = s
  fair : s.stopped = false → p.Fair → s.gets json p command = true ∧
    (exchange json platform p command s).2 =
      .ok (processCommand platform p.answers p.loaded command s.world).2

variable {json platform} {p : Passage} {command : DaemonCommand} {s : Process}

omit [Externals] in
theorem Process.gets_iff : s.gets json p command = true ↔
    s.stopped = false ∧ p.executes json command = true := by
  simp [gets]

omit [Externals] in
theorem Passage.connects_of_executes (executed : p.executes json command = true) :
    p.connectError = none := by
  rw [executes, Bool.and_eq_true] at executed
  exact Option.isNone_iff_eq_none.mp executed.1

/-- The daemon, when it was reached. -/
theorem contact_executed (sends : json.Sends command) (single : command ≠ .streamLogs)
    (got : s.gets json p command = true) :
    let client := p.client (writtenBytes json.client command)
    let outcome := carryOut platform p command s.world
    contact json platform p command s =
      (⟨{ s.toServer with
          world := outcome.1
          replies := s.replies ++ (sentReply json.daemon client outcome.2).toList },
        command = .shutdown⟩,
       ⟨none, p.writeError.map (·.2),
        p.incoming ((sentReply json.daemon client outcome.2).toList.flatMap Text.utf8)⟩) := by
  intro client outcome
  obtain ⟨running, executed⟩ := Process.gets_iff.mp got
  have connects := Passage.connects_of_executes executed
  have said : client.command json.daemon = some command := by
    rw [Passage.command_eq sends connects, if_pos executed]
  have served : serve json.daemon platform p.answers (.ok client) s =
      ⟨{ s.toServer with
          world := outcome.1
          replies := s.replies ++ (sentReply json.daemon client outcome.2).toList },
        command = .shutdown⟩ := by
    rw [serve, if_neg (by simp [running]), handleConnection_said platform said single]
    by_cases last : command = .shutdown
    · subst last
      rfl
    · simp only [last, decide_false, outcome, carryOut, if_false]
      rfl
  simp only [contact, connects, Option.isNone_none, if_true]
  simp only [client] at served
  rw [served, List.drop_left]

theorem exchange_executed (sends : json.Sends command) (single : command ≠ .streamLogs)
    (got : s.gets json p command = true) :
    let client := p.client (writtenBytes json.client command)
    let outcome := carryOut platform p command s.world
    exchange json platform p command s =
      (⟨{ s.toServer with
          world := outcome.1
          replies := s.replies ++ (sentReply json.daemon client outcome.2).toList },
        command = .shutdown⟩,
       sendCommandTo json.client ⟨none, p.writeError.map (·.2),
        p.incoming ((sentReply json.daemon client outcome.2).toList.flatMap Text.utf8)⟩ command) := by
  intro client outcome
  rw [exchange, contact_executed sends single got]

/-- A daemon that has stopped, or to which one cannot connect. -/
theorem contact_gone (gone : s.stopped = true ∨ p.connectError ≠ none) :
    contact json platform p command s =
      (s, ⟨p.connectError, p.writeError.map (·.2), p.incoming []⟩) := by
  have same : (if p.connectError.isNone then serve json.daemon platform p.answers
      (.ok (p.client (writtenBytes json.client command))) s else s) = s := by
    rcases gone with stopped | refused
    · rw [serve, if_pos stopped, ite_self]
    · rw [if_neg (mt Option.isNone_iff_eq_none.mp refused)]
  simp only [contact, same, List.drop_length, List.flatMap_nil]

/-- The daemon, when the command did not get to it. -/
theorem contact_missed (sends : json.Sends command) (missed : s.gets json p command = false) :
    (contact json platform p command s).1.world = s.world ∧
      (contact json platform p command s).1.stopped = s.stopped := by
  by_cases gone : s.stopped = true ∨ p.connectError ≠ none
  · rw [contact_gone gone]
    exact ⟨rfl, rfl⟩
  · obtain ⟨running, connects⟩ := not_or.mp gone
    rw [Bool.not_eq_true] at running
    rw [not_not] at connects
    have said : (p.client (writtenBytes json.client command)).command json.daemon = none := by
      rw [Passage.command_eq sends connects, if_neg]
      rintro executed
      rw [Process.gets_iff.mpr ⟨running, executed⟩] at missed
      cases missed
    obtain ⟨t, ran, world⟩ :=
      handleConnection_run json.daemon platform (p.client (writtenBytes json.client command))
        s.toServer
    rw [said] at ran
    rw [Client.effect, said] at world
    simp only [contact, connects, Option.isNone_none, if_true]
    rw [serve, if_neg (by simp [running]), ran]
    exact ⟨world, running.symm⟩

/-- An answer is the answer to the command. -/
theorem exchange_answered (sends : json.Sends command)
    (answers : json.Answers (processCommand platform p.answers p.loaded command s.world).2)
    (single : command ≠ .streamLogs) {response : DaemonResponse}
    (answered : (exchange json platform p command s).2 = .ok response) :
    s.gets json p command = true ∧
      response = (processCommand platform p.answers p.loaded command s.world).2 := by
  have running : s.stopped = false := by
    by_contra stopped
    rw [exchange, contact_gone (.inl (by simpa using stopped))] at answered
    obtain ⟨_, _, _, _, opened, read, some_read, _⟩ := sendCommandTo_ok_iff.mp answered
    obtain ⟨_, _, _, rfl⟩ := openRequest_ok_iff.mp opened
    exact some_read (Incoming.line_of_nothing (List.prefix_nil.mp (p.incoming_cut [])) read)
  obtain ⟨incoming, count, line, rest, opened, read, some_read, decoded⟩ :=
    sendCommandTo_ok_iff.mp answered
  obtain ⟨connects, ⟨text, encoded⟩, written, reply⟩ := openRequest_ok_iff.mp opened
  have executed : p.executes json command = true :=
    Passage.executes_of_written encoded connects (Option.map_eq_none_iff.mp written)
  have got := Process.gets_iff.mpr ⟨running, executed⟩
  refine ⟨got, ?_⟩
  rw [exchange_executed sends single got] at answered
  obtain ⟨incoming, count, line, rest, opened, read, some_read, decoded⟩ :=
    sendCommandTo_ok_iff.mp answered
  obtain ⟨_, _, _, rfl⟩ := openRequest_ok_iff.mp opened
  exact reply_read answers (p.incoming_cut _) read some_read decoded

/-- When nothing goes wrong, the client gets its answer. -/
theorem exchange_fair (sends : json.Sends command)
    (answers : json.Answers (processCommand platform p.answers p.loaded command s.world).2)
    (single : command ≠ .streamLogs) (running : s.stopped = false) (fair : p.Fair) :
    s.gets json p command = true ∧ (exchange json platform p command s).2 =
      .ok (processCommand platform p.answers p.loaded command s.world).2 := by
  have ⟨text, encoded, _⟩ := sends
  have got := Process.gets_iff.mpr
    ⟨running, Passage.executes_of_written encoded fair.connects fair.writes⟩
  refine ⟨got, ?_⟩
  rw [exchange_executed sends single got]
  obtain ⟨reply, replied, line⟩ := answers
  have incoming := fair.incoming_eq replied (writtenBytes json.client command)
  rw [sendCommandTo_ok_iff]
  have arrived : (⟨Text.utf8 reply ++ [10], none⟩ : Incoming).bytes <+: Text.utf8 reply ++ [10] :=
    List.prefix_rfl
  rcases Incoming.readLine_cut line arrived with ⟨_, _, count, read, rest, got, decoded⟩ | ⟨short, _⟩
  · refine ⟨_, _, read, rest, openRequest_ok_iff.mpr ⟨rfl, ⟨text, encoded⟩, ?_, incoming⟩, got, ?_, ?_⟩
    · rw [fair.writes]
      rfl
    · exact mt (Incoming.readLine_empty_iff got).mp (Nat.succ_ne_zero count)
    · rw [ClientJson.decodeMessage]
      cases read' : json.client.decode (Text.trim read) with
      | error e => simp [read', Except.toOption] at decoded
      | ok response => simpa [read', Except.toOption] using decoded
  · exact absurd ⟨List.prefix_append _ _, .inl (by simp)⟩ short

theorem exchanged (sends : json.Sends command)
    (answers : json.Answers (processCommand platform p.answers p.loaded command s.world).2)
    (single : command ≠ .streamLogs) : Exchanged json platform p command s where
  world := by
    split
    · rename_i got
      rw [exchange_executed sends single got]
    · rename_i missed
      exact (contact_missed sends (Bool.eq_false_iff.mpr missed)).1
  stopped := by
    by_cases got : s.gets json p command = true
    · obtain ⟨running, executed⟩ := Process.gets_iff.mp got
      simp [exchange_executed sends single got, running, executed]
    · refine (contact_missed sends (Bool.eq_false_iff.mpr got)).2.trans ?_
      simp only [Process.gets_iff, not_and, Bool.not_eq_true] at got
      cases running : s.stopped with
      | true => rfl
      | false => rw [got running, Bool.false_and, Bool.or_false]
  answered _ answered := exchange_answered sends answers single answered
  unreached refused := by
    have unreached := sendCommandTo_notRunning refused
    have connects : p.connectError ≠ none := Option.isSome_iff_ne_none.mp unreached
    rw [exchange, contact_gone (.inr connects)]
  fair running fair := exchange_fair sends answers single running fair

/-- A client that waits for more than one response gets no more than the one there is. -/
theorem streamed_answered (sends : json.Sends command)
    (answers : json.Answers (processCommand platform p.answers p.loaded command s.world).2)
    (single : command ≠ .streamLogs) {taken : Nat} {responses : List DaemonResponse}
    (streamed : sendStreamingCommandTo json.client (contact json platform p command s).2 command
      taken = .ok responses) :
    ∀ response ∈ responses, s.gets json p command = true ∧
      response = (processCommand platform p.answers p.loaded command s.world).2 := by
  obtain ⟨incoming, opened, rfl⟩ : ∃ incoming,
      openRequest json.client (contact json platform p command s).2 command = .ok incoming ∧
        forwardLines (fun line => (json.client.decodeMessage line).toOption) taken incoming =
          responses := by
    rw [sendStreamingCommandTo] at streamed
    cases opened : openRequest json.client (contact json platform p command s).2 command with
    | error e => simp [opened, Except.map] at streamed
    | ok incoming => exact ⟨incoming, rfl, by simpa [opened, Except.map] using streamed⟩
  obtain ⟨connects, ⟨text, encoded⟩, written, rfl⟩ := openRequest_ok_iff.mp opened
  have executed : p.executes json command = true :=
    Passage.executes_of_written encoded connects (Option.map_eq_none_iff.mp written)
  intro response member
  rw [forwardLines_eq] at member
  have among := List.mem_of_mem_take member
  rw [Incoming.messages] at among
  have running : s.stopped = false := by
    by_contra stopped
    rw [contact_gone (.inl (by simpa using stopped))] at among
    have nothing : (p.incoming []).bytes = [] := List.prefix_nil.mp (p.incoming_cut [])
    rw [nothing, Framing.readLines] at among
    cases among
  have got := Process.gets_iff.mpr ⟨running, executed⟩
  refine ⟨got, ?_⟩
  rw [contact_executed sends single got] at among
  obtain ⟨reply, replied, line⟩ := answers
  have cut : (p.incoming ((sentReply json.daemon (p.client (writtenBytes json.client command))
      (processCommand platform p.answers p.loaded command s.world).2).toList.flatMap
        Text.utf8)).bytes <+: Framing.stream 10 (fun _ => Text.utf8 reply)
        [(processCommand platform p.answers p.loaded command s.world).2] := by
    refine (p.incoming_cut _).trans ?_
    rw [sentReply_bytes replied, Framing.stream_cons]
    split
    · exact List.prefix_append _ _
    · exact List.nil_prefix
  obtain ⟨count, _, read, _⟩ := Framing.readLines_cut
    (List.forall_mem_singleton.mpr line.carries) _ cut
  have known := read ▸ among
  exact List.mem_singleton.mp (List.mem_of_mem_take known)

theorem streamed_fair (sends : json.Sends command)
    (answers : json.Answers (processCommand platform p.answers p.loaded command s.world).2)
    (single : command ≠ .streamLogs) (running : s.stopped = false) (fair : p.Fair) {taken : Nat}
    (room : 0 < taken) :
    sendStreamingCommandTo json.client (contact json platform p command s).2 command taken =
      .ok [(processCommand platform p.answers p.loaded command s.world).2] := by
  have ⟨text, encoded, _⟩ := sends
  have got := Process.gets_iff.mpr
    ⟨running, Passage.executes_of_written encoded fair.connects fair.writes⟩
  rw [contact_executed sends single got]
  obtain ⟨reply, replied, line⟩ := answers
  have incoming : p.incoming ((sentReply json.daemon (p.client (writtenBytes json.client command))
      (carryOut platform p command s.world).2).toList.flatMap Text.utf8) = _ :=
    fair.incoming_eq replied (writtenBytes json.client command)
  have opened : openRequest json.client ⟨none, p.writeError.map (·.2),
      ⟨Text.utf8 reply ++ [10], none⟩⟩ command = .ok ⟨Text.utf8 reply ++ [10], none⟩ :=
    openRequest_ok_iff.mpr ⟨rfl, ⟨text, encoded⟩, by rw [fair.writes]; rfl, rfl⟩
  have read : Framing.readLines 10 (Text.takeText fun s => (json.client.decode s).toOption) true
      (Framing.stream 10 (fun _ => Text.utf8 reply)
        [(processCommand platform p.answers p.loaded command s.world).2]) =
      [(processCommand platform p.answers p.loaded command s.world).2] :=
    Framing.readLines_stream (List.forall_mem_singleton.mpr line.carries) true
  have nothing : Framing.stream 10 (fun _ : DaemonResponse => Text.utf8 reply) [] = [] := rfl
  rw [Framing.stream_cons, nothing, List.append_nil] at read
  rw [incoming, sendStreamingCommandTo, opened, Except.map, forwardLines_eq, Incoming.messages]
  refine congrArg Except.ok (Eq.trans (congrArg (List.take taken) read) ?_)
  exact List.take_of_length_le room

/-! ## One client after another -/

variable (json platform)

abbrev Request := Passage × DaemonCommand

/-- The requests in the order the daemon comes to them, each with what its client gets. -/
def exchanges : List Request → Process →
    Process × List (Except DaemonClientError DaemonResponse)
  | [], s => (s, [])
  | (p, command) :: rest, s =>
    let (t, result) := exchange json platform p command s
    let (last, results) := exchanges rest t
    (last, result :: results)

/-- The commands that arrive, carried out in that order, each with its response. The daemon may
have stopped before, and does at the first shutdown; nothing is done then. -/
def sequential : List Request → Bool → World → World × List (Option DaemonResponse)
  | [], _, w => (w, [])
  | (p, command) :: rest, stopped, w =>
    if !stopped && p.executes json command then
      let (w, response) := carryOut platform p command w
      let (last, responses) := sequential rest (command = .shutdown) w
      (last, some response :: responses)
    else
      let (last, responses) := sequential rest stopped w
      (last, none :: responses)

/-- The messages of a run are such that either side reads what the other means. -/
def Legible : List Request → Process → Prop
  | [], _ => True
  | (p, command) :: rest, s =>
    json.Sends command ∧ command ≠ .streamLogs ∧
      json.Answers (processCommand platform p.answers p.loaded command s.world).2 ∧
      Legible rest (exchange json platform p command s).1

/-- None of the requests stops the daemon. -/
def GoesOn (requests : List Request) : Prop :=
  ∀ request ∈ requests, request.2 = .shutdown → request.1.executes json .shutdown = false

theorem exchanges_cons (p : Passage) (command : DaemonCommand) (rest : List Request) (s : Process) :
    exchanges json platform ((p, command) :: rest) s =
      let served := exchange json platform p command s
      let later := exchanges json platform rest served.1
      (later.1, served.2 :: later.2) := rfl

theorem sequential_cons (p : Passage) (command : DaemonCommand) (rest : List Request)
    (stopped : Bool) (w : World) :
    sequential json platform ((p, command) :: rest) stopped w =
      let outcome := carryOut platform p command w
      let executed := p.executes json command
      let later := sequential json platform rest (stopped || (executed && command = .shutdown))
        (if !stopped && executed then outcome.1 else w)
      (later.1, (if !stopped && executed then some outcome.2 else none) :: later.2) := by
  rw [sequential]
  cases stopped <;> cases p.executes json command <;> rfl

/-- What the clients get, beside what was done for them. -/
structure Agrees (stopped : Bool) (requests : List Request)
    (results : List (Except DaemonClientError DaemonResponse))
    (responses : List (Option DaemonResponse)) : Prop where
  results_length : results.length = requests.length
  responses_length : responses.length = requests.length
  sound : ∀ (i : Nat) response, results[i]? = some (.ok response) →
    responses[i]? = some (some response)
  fair : stopped = false → ∀ (i : Nat) p command, requests[i]? = some (p, command) → p.Fair →
    GoesOn json (requests.take i) →
      ∃ response, responses[i]? = some (some response) ∧ results[i]? = some (.ok response)

omit [Externals] in
theorem Agrees.nil (stopped : Bool) : Agrees json stopped [] [] [] where
  results_length := rfl
  responses_length := rfl
  sound i _ there := absurd there (by simp)
  fair _ i _ _ there := absurd there (by simp)

variable {json platform}

omit [Externals] in
theorem Agrees.cons {requests : List Request}
    {results : List (Except DaemonClientError DaemonResponse)}
    {responses : List (Option DaemonResponse)} {stopped : Bool} {p : Passage}
    {command : DaemonCommand} {result : Except DaemonClientError DaemonResponse}
    {answer : Option DaemonResponse}
    (rest : Agrees json (stopped || (p.executes json command && command = .shutdown)) requests
      results responses)
    (sound : ∀ response, result = .ok response → answer = some response)
    (fair : stopped = false → p.Fair → ∃ response, answer = some response ∧ result = .ok response) :
    Agrees json stopped ((p, command) :: requests) (result :: results) (answer :: responses) where
  results_length := congrArg Nat.succ rest.results_length
  responses_length := congrArg Nat.succ rest.responses_length
  sound i response there := by
    cases i with
    | zero => exact congrArg some (sound response (Option.some.inj there))
    | succ i => exact rest.sound i response there
  fair running i q other there whole goesOn := by
    cases i with
    | zero =>
      cases there
      obtain ⟨response, answered, got⟩ := fair running whole
      exact ⟨response, congrArg some answered, congrArg some got⟩
    | succ i =>
      obtain ⟨here, later⟩ := List.forall_mem_cons.mp goesOn
      refine rest.fair ?_ i q other there whole later
      by_cases last : command = .shutdown
      · subst last
        simp [running, here rfl]
      · simp [running, last]

/-- However the connections break, the daemon is as if the commands that arrived had been given to
it one after the other, up to the one that stops it; every answer that a client gets is the one to
its own command, which was carried out; and a client that nothing happens to gets its answer, as
long as the daemon runs. -/
theorem exchanges_sequential {requests : List Request} {s : Process}
    (legible : Legible json platform requests s) :
    (exchanges json platform requests s).1.world =
        (sequential json platform requests s.stopped s.world).1 ∧
      Agrees json s.stopped requests (exchanges json platform requests s).2
        (sequential json platform requests s.stopped s.world).2 := by
  induction requests generalizing s with
  | nil => exact ⟨rfl, .nil json _⟩
  | cons request rest ih =>
    obtain ⟨p, command⟩ := request
    obtain ⟨sends, single, answers, later⟩ := legible
    have one := exchanged sends answers single
    have agreed := ih later
    rw [one.world, one.stopped] at agreed
    rw [exchanges_cons, sequential_cons]
    refine ⟨agreed.1, agreed.2.cons (fun response answered => ?_) fun running fair => ?_⟩
    · obtain ⟨got, rfl⟩ := one.answered response answered
      exact if_pos got
    · obtain ⟨got, answered⟩ := one.fair running fair
      exact ⟨_, if_pos got, answered⟩

end

namespace RpcSample

open Tunnel.TunnelSample

/-- The texts of two commands and of their responses. -/
def json : SerdeJson where
  client := {
    encode := fun
      | .status => .ok "\"Status\""
      | .shutdown => .ok "\"Shutdown\""
      | _ => .error "another command"
    decode := fun s =>
      if s = "\"Ok\"" then .ok .ok
      else if s = "\x7b\"Status\":[]\x7d" then .ok (.status [])
      else .error "EOF while parsing" }
  daemon := {
    encode := fun
      | .ok => .ok "\"Ok\""
      | .status [] => .ok "\x7b\"Status\":[]\x7d"
      | _ => .error "another response"
    decode := fun s =>
      if s = "\"Status\"" then .ok .status
      else if s = "\"Shutdown\"" then .ok .shutdown
      else .error "EOF while parsing" }

/-- Nothing happens on the way, but that the configuration does not load. -/
def whole : Passage where
  connectError := none
  writeError := none
  readError := none
  sendError := none
  breakOff := none
  answers := ⟨fun _ => upAnswers "utun4", fun _ => downAnswers, [], fun _ => ⟨0, 0, none, 0, none⟩⟩
  loaded := .error (.tomlParse "no such file")

/-- The pipe breaks after four bytes. -/
def broken : Passage := { whole with writeError := some (4, "broken pipe") }

def server : Process := ⟨⟨worldOf default, [], 0⟩, false⟩

theorem sends_status : json.Sends .status :=
  ⟨_, rfl, .of_inits (by decide) (by decide) (by decide +kernel) (by decide +kernel)
    (by decide +kernel)⟩

theorem sends_shutdown : json.Sends .shutdown :=
  ⟨_, rfl, .of_inits (by decide) (by decide) (by decide +kernel) (by decide +kernel)
    (by decide +kernel)⟩

theorem answers_ok : json.Answers .ok :=
  ⟨_, rfl, .of_inits (by decide) (by decide) (by rfl) (by rfl) (by decide +kernel)⟩

theorem answers_status : json.Answers (.status []) :=
  ⟨_, rfl, .of_inits (by decide) (by decide) (by rfl) (by rfl) (by decide +kernel)⟩

end RpcSample

open RpcSample Tunnel.TunnelSample in
/-- The command that was cut off has no effect and no answer, nor has the one that comes when the
daemon has stopped. -/
theorem exchanges_sequential_broken :
    Agrees json false [(whole, .status), (broken, .shutdown), (whole, .shutdown), (whole, .status)]
      (@exchanges externals json .macos
        [(whole, .status), (broken, .shutdown), (whole, .shutdown), (whole, .status)] server).2
      [some (.status []), none, some .ok, none] :=
  (@exchanges_sequential externals json .macos
    [(whole, .status), (broken, .shutdown), (whole, .shutdown), (whole, .status)] server
    ⟨sends_status, nofun, answers_status, sends_shutdown, nofun, answers_ok,
      sends_shutdown, nofun, answers_ok, sends_status, nofun, answers_status, trivial⟩).2

end FerroWg.Daemon
