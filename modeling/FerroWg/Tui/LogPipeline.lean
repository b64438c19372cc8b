import FerroWg.Daemon.Rpc
import FerroWg.Tui.LogEntries

/-!
# From the log of the daemon to the log that is shown

A stream of entries as bytes, cut anywhere, and what the interface makes of it.
-/

namespace FerroWg.Daemon

open Lib

/-! ## Where the entries of a stream come from -/

/-- Every entry that was added, in order. -/
def noteAdded (_ : LogStream) (step : LogStep) (log : List LogEntry) : List LogEntry :=
  match step with
  | .addEntry entry => log ++ [entry]
  | _ => log

abbrev loggedStream := instrument LogStream.step noteAdded

/-- An entry is what was added under its number. -/
def Logged (log : List LogEntry) (a : Stamped) : Prop := log[a.number]? = some a.entry

/-- All that the stream holds for anyone was added. -/
structure Genuine (s : LogStream × List LogEntry) : Prop where
  count : s.1.added = s.2.length
  buffer : ∀ a ∈ s.1.buffer.entries, Logged s.2 a
  drained : ∀ a ∈ s.1.drained, Logged s.2 a
  queue : ∀ id, ∀ a ∈ (s.1.clients id).queue, Logged s.2 a
  due : ∀ id, ∀ a ∈ (s.1.clients id).due, Logged s.2 a

theorem Logged.append {log : List LogEntry} {a : Stamped} (logged : Logged log a)
    (entry : LogEntry) : Logged (log ++ [entry]) a := by
  have inside := (List.getElem?_eq_some_iff.mp logged).1
  rwa [Logged, List.getElem?_append_left inside]

theorem LogClient.stepped_genuine {shown : List Stamped} {c next : LogClient} {step : ClientStep}
    {p : Stamped → Prop} (stepped : LogClient.Stepped shown c step next)
    (shownGood : ∀ a ∈ shown, p a) (queue : ∀ a ∈ c.queue, p a) (due : ∀ a ∈ c.due, p a) :
    (∀ a ∈ next.queue, p a) ∧ ∀ a ∈ next.due, p a := by
  rw [LogClient.due] at due ⊢
  cases stepped with
  | subscribe stage =>
    simp only [stage] at due
    exact ⟨queue, due⟩
  | getBuffer stage =>
    simp only [stage, List.append_nil] at due
    exact ⟨queue, List.forall_mem_append.mpr ⟨due, shownGood⟩⟩
  | replay stage =>
    simp only [stage] at due
    exact ⟨queue, by simpa using due⟩
  | recv stage front =>
    simp only [stage, List.append_nil] at due
    rw [front, List.forall_mem_cons] at queue
    refine ⟨queue.2, ?_⟩
    simp only [stage, List.append_nil]
    exact List.forall_mem_append.mpr ⟨due, List.forall_mem_singleton.mpr queue.1⟩

theorem LogClient.deliver_genuine {p : Stamped → Prop} {entry : Stamped} (good : p entry)
    {c : LogClient} (queue : ∀ a ∈ c.queue, p a) : ∀ a ∈ (c.deliver entry).queue, p a := by
  rcases c.deliver_queue entry with same | longer
  · rwa [same]
  · rw [longer]
    exact List.forall_mem_append.mpr ⟨queue, List.forall_mem_singleton.mpr good⟩

theorem genuine_new (capacity : Nat) : Genuine (.new capacity, []) := by
  constructor <;> simp [LogStream.new, LogBuffer.new, LogClient.due]

theorem genuine_step (s : LogStream × List LogEntry) (step : LogStep)
    (next : LogStream × List LogEntry) (genuine : Genuine s)
    (taken : loggedStream s step = some next) : Genuine next := by
  obtain ⟨w, log⟩ := s
  obtain ⟨t, log'⟩ := next
  obtain ⟨stepped, noted⟩ := instrument_some.mp taken
  simp only at stepped noted
  obtain ⟨count, buffer, drained, queue, due⟩ := genuine
  simp only at count buffer drained queue due
  cases step with
  | addEntry entry =>
    cases stepped
    subst noted
    have grown (a : Stamped) : Logged log a → Logged (log ++ [entry]) a := fun old => old.append entry
    have added : Logged (log ++ [entry]) ⟨w.added, entry⟩ := by simp [Logged, count]
    refine ⟨by simp [count, noteAdded], fun a member => ?_, fun a member => grown a (drained a member),
      fun id a member => grown a (queue id a member), fun id a member => grown a (due id a member)⟩
    rcases List.mem_append.mp ((LogBuffer.addEntry_sublist _ _).subset member) with old | new
    · exact grown a (buffer a old)
    · rw [List.mem_singleton.mp new]
      exact added
  | poison =>
    cases stepped
    obtain rfl : log' = log := noted
    exact ⟨count, buffer, drained, queue, due⟩
  | drainLogs =>
    simp only [LogStream.step] at stepped
    split at stepped <;> cases stepped
    have moved : ∀ a ∈ w.buffer.drainLogs.1 ++ w.buffer.drainLogs.2.entries, Logged log a := by
      rwa [LogBuffer.drainLogs_append]
    obtain ⟨out, left⟩ := List.forall_mem_append.mp moved
    obtain rfl : log' = log := noted
    exact ⟨count, left, out, queue, due⟩
  | send =>
    simp only [LogStream.step] at stepped
    split at stepped <;> cases stepped
    rename_i entry rest all
    obtain rfl : log' = log := noted
    rw [all, List.forall_mem_cons] at drained
    refine ⟨count, buffer, drained.2, fun id => ?_, fun id => ?_⟩
    · exact LogClient.deliver_genuine drained.1 (queue id)
    · simpa only [LogClient.deliver_due] using due id
  | client other step =>
    obtain ⟨c, acted, rfl⟩ := Option.map_eq_some_iff.mp stepped
    have shown : ∀ a ∈ w.buffer.getBuffer, Logged log a := fun a member =>
      buffer a (w.buffer.getBuffer_sublist.subset member)
    obtain ⟨queue', due'⟩ :=
      LogClient.stepped_genuine (LogClient.stepped acted) shown (queue other) (due other)
    obtain rfl : log' = log := noted
    refine ⟨count, buffer, drained, fun id => ?_, fun id => ?_⟩
    · rcases eq_or_ne id other with rfl | apart
      · simpa only [Function.update_self] using queue'
      · simpa only [Function.update_of_ne apart] using queue id
    · rcases eq_or_ne id other with rfl | apart
      · simpa only [Function.update_self] using due'
      · simpa only [Function.update_of_ne apart] using due id

/-! ## The stream as bytes -/

/-- What `handle_stream_logs` writes: it ends with an entry that cannot be encoded. -/
def streamBytes (json : IpcJson) : List LogEntry → List UInt8
  | [] => []
  | entry :: rest =>
    match json.encodeMessage (.logEntry entry) with
    | .error _ => []
    | .ok text => Text.utf8 text ++ streamBytes json rest

/-- The bytes of an entry, without the line feed. -/
def entryBytes (json : IpcJson) (entry : LogEntry) : List UInt8 :=
  Text.utf8 ((json.encode (.logEntry entry)).toOption.getD "")

variable {json : SerdeJson}

theorem streamBytes_eq {sent : List LogEntry}
    (answers : ∀ entry ∈ sent, json.Answers (.logEntry entry)) :
    streamBytes json.daemon sent = Framing.stream 10 (entryBytes json.daemon) sent := by
  induction sent with
  | nil => rfl
  | cons entry rest ih =>
    rw [List.forall_mem_cons] at answers
    obtain ⟨⟨text, encoded, _⟩, later⟩ := answers
    rw [streamBytes, IpcJson.encodeMessage, encoded, Framing.stream_cons, ← ih later, entryBytes,
      encoded]
    simp [Except.map, Except.toOption, Text.utf8_newline]

/-- The reader of entries knows an entry from its line. -/
theorem entry_carries {entry : LogEntry} (answers : json.Answers (.logEntry entry)) :
    Framing.Carries 10 (fun line => (Text.fromUtf8 line).map json.client.readEntry)
      (entryBytes json.daemon entry) entry := by
  obtain ⟨text, encoded, line⟩ := answers
  have bytes : entryBytes json.daemon entry = Text.utf8 text := by
    rw [entryBytes, encoded]
    rfl
  have reader : (fun line => (Text.fromUtf8 line).map json.client.readEntry) = fun line =>
      (Text.takeText (fun s => (json.client.decode s).toOption) line).map
        (·.bind DaemonResponse.asEntry) := by
    funext line
    rw [Text.takeText, Option.map_map]
    rfl
  rw [bytes, reader]
  exact line.carries.keep rfl

/-- Of a stream that was cut a client gets the first few entries, all that arrived whole among
them. -/
theorem streamLogsFrom_cut {sent entries : List LogEntry}
    (answers : ∀ entry ∈ sent, json.Answers (.logEntry entry)) {socket : Socket} {taken : Nat}
    (cut : socket.incoming.bytes <+: streamBytes json.daemon sent)
    (streamed : streamLogsFrom json.client socket taken = .ok entries) :
    ∃ count ≤ sent.length, entries = sent.take count ∧
      ∀ whole ≤ sent.length, whole ≤ taken →
        streamBytes json.daemon (sent.take whole) <+: socket.incoming.bytes → whole ≤ count := by
  have carried := fun entry member => entry_carries (answers entry member)
  rw [streamLogsFrom] at streamed
  cases opened : openRequest json.client socket .streamLogs with
  | error e =>
    rw [opened] at streamed
    cases streamed
  | ok incoming =>
    obtain ⟨_, _, _, rfl⟩ := openRequest_ok_iff.mp opened
    rw [streamBytes_eq answers] at cut
    obtain ⟨count, bound, read, all⟩ :=
      Framing.readLines_cut carried socket.incoming.readError.isNone cut
    refine ⟨min taken count, (Nat.min_le_right _ _).trans bound, ?_, fun whole fits room there => ?_⟩
    · rw [opened] at streamed
      have forwarded := Except.ok.inj streamed
      rw [← forwarded, forwardLines_eq, Incoming.messages, read, List.take_take]
    · refine Nat.le_min.mpr ⟨room, all whole fits ?_⟩
      rwa [streamBytes_eq fun entry member => answers entry (List.mem_of_mem_take member)] at there

end FerroWg.Daemon

namespace FerroWg.Tui

open Lib Daemon

/-- The entry that the log task received, if it is one. -/
def LogWrite.received? : LogWrite → Option LogEntry
  | .recv entry => some entry
  | .appendLog _ => none

/-- What is on show when all of `writes` were made: the newest of them, the received ones being
what the daemon logged under their numbers. -/
structure ShowsLog (log : List LogEntry) (sent : List Stamped) (writes : List LogWrite)
    (shown : List LogEntry) : Prop where
  newest : shown = (writes.map LogWrite.entry).rtake logCapacity
  received : ∃ first, first <+: sent ∧ (∀ a ∈ first, log[a.number]? = some a.entry) ∧
    writes.filterMap LogWrite.received? = first.map (·.entry)

/-- No line is shown that nobody logged. -/
theorem ShowsLog.origin {log : List LogEntry} {sent : List Stamped} {writes : List LogWrite}
    {shown : List LogEntry} (shows : ShowsLog log sent writes shown) {entry : LogEntry}
    (member : entry ∈ shown) : .appendLog entry ∈ writes ∨ entry ∈ log := by
  rw [shows.newest] at member
  obtain ⟨write, made, rfl⟩ := List.mem_map.mp ((Newest.rtake_suffix _ _).subset member)
  cases write with
  | appendLog entry => exact .inl made
  | recv entry =>
    obtain ⟨first, _, logged, same⟩ := shows.received
    have there : entry ∈ writes.filterMap LogWrite.received? := List.mem_filterMap.mpr ⟨_, made, rfl⟩
    rw [same] at there
    obtain ⟨a, inside, rfl⟩ := List.mem_map.mp there
    exact .inr (List.mem_of_getElem? (logged a inside))

/-- Whatever the log of the daemon and its clients do, wherever the connection breaks, and whatever
the interface logs itself in between: its log is the newest of what it took, the entries it took
from the stream are the first that the daemon sent it, and each is what the daemon logged under
its number; so no line is on show that neither of them logged. -/
theorem log_shown_genuine {capacity id : Nat} {steps : List LogStep}
    {final : LogStream × List LogEntry} {json : SerdeJson} {socket : Socket} {taken : Nat}
    {entries : List LogEntry} {writes : List LogWrite}
    (reached : run loggedStream steps (.new capacity, []) = some final)
    (answers : ∀ a ∈ (final.1.clients id).sent, json.Answers (.logEntry a.entry))
    (cut : socket.incoming.bytes <+:
      streamBytes json.daemon ((final.1.clients id).sent.map (·.entry)))
    (streamed : streamLogsFrom json.client socket taken = .ok entries)
    (received : writes.filterMap LogWrite.received? = entries) :
    let shown := (writes.foldl LogWrite.perform (.new logCapacity)).getBuffer
    ShowsLog final.2 (final.1.clients id).sent writes shown ∧
      ∀ entry ∈ shown, .appendLog entry ∈ writes ∨ entry ∈ final.2 := by
  intro shown
  have genuine : Genuine final := run_invariant genuine_step (genuine_new capacity) reached
  have legible : ∀ entry ∈ (final.1.clients id).sent.map (·.entry),
      json.Answers (.logEntry entry) := by
    rw [List.forall_mem_map]
    exact answers
  obtain ⟨count, _, read, _⟩ := streamLogsFrom_cut legible cut streamed
  have shows : ShowsLog final.2 (final.1.clients id).sent writes shown := by
    refine ⟨?_, (final.1.clients id).sent.take count, List.take_prefix _ _, fun a member => ?_, ?_⟩
    · have held := LogWrite.performs_rtake (by decide : 0 < logCapacity) writes []
      rw [← LogBuffer.new_rtake, List.nil_append] at held
      simp only [shown, held, LogBuffer.getBuffer, Bool.false_eq_true, if_false]
    · exact genuine.due id a (List.mem_append_left _ (List.mem_of_mem_take member))
    · rw [received, read, List.map_take]
  exact ⟨shows, fun entry member => shows.origin member⟩

namespace PipelineSample

def entry : LogEntry := ⟨0, .info, none, "daemon: up"⟩

def line : String :=
  "\x7b\"LogEntry\":\x7b\"timestamp_ms\":0,\"level\":\"Info\",\"connection_name\":null," ++
    "\"message\":\"daemon: up\"\x7d\x7d"

/-- One entry, and the request for a stream. -/
def json : SerdeJson where
  client := {
    encode := fun command => if command = .streamLogs then .ok "\"StreamLogs\"" else .error "another"
    decode := fun s => if s = line then .ok (.logEntry entry) else .error "EOF while parsing" }
  daemon := {
    encode := fun
      | .logEntry other => if other = entry then .ok line else .error "another"
      | _ => .error "another"
    decode := fun s => if s = "\"StreamLogs\"" then .ok .streamLogs else .error "EOF while parsing" }

theorem answers_entry : json.Answers (.logEntry entry) :=
  ⟨line, by simp [json], .of_only (by decide +kernel) (by decide +kernel) (by decide +kernel)
    (by simp [json, Except.toOption]) fun _ other => by simp [json, other, Except.toOption]⟩

/-- All of the entry arrives, but the line feed. -/
def socket : Socket := ⟨none, none, ⟨entryBytes json.daemon entry, none⟩⟩

theorem socket_cut : socket.incoming.bytes <+: streamBytes json.daemon [entry] := by
  rw [streamBytes_eq (List.forall_mem_singleton.mpr answers_entry), Framing.stream_cons,
    List.append_assoc]
  exact List.prefix_append _ _

theorem socket_streamed : streamLogsFrom json.client socket 100 = .ok [entry] := by
  have carries := entry_carries answers_entry
  have opened : openRequest json.client socket .streamLogs = .ok socket.incoming := by
    simp [openRequest, socket, ClientJson.encodeMessage, json, Except.map]
  have arrived : entryBytes json.daemon entry ≠ [] := by
    obtain ⟨text, encoded, line⟩ := answers_entry
    rw [entryBytes, encoded]
    exact mt Text.utf8_eq_nil.mp line.nonempty
  have read := Framing.readLines_open (fun line => (Text.fromUtf8 line).map json.client.readEntry) true
    carries.free arrived
  rw [carries.whole] at read
  rw [streamLogsFrom, opened, Except.map, forwardLines_eq]
  exact congrArg (fun entries => Except.ok (entries.take 100)) read

/-- The interface logs a line of its own before the entry comes. -/
def writes : List LogWrite := [.appendLog ⟨1, .warn, none, "tui: no daemon"⟩, .recv entry]

end PipelineSample

open PipelineSample in
/-- An entry that wants only its line feed is on show. -/
theorem log_shown_genuine_one :
    ∃ sent, ShowsLog [entry] sent writes
      (writes.foldl LogWrite.perform (.new logCapacity)).getBuffer :=
  ⟨_, (@log_shown_genuine 1000 0
    [.addEntry entry, .client 0 .subscribe, .client 0 .getBuffer, .client 0 .replay] _ json socket 100
    [entry] writes rfl (List.forall_mem_singleton.mpr answers_entry) socket_cut socket_streamed
    rfl).1⟩

end FerroWg.Tui
