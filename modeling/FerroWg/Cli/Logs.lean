import FerroWg.Tui.LogFilter
import FerroWg.Tui.LogPipeline

/-!
# The log on the command line

`cmd_logs`: what the daemon streams, filtered and printed, until a timeout or an interrupt.
-/

namespace FerroWg

def LogLevel.badge : LogLevel → String
  | .trace => "TRACE"
  | .debug => "DEBUG"
  | .info => "INFO"
  | .warn => "WARN"
  | .error => "ERROR"

namespace Cli

open Lib Daemon Tui

/-- The arguments of `ferro-wg logs`. -/
structure LogsArgs where
  level : LogLevel
  connection : Option String
  search : String
  lines : Option Nat
  watch : Bool

def LogsArgs.default : LogsArgs := ⟨.debug, none, "", some 50, false⟩

def LogsArgs.connectionFilter (args : LogsArgs) : ConnectionFilter :=
  args.connection.elim .all fun _ => .active

def LogsArgs.passes (args : LogsArgs) (searchLower : String) (e : LogEntry) : Bool :=
  LogFilter.entryPassesFilter e args.level args.connectionFilter args.connection &&
    lineMatchesSearch e.message searchLower

/-- The clock on the wall at a timestamp is for the time zone to say. -/
def formatEntry (clock : Int64 → String) (entry : LogEntry) : String :=
  let conn := entry.connectionName.getD "(global)"
  s!"[{clock entry.timestampMs}] [{entry.level.badge}] ({conn}) {entry.message}"

/-- What was received before the timeout, filtered at once. -/
def collectFilteredLogs (args : LogsArgs) (received : List LogEntry) : List LogEntry :=
  let searchLower := Text.toAsciiLowercase args.search
  let filtered := received.filter (args.passes searchLower)
  match args.lines with
  | some n => (filtered.reverse.take n).reverse
  | none => filtered

/-- What is received is filtered one by one. -/
def watchLogs (clock : Int64 → String) (args : LogsArgs) (searchLower : String) :
    List LogEntry → List String
  | [] => []
  | e :: rest =>
    if args.passes searchLower e then formatEntry clock e :: watchLogs clock args searchLower rest
    else watchLogs clock args searchLower rest

/-- The lines that are printed when so many entries are `taken` before the timeout, or before the
interrupt. -/
def cmdLogs (json : ClientJson) (clock : Int64 → String) (args : LogsArgs) (socket : Socket)
    (taken : Nat) : Except DaemonClientError (List String) :=
  (streamLogsFrom json socket taken).map fun received =>
    if args.watch then watchLogs clock args (Text.toAsciiLowercase args.search) received
    else (collectFilteredLogs args received).map (formatEntry clock)

variable {clock : Int64 → String} {args : LogsArgs}

theorem watchLogs_eq (searchLower : String) (received : List LogEntry) :
    watchLogs clock args searchLower received =
      (received.filter (args.passes searchLower)).map (formatEntry clock) := by
  induction received with
  | nil => rfl
  | cons e rest ih =>
    rw [watchLogs, List.filter_cons]
    split
    · rw [List.map_cons, ih]
    · exact ih

/-- The filter of the command line is that of the interface. -/
theorem filter_passes (received : List LogEntry) :
    received.filter (args.passes (Text.toAsciiLowercase args.search)) =
      LogFilter.filteredLines received (Text.toAsciiLowercase args.search) args.level
        args.connectionFilter args.connection := by
  rw [LogFilter.filteredLines_eq_filter]
  rfl

/-- The entries that are printed: the last few that pass, or all when the log is watched. -/
def LogsArgs.selects (args : LogsArgs) (received : List LogEntry) : List LogEntry :=
  let filtered := LogFilter.filteredLines received (Text.toAsciiLowercase args.search) args.level
    args.connectionFilter args.connection
  if args.watch then filtered else args.lines.elim filtered filtered.rtake

theorem collectFilteredLogs_eq (single : args.watch = false) (received : List LogEntry) :
    collectFilteredLogs args received = args.selects received := by
  simp only [collectFilteredLogs, LogsArgs.selects, single, filter_passes]
  cases args.lines with
  | none => rfl
  | some n => exact (List.rtake_eq_reverse_take_reverse _ n).symm

theorem cmdLogs_eq (json : ClientJson) (socket : Socket) (taken : Nat) :
    cmdLogs json clock args socket taken = (streamLogsFrom json socket taken).map
      fun received => (args.selects received).map (formatEntry clock) := by
  rw [cmdLogs]
  congr 1
  funext received
  cases watched : args.watch with
  | true => simp only [if_true, watchLogs_eq, filter_passes, LogsArgs.selects, watched]
  | false => simp only [Bool.false_eq_true, if_false, collectFilteredLogs_eq watched]

/-- What is selected passes, and is in the order in which it came. -/
theorem LogsArgs.selects_sublist (args : LogsArgs) (received : List LogEntry) :
    (args.selects received).Sublist
      (received.filter (args.passes (Text.toAsciiLowercase args.search))) := by
  rw [filter_passes, selects]
  split
  · exact List.Sublist.refl _
  · cases args.lines with
    | none => exact List.Sublist.refl _
    | some n => exact (Newest.rtake_suffix _ _).sublist

/-- What is printed of the log of the daemon: the first few entries that it sent, selected. -/
structure Prints (clock : Int64 → String) (args : LogsArgs) (log : List LogEntry)
    (sent received : List Stamped) (printed : List String) : Prop where
  first : received <+: sent
  logged : ∀ a ∈ received, Logged log a
  lines : printed = (args.selects (received.map (·.entry))).map (formatEntry clock)

/-- Every line is that of an entry that the daemon logged and the filters pass. -/
theorem Prints.origin {log : List LogEntry} {sent received : List Stamped} {printed : List String}
    (prints : Prints clock args log sent received printed) {line : String}
    (member : line ∈ printed) :
    ∃ entry ∈ log, args.passes (Text.toAsciiLowercase args.search) entry = true ∧
      formatEntry clock entry = line := by
  rw [prints.lines] at member
  obtain ⟨entry, selected, written⟩ := List.mem_map.mp member
  have ⟨among, passes⟩ := List.mem_filter.mp ((args.selects_sublist _).subset selected)
  obtain ⟨a, inside, rfl⟩ := List.mem_map.mp among
  exact ⟨a.entry, List.mem_of_getElem? (prints.logged a inside), passes, written⟩

/-- Whatever the log of the daemon and its clients do, and wherever the connection breaks: what the
command line prints is its selection of the first entries that the daemon sent, none left out that
came whole and in time, and each is what the daemon logged under its number. -/
theorem cli_logs_genuine {capacity id : Nat} {steps : List LogStep}
    {final : LogStream × List LogEntry} {json : SerdeJson} {socket : Socket} {taken : Nat}
    {printed : List String}
    (reached : run loggedStream steps (.new capacity, []) = some final)
    (answers : ∀ a ∈ (final.1.clients id).sent, json.Answers (.logEntry a.entry))
    (cut : socket.incoming.bytes <+:
      streamBytes json.daemon ((final.1.clients id).sent.map (·.entry)))
    (logs : cmdLogs json.client clock args socket taken = .ok printed) :
    let sent := (final.1.clients id).sent
    ∃ received, Prints clock args final.2 sent received printed ∧
      (∀ whole ≤ sent.length, whole ≤ taken →
        streamBytes json.daemon ((sent.take whole).map (·.entry)) <+: socket.incoming.bytes →
          whole ≤ received.length) ∧
      ∀ line ∈ printed, ∃ entry ∈ final.2,
        args.passes (Text.toAsciiLowercase args.search) entry = true ∧
          formatEntry clock entry = line := by
  intro sent
  have genuine : Genuine final := run_invariant genuine_step (genuine_new capacity) reached
  have legible : ∀ entry ∈ sent.map (·.entry), json.Answers (.logEntry entry) := by
    rw [List.forall_mem_map]
    exact answers
  rw [cmdLogs_eq] at logs
  cases streamed : streamLogsFrom json.client socket taken with
  | error e =>
    rw [streamed] at logs
    cases logs
  | ok entries =>
    rw [streamed] at logs
    cases logs
    obtain ⟨count, bound, read, all⟩ := streamLogsFrom_cut legible cut streamed
    rw [List.length_map] at bound all
    have prints : Prints clock args final.2 sent (sent.take count)
        ((args.selects entries).map (formatEntry clock)) := by
      refine ⟨List.take_prefix _ _, fun a member => ?_, ?_⟩
      · exact genuine.due id a (List.mem_append_left _ (List.mem_of_mem_take member))
      · rw [read, List.map_take]
    refine ⟨sent.take count, prints, fun whole fits room there => ?_, fun line => prints.origin⟩
    rw [List.length_take_of_le bound]
    rw [List.map_take] at there
    exact all whole fits room there

open PipelineSample in
/-- The entry of the daemon is printed, in double brackets where it is of no connection. -/
theorem cli_logs_genuine_one :
    ∃ sent received, Prints (fun _ => "00:00:00") .default [entry] sent received
      ["[00:00:00] [INFO] ((global)) daemon: up"] := by
  have logs : cmdLogs json.client (fun _ => "00:00:00") .default socket 100 =
      .ok ["[00:00:00] [INFO] ((global)) daemon: up"] := by
    rw [cmdLogs_eq, socket_streamed]
    rfl
  obtain ⟨received, prints, _⟩ := @cli_logs_genuine (fun _ => "00:00:00") .default 1000 0
    [.addEntry entry, .client 0 .subscribe, .client 0 .getBuffer, .client 0 .replay] _ json socket
    100 _ rfl (List.forall_mem_singleton.mpr answers_entry) socket_cut logs
  exact ⟨_, received, prints⟩

end Cli

end FerroWg
