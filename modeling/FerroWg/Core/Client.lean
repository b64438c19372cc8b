import FerroWg.Core.Ipc
import FerroWg.Lib.TextStream

/-!
# The client of the daemon

`client.rs`: a fresh connection for each command. One line is sent; one line, or all that come, are
read back.
-/

namespace FerroWg

open Lib

/-- `serde_json` at the two message types. -/
structure ClientJson where
  encode : DaemonCommand → Except String String
  decode : String → Except String DaemonResponse

def ClientJson.encodeMessage (json : ClientJson) (command : DaemonCommand) : Except String String :=
  (json.encode command).map (· ++ "\n")

def ClientJson.decodeMessage (json : ClientJson) (line : String) : Except String DaemonResponse :=
  json.decode (Text.trim line)

inductive ConnectError where
  | notFound
  | connectionRefused
  | other (message : String)
  deriving DecidableEq, Repr

/-- What comes over a socket: bytes, until the other side closes it or reading fails. -/
structure Incoming where
  bytes : List UInt8
  readError : Option String
  deriving DecidableEq, Repr

/-- What a socket does for a client. -/
structure Socket where
  connectError : Option ConnectError
  writeError : Option String
  incoming : Incoming
  deriving DecidableEq, Repr

/-- `read_line`: the bytes through the first line feed, or all there are, with their number and with
what is left. -/
def Incoming.readLine (incoming : Incoming) : Except String (Nat × String × Incoming) :=
  let line := Framing.firstLine 10 incoming.bytes
  match if 10 ∈ line then none else incoming.readError with
  | some e => .error e
  | none => match Text.fromUtf8 line with
    | none => .error "stream did not contain valid UTF-8"
    | some text =>
      .ok (line.length, text, { incoming with bytes := Framing.afterLine 10 incoming.bytes })

/-- How the three requests begin: connect, send the command, and close the side for writing. -/
def openRequest (json : ClientJson) (socket : Socket) (command : DaemonCommand) :
    Except DaemonClientError Incoming :=
  match socket.connectError with
  | some .notFound | some .connectionRefused => .error .notRunning
  | some (.other e) => .error (.io e)
  | none => match json.encodeMessage command with
    | .error e => .error (.encode e)
    | .ok _ => match socket.writeError with
      | some e => .error (.io e)
      | none => .ok socket.incoming

def sendCommandTo (json : ClientJson) (socket : Socket) (command : DaemonCommand) :
    Except DaemonClientError DaemonResponse :=
  match openRequest json socket command with
  | .error e => .error e
  | .ok incoming => match incoming.readLine with
    | .error e => .error (.io e)
    | .ok (_, line, _) =>
      if line = "" then .error .noResponse
      else (json.decodeMessage line).mapError .decode

theorem Incoming.readLine_ok_iff {incoming rest : Incoming} {count : Nat} {line : String} :
    incoming.readLine = .ok (count, line, rest) ↔
      (10 ∈ Framing.firstLine 10 incoming.bytes ∨ incoming.readError.isNone) ∧
        Text.fromUtf8 (Framing.firstLine 10 incoming.bytes) = some line ∧
        (Framing.firstLine 10 incoming.bytes).length = count ∧
        { incoming with bytes := Framing.afterLine 10 incoming.bytes } = rest := by
  rw [readLine]
  split
  · rename_i failed
    rw [ite_eq_iff] at failed
    simp_all
  · rename_i readable
    rw [ite_eq_iff] at readable
    have ready : 10 ∈ Framing.firstLine 10 incoming.bytes ∨ incoming.readError.isNone := by
      rw [Option.isNone_iff_eq_none]
      exact readable.imp And.left And.right
    cases read : Text.fromUtf8 (Framing.firstLine 10 incoming.bytes) with
    | none => simp
    | some text =>
      simp only [Except.ok.injEq, Prod.mk.injEq, Option.some.injEq]
      exact ⟨fun ⟨count, same, rest⟩ => ⟨ready, same, count, rest⟩,
        fun ⟨_, same, count, rest⟩ => ⟨count, same, rest⟩⟩

theorem Incoming.readLine_shorter {incoming rest : Incoming} {count : Nat} {line : String}
    (read : incoming.readLine = .ok (count + 1, line, rest)) :
    rest.bytes.length < incoming.bytes.length := by
  obtain ⟨_, _, counted, rfl⟩ := readLine_ok_iff.mp read
  apply Framing.afterLine_shorter
  intro nothing
  rw [nothing] at counted
  cases counted

/-- The task behind a stream. It ends with the lines, at a line that cannot be read, or when the
receiver is gone, who takes so many messages before that. -/
def forwardLines {α : Type} (keep : String → Option α) (taken : Nat) (incoming : Incoming) :
    List α :=
  match _ : incoming.readLine with
  | .error _ => []
  | .ok (0, _, _) => []
  | .ok (_ + 1, line, rest) =>
    match keep line, taken with
    | none, taken => forwardLines keep taken rest
    | some _, 0 => []
    | some message, taken + 1 => message :: forwardLines keep taken rest
termination_by incoming.bytes.length
decreasing_by all_goals exact Incoming.readLine_shorter ‹_›

def DaemonResponse.asEntry : DaemonResponse → Option LogEntry
  | .logEntry entry => some entry
  | _ => none

/-- Other responses than entries are passed over. -/
def ClientJson.readEntry (json : ClientJson) (line : String) : Option LogEntry :=
  (json.decodeMessage line).toOption.bind (·.asEntry)

def streamLogsFrom (json : ClientJson) (socket : Socket) (taken : Nat) :
    Except DaemonClientError (List LogEntry) :=
  (openRequest json socket .streamLogs).map
    (forwardLines json.readEntry taken)

def sendStreamingCommandTo (json : ClientJson) (socket : Socket) (command : DaemonCommand)
    (taken : Nat) : Except DaemonClientError (List DaemonResponse) :=
  (openRequest json socket command).map
    (forwardLines (fun line => (json.decodeMessage line).toOption) taken)

theorem Incoming.readLine_empty_iff {incoming rest : Incoming} {count : Nat} {line : String}
    (read : incoming.readLine = .ok (count, line, rest)) : line = "" ↔ count = 0 := by
  obtain ⟨_, text, counted, _⟩ := readLine_ok_iff.mp read
  rw [← counted, ← Text.fromUtf8_eq_some.mp text, List.length_eq_zero_iff, Text.utf8_eq_nil]

theorem Incoming.line_of_nothing {incoming rest : Incoming} {count : Nat} {line : String}
    (nothing : incoming.bytes = []) (read : incoming.readLine = .ok (count, line, rest)) :
    line = "" := by
  rw [readLine_empty_iff read, ← (readLine_ok_iff.mp read).2.2.1, nothing]
  rfl

/-- A line that arrives in part is read as the message, or not as one. -/
theorem Incoming.readLine_cut {α : Type} {decode : String → Option α} {text : String} {message : α}
    (line : Text.OnLine decode text message) {incoming : Incoming}
    (cut : incoming.bytes <+: Text.utf8 text ++ [10]) :
    (Text.utf8 text <+: incoming.bytes ∧ (10 ∈ incoming.bytes ∨ incoming.readError.isNone) ∧
      ∃ count read rest, incoming.readLine = .ok (count + 1, read, rest) ∧
        decode (Text.trim read) = some message) ∨
    (¬ (Text.utf8 text <+: incoming.bytes ∧ (10 ∈ incoming.bytes ∨ incoming.readError.isNone)) ∧
      ∀ count read rest, incoming.readLine = .ok (count, read, rest) →
        decode (Text.trim read) = none) := by
  have carries := line.carries
  have single : Framing.firstLine 10 incoming.bytes = incoming.bytes := by
    rcases List.prefix_concat_iff.mp cut with whole | inside
    · rw [whole, Framing.firstLine_ended carries.free]
    · exact Framing.firstLine_open fun member => carries.free (inside.subset member)
  have taken {count : Nat} {read : String} {rest : Incoming}
      (got : incoming.readLine = .ok (count, read, rest)) :
      (10 ∈ incoming.bytes ∨ incoming.readError.isNone) ∧
        Text.takeText decode incoming.bytes = some (decode (Text.trim read)) := by
    obtain ⟨ready, text, _, _⟩ := readLine_ok_iff.mp got
    rw [single] at ready text
    exact ⟨ready, by rw [Text.takeText, text, Option.map_some]⟩
  rcases carries.take_cut cut with ⟨all, known⟩ | ⟨short, lost⟩
  · by_cases ready : 10 ∈ incoming.bytes ∨ incoming.readError.isNone
    · refine .inl ⟨all, ready, ?_⟩
      obtain ⟨read, text, decoded⟩ := Option.map_eq_some_iff.mp known
      have some_read : incoming.bytes.length ≠ 0 := by
        intro nothing
        rw [List.length_eq_zero_iff.mp nothing, List.prefix_nil] at all
        exact line.nonempty (Text.utf8_eq_nil.mp all)
      obtain ⟨count, counted⟩ := Nat.exists_eq_succ_of_ne_zero some_read
      exact ⟨count, read, _, readLine_ok_iff.mpr ⟨by rwa [single], by rwa [single],
        by rwa [single], rfl⟩, decoded⟩
    · exact .inr ⟨fun both => ready both.2, fun count read rest got => absurd (taken got).1 ready⟩
  · refine .inr ⟨fun both => short both.1, fun count read rest got => ?_⟩
    rw [(taken got).2] at lost
    exact lost

theorem openRequest_ok_iff {json : ClientJson} {socket : Socket} {command : DaemonCommand}
    {incoming : Incoming} :
    openRequest json socket command = .ok incoming ↔
      socket.connectError = none ∧ (∃ text, json.encode command = .ok text) ∧
        socket.writeError = none ∧ socket.incoming = incoming := by
  rw [openRequest, ClientJson.encodeMessage]
  rcases socket with ⟨_ | connectError, writeError, answer⟩
  · cases json.encode command with
    | error e => simp [Except.map]
    | ok text => cases writeError <;> simp [Except.map]
  · cases connectError <;> simp

theorem openRequest_notRunning {json : ClientJson} {socket : Socket} {command : DaemonCommand}
    (refused : openRequest json socket command = .error .notRunning) :
    socket.connectError.isSome := by
  cases reached : socket.connectError with
  | some e => rfl
  | none =>
    simp only [openRequest, reached] at refused
    split at refused
    · cases refused
    · split at refused <;> cases refused

theorem sendCommandTo_ok_iff {json : ClientJson} {socket : Socket} {command : DaemonCommand}
    {response : DaemonResponse} :
    sendCommandTo json socket command = .ok response ↔
      ∃ incoming count line rest, openRequest json socket command = .ok incoming ∧
        incoming.readLine = .ok (count, line, rest) ∧ line ≠ "" ∧
        json.decodeMessage line = .ok response := by
  rw [sendCommandTo]
  cases openRequest json socket command with
  | error e => simp
  | ok incoming =>
    rcases got : incoming.readLine with e | ⟨count, line, rest⟩
    · simp [got]
    · by_cases empty : line = ""
      · simp [got, empty]
      · cases decoded : json.decodeMessage line <;> simp [got, empty, decoded, Except.mapError]

theorem sendCommandTo_notRunning {json : ClientJson} {socket : Socket} {command : DaemonCommand}
    (refused : sendCommandTo json socket command = .error .notRunning) :
    socket.connectError.isSome := by
  cases opened : openRequest json socket command with
  | error e =>
    simp only [sendCommandTo, opened, Except.error.injEq] at refused
    exact openRequest_notRunning (refused ▸ opened)
  | ok incoming =>
    simp only [sendCommandTo, opened] at refused
    split at refused
    · cases refused
    · rename_i line _ _
      split at refused
      · cases refused
      · cases decoded : json.decodeMessage line <;> simp [decoded, Except.mapError] at refused

section

variable {α : Type} (keep : String → Option α)

/-- What the lines of a stream come to, up to the first that cannot be read. -/
def Incoming.messages (incoming : Incoming) : List α :=
  Framing.readLines 10 (fun line => (Text.fromUtf8 line).map keep) incoming.readError.isNone
    incoming.bytes

variable {keep} {incoming rest : Incoming} {line : String} {count : Nat}

theorem Incoming.messages_error {e : String} (failed : incoming.readLine = .error e) :
    incoming.messages keep = [] := by
  rw [messages]
  by_cases nothing : incoming.bytes = []
  · rw [nothing, Framing.readLines]
  rw [Framing.readLines_step nothing]
  split
  · rename_i ready
    cases read : Text.fromUtf8 (Framing.firstLine 10 incoming.bytes) with
    | none => rfl
    | some text =>
      rw [readLine_ok_iff.mpr ⟨ready, read, rfl, rfl⟩] at failed
      cases failed
  · rfl

theorem Incoming.messages_end (read : incoming.readLine = .ok (0, line, rest)) :
    incoming.messages keep = [] := by
  obtain ⟨_, _, empty, _⟩ := readLine_ok_iff.mp read
  rw [messages, Framing.firstLine_eq_nil.mp (List.length_eq_zero_iff.mp empty), Framing.readLines]

theorem Incoming.messages_line (read : incoming.readLine = .ok (count + 1, line, rest)) :
    incoming.messages keep = (keep line).toList ++ rest.messages keep := by
  obtain ⟨ready, text, counted, rfl⟩ := readLine_ok_iff.mp read
  have some_left : incoming.bytes ≠ [] := by
    intro nothing
    rw [nothing] at counted
    cases counted
  rw [messages, Framing.readLines_step some_left, if_pos ready, text]
  rfl

end

/-- The lines that a task forwards are those of the stream, as far as they are taken. -/
theorem forwardLines_eq {α : Type} (keep : String → Option α) (taken : Nat) (incoming : Incoming) :
    forwardLines keep taken incoming = (incoming.messages keep).take taken := by
  fun_induction forwardLines keep taken incoming with
  | case1 taken incoming e failed => rw [Incoming.messages_error failed, List.take_nil]
  | case2 taken incoming line rest read => rw [Incoming.messages_end read, List.take_nil]
  | case3 incoming count line rest read taken passed ih =>
    rw [Incoming.messages_line read, passed, ih]
    rfl
  | case4 => rfl
  | case5 incoming count line rest read message taken kept ih =>
    rw [Incoming.messages_line read, kept, ih]
    rfl

end FerroWg
