import FerroWg.Core.Ipc
import FerroWg.Lib.Numbered
import FerroWg.Lib.Run

/-!
# The log of the daemon and its streams

`LogBuffer`, the broadcaster that empties it into a channel, and a `StreamLogs` client: it
subscribes, replays a snapshot of the buffer, and then receives from the channel.
-/

namespace FerroWg.Daemon

open Lib Lib.Numbered

/-- A deque in a mutex. -/
@[ext] structure LogBuffer (α : Type) where
  entries : List α
  capacity : Nat
  poisoned : Bool
  deriving DecidableEq, Repr

namespace LogBuffer

variable {α : Type}

def new (capacity : Nat) : LogBuffer α := ⟨[], capacity, false⟩

/-- `VecDeque::push_back`, which makes a full deque grow. -/
def pushBack (entry : α) (b : LogBuffer α) : LogBuffer α :=
  { b with
    entries := b.entries ++ [entry]
    capacity := if b.entries.length = b.capacity then max (2 * b.capacity) 4 else b.capacity }

/-- The oldest entry goes when the buffer is at capacity. -/
def evict (b : LogBuffer α) : LogBuffer α :=
  if b.entries.length = b.capacity then { b with entries := b.entries.tail } else b

def addEntry (entry : α) (b : LogBuffer α) : LogBuffer α :=
  if b.poisoned then b else b.evict.pushBack entry

def getBuffer (b : LogBuffer α) : List α := if b.poisoned then [] else b.entries

def drainLogs (b : LogBuffer α) : List α × LogBuffer α :=
  if b.poisoned then ([], b) else (b.entries, { b with entries := [] })

theorem getBuffer_sublist (b : LogBuffer α) : b.getBuffer.Sublist b.entries := by
  rw [getBuffer]
  split
  · exact List.nil_sublist _
  · exact List.Sublist.refl _

/-- A drain moves the entries, all of them or none. -/
theorem drainLogs_append (b : LogBuffer α) : b.drainLogs.1 ++ b.drainLogs.2.entries = b.entries := by
  rw [drainLogs]
  split
  · rfl
  · exact List.append_nil _

theorem drainLogs_fst (b : LogBuffer α) : b.drainLogs.1 = b.getBuffer := by
  rw [drainLogs, getBuffer]
  split <;> rfl

theorem getBuffer_drainLogs (b : LogBuffer α) : b.drainLogs.2.getBuffer = [] := by
  cases poisoned : b.poisoned <;> simp [drainLogs, getBuffer, poisoned]

theorem evict_sublist (b : LogBuffer α) : b.evict.entries.Sublist b.entries := by
  rw [evict]
  split
  · exact List.tail_sublist _
  · exact List.Sublist.refl _

theorem evict_poisoned (b : LogBuffer α) : b.evict.poisoned = b.poisoned := by
  rw [evict]
  split <;> rfl

theorem addEntry_sublist (entry : α) (b : LogBuffer α) :
    (b.addEntry entry).entries.Sublist (b.entries ++ [entry]) := by
  rw [addEntry]
  split
  · exact List.sublist_append_left _ _
  · exact b.evict_sublist.append_right [entry]

/-- What is shown after an addition ends with it. -/
theorem getBuffer_addEntry (entry : α) {b : LogBuffer α}
    (shown : (b.addEntry entry).getBuffer ≠ []) : entry ∈ (b.addEntry entry).getBuffer := by
  cases poisoned : b.poisoned with
  | true => simp [addEntry, getBuffer, poisoned] at shown
  | false => simp [addEntry, getBuffer, pushBack, evict_poisoned, poisoned]

theorem mem_getBuffer_addEntry {entry a : α} {b : LogBuffer α}
    (member : a ∈ (b.addEntry entry).getBuffer) : a ∈ b.getBuffer ∨ a = entry := by
  cases poisoned : b.poisoned with
  | true => simp [addEntry, getBuffer, poisoned] at member
  | false =>
    simp only [addEntry, getBuffer, pushBack, evict_poisoned, poisoned, Bool.false_eq_true, if_false,
      List.mem_append, List.mem_singleton] at member ⊢
    exact member.imp_left fun kept => b.evict_sublist.subset kept

/-- At most `capacity` entries, once there is any capacity. -/
theorem addEntry_bounded (entry : α) {b : LogBuffer α} (bounded : b.entries.length ≤ b.capacity)
    (positive : 0 < b.capacity) :
    (b.addEntry entry).entries.length ≤ b.capacity ∧ (b.addEntry entry).capacity = b.capacity := by
  have room : b.evict.entries.length < b.capacity ∧ b.evict.capacity = b.capacity := by
    rw [evict]
    split
    · rename_i full
      exact ⟨by simp only [List.length_tail]; omega, rfl⟩
    · exact ⟨by omega, rfl⟩
  rw [addEntry]
  split
  · exact ⟨bounded, rfl⟩
  · have notFull : b.evict.entries.length ≠ b.evict.capacity := by omega
    simp only [pushBack, notFull, if_false, List.length_append, List.length_singleton]
    exact ⟨by omega, room.2⟩

end LogBuffer

/-- An entry with its place among all that were added. -/
structure Stamped where
  number : Nat
  entry : LogEntry
  deriving DecidableEq, Repr

inductive Stage where
  | away
  | subscribed
  | streaming (replay : List Stamped)
  deriving DecidableEq, Repr

/-- The queue holds what the channel has for the client; none of it is lost to lag. -/
structure LogClient where
  stage : Stage
  queue : List Stamped
  sent : List Stamped
  deriving DecidableEq, Repr

inductive ClientStep where
  | subscribe
  | getBuffer
  | replay
  | recv
  deriving DecidableEq, Repr

structure LogStream where
  buffer : LogBuffer Stamped
  added : Nat
  drained : List Stamped
  clients : Nat → LogClient

inductive LogStep where
  | addEntry (entry : LogEntry)
  | poison
  | drainLogs
  | send
  | client (id : Nat) (step : ClientStep)
  deriving DecidableEq, Repr

namespace LogClient

/-- What is sent to the channel before a client subscribes never reaches it. -/
def deliver (entry : Stamped) (c : LogClient) : LogClient :=
  match c.stage with
  | .away => c
  | _ => { c with queue := c.queue ++ [entry] }

/-- `handle_stream_logs`: `shown` is what the buffer holds. -/
def step (shown : List Stamped) (c : LogClient) : ClientStep → Option LogClient
  | .subscribe =>
    match c.stage with
    | .away => some { c with stage := .subscribed }
    | _ => none
  | .getBuffer =>
    match c.stage with
    | .subscribed => some { c with stage := .streaming shown }
    | _ => none
  | .replay =>
    match c.stage with
    | .streaming (entry :: rest) => some { c with stage := .streaming rest, sent := c.sent ++ [entry] }
    | _ => none
  | .recv =>
    match c.stage, c.queue with
    | .streaming [], entry :: rest => some { c with queue := rest, sent := c.sent ++ [entry] }
    | _, _ => none

/-- The steps a client takes, each with the stage it is taken in. -/
inductive Stepped (shown : List Stamped) (c : LogClient) : ClientStep → LogClient → Prop
  | subscribe (stage : c.stage = .away) : Stepped shown c .subscribe { c with stage := .subscribed }
  | getBuffer (stage : c.stage = .subscribed) :
    Stepped shown c .getBuffer { c with stage := .streaming shown }
  | replay {entry : Stamped} {rest : List Stamped} (stage : c.stage = .streaming (entry :: rest)) :
    Stepped shown c .replay { c with stage := .streaming rest, sent := c.sent ++ [entry] }
  | recv {entry : Stamped} {rest : List Stamped} (stage : c.stage = .streaming [])
    (queue : c.queue = entry :: rest) :
    Stepped shown c .recv { c with queue := rest, sent := c.sent ++ [entry] }

theorem stepped {shown : List Stamped} {c next : LogClient} {step : ClientStep}
    (taken : c.step shown step = some next) : Stepped shown c step next := by
  cases step with
  | subscribe =>
    simp only [LogClient.step] at taken
    split at taken <;> cases taken
    case h_1 stage => exact .subscribe stage
  | getBuffer =>
    simp only [LogClient.step] at taken
    split at taken <;> cases taken
    case h_1 stage => exact .getBuffer stage
  | replay =>
    simp only [LogClient.step] at taken
    split at taken <;> cases taken
    case h_1 stage => exact .replay stage
  | recv =>
    simp only [LogClient.step] at taken
    split at taken <;> cases taken
    case h_1 stage queue => exact .recv stage queue

/-- What the client was sent, and what is left to replay. -/
def due (c : LogClient) : List Stamped :=
  c.sent ++ match c.stage with
    | .streaming replay => replay
    | _ => []

end LogClient

namespace LogStream

def new (capacity : Nat) : LogStream := ⟨.new capacity, 0, [], fun _ => ⟨.away, [], []⟩⟩

/-- The broadcaster drains again only when all it has drained was sent. -/
def step (s : LogStream) : LogStep → Option LogStream
  | .addEntry entry =>
    some { s with buffer := s.buffer.addEntry ⟨s.added, entry⟩, added := s.added + 1 }
  | .poison => some { s with buffer := { s.buffer with poisoned := true } }
  | .drainLogs =>
    match s.drained with
    | [] => some { s with drained := s.buffer.drainLogs.1, buffer := s.buffer.drainLogs.2 }
    | _ :: _ => none
  | .send =>
    match s.drained with
    | [] => none
    | entry :: rest =>
      some { s with drained := rest, clients := fun id => (s.clients id).deliver entry }
  | .client id step =>
    ((s.clients id).step s.buffer.getBuffer step).map fun c =>
      { s with clients := Function.update s.clients id c }

/-- The entries on their way to a client, the next one first. -/
def pipe (s : LogStream) (id : Nat) : List Stamped :=
  (s.clients id).queue ++ (s.drained ++ s.buffer.entries)

end LogStream

/-- The count of entries when the client took a snapshot that was not empty. -/
def noteSnapshot (id : Nat) (s : LogStream) (step : LogStep) (mark : Nat) : Nat :=
  if step = .client id .getBuffer then if s.buffer.getBuffer.isEmpty then 0 else s.added else mark

abbrev tracedStream (id : Nat) := instrument LogStream.step (noteSnapshot id)

/-- The sequence that the client was sent has no entry twice and is in the order of their
addition. -/
def SentInOrder (id : Nat) (s : LogStream) : Prop := Increasing Stamped.number (s.clients id).sent

/-- What the client receives from the channel was added after its snapshot, if it got one. -/
def ReceivesNewer (id : Nat) (s : LogStream × Nat) (step : LogStep) : Prop :=
  step = .client id .recv → ∀ entry ∈ (s.1.clients id).queue.head?, s.2 ≤ entry.number

/-- What holds of one client, beside what the others do. -/
structure Streams (id : Nat) (s : LogStream × Nat) : Prop where
  ordered : Ordered Stamped.number (s.1.pipe id) (s.1.clients id).due s.1.added s.2
  newest : s.1.buffer.getBuffer ≠ [] → ∃ a ∈ s.1.buffer.getBuffer, a.number + 1 = s.1.added
  waiting : (∀ replay, (s.1.clients id).stage ≠ .streaming replay) →
    (s.1.clients id).sent = [] ∧ s.2 = 0

theorem LogClient.deliver_due (entry : Stamped) (c : LogClient) : (c.deliver entry).due = c.due := by
  rw [deliver]
  split <;> rfl

theorem LogClient.deliver_stage (entry : Stamped) (c : LogClient) :
    (c.deliver entry).stage = c.stage ∧ (c.deliver entry).sent = c.sent := by
  rw [deliver]
  split <;> exact ⟨rfl, rfl⟩

theorem LogClient.deliver_queue (entry : Stamped) (c : LogClient) :
    (c.deliver entry).queue = c.queue ∨ (c.deliver entry).queue = c.queue ++ [entry] := by
  rw [deliver]
  split
  · exact .inl rfl
  · exact .inr rfl

theorem LogClient.deliver_streaming (entry : Stamped) {c : LogClient} {replay : List Stamped}
    (stage : c.stage = .streaming replay) : (c.deliver entry).queue = c.queue ++ [entry] := by
  simp [deliver, stage]

variable {id : Nat} {s : LogStream} {mark : Nat}

theorem Streams.addEntry (streams : Streams id (s, mark)) (entry : LogEntry) :
    Streams id ({ s with buffer := s.buffer.addEntry ⟨s.added, entry⟩, added := s.added + 1 }, mark) where
  ordered := by
    apply (streams.ordered.push (a := ⟨s.added, entry⟩) rfl).sublist
    simp only [LogStream.pipe, List.append_assoc]
    exact ((LogBuffer.addEntry_sublist _ _).append_left _).append_left _
  newest shown := ⟨⟨s.added, entry⟩, LogBuffer.getBuffer_addEntry _ shown, rfl⟩
  waiting := streams.waiting

theorem Streams.drainLogs (streams : Streams id (s, mark)) (drained : s.drained = []) :
    Streams id ({ s with drained := s.buffer.drainLogs.1, buffer := s.buffer.drainLogs.2 }, mark) where
  ordered := by
    have ordered := streams.ordered
    simp only [LogStream.pipe, drained, List.nil_append] at ordered
    simpa only [LogStream.pipe, LogBuffer.drainLogs_append] using ordered
  newest shown := absurd (LogBuffer.getBuffer_drainLogs _) shown
  waiting := streams.waiting

theorem Streams.send (streams : Streams id (s, mark)) {entry : Stamped} {rest : List Stamped}
    (drained : s.drained = entry :: rest) :
    Streams id ({ s with drained := rest, clients := fun id => (s.clients id).deliver entry }, mark) where
  ordered := by
    have pipe : s.pipe id = (s.clients id).queue ++ entry :: (rest ++ s.buffer.entries) := by
      rw [LogStream.pipe, drained, List.cons_append]
    simp only [LogClient.deliver_due]
    apply streams.ordered.sublist
    simp only [pipe]
    rcases (s.clients id).deliver_queue entry with queue | queue <;> simp only [LogStream.pipe, queue]
    · exact (List.sublist_cons_self _ _).append_left _
    · simp
  newest := streams.newest
  waiting := by
    simpa only [LogClient.deliver_stage] using streams.waiting

/-- A step of the client itself; receiving keeps the order only above the mark. -/
theorem Streams.client (streams : Streams id (s, mark)) {step : ClientStep} {c : LogClient}
    (taken : (s.clients id).step s.buffer.getBuffer step = some c)
    (inOrder : Increasing Stamped.number c.sent) :
    Streams id ({ s with clients := Function.update s.clients id c },
      noteSnapshot id s (.client id step) mark) := by
  obtain ⟨ordered, newest, waiting⟩ := streams
  simp only [LogStream.pipe, LogClient.due] at ordered newest waiting
  cases LogClient.stepped taken with
  | subscribe stage =>
    simp only [stage] at ordered waiting
    refine ⟨?_, newest, fun _ => ?_⟩
    · simpa [LogStream.pipe, LogClient.due, noteSnapshot] using ordered
    · simpa [noteSnapshot] using waiting
  | getBuffer stage =>
    simp only [stage] at ordered waiting
    obtain ⟨sent, rfl⟩ := waiting nofun
    have shown : s.buffer.getBuffer.Sublist
        ((s.clients id).queue ++ (s.drained ++ s.buffer.entries)) :=
      (LogBuffer.getBuffer_sublist _).trans
        ((List.sublist_append_right _ _).trans (List.sublist_append_right _ _))
    rw [sent, List.append_nil] at ordered
    refine ⟨?_, newest, fun away => by simp at away⟩
    simpa [LogStream.pipe, LogClient.due, noteSnapshot, sent] using ordered.begin shown newest
  | @replay entry rest stage =>
    simp only [stage] at ordered
    refine ⟨?_, newest, fun away => by simp at away⟩
    simpa [LogStream.pipe, LogClient.due, noteSnapshot] using ordered
  | @recv entry rest stage queue =>
    simp only [stage, queue, List.append_nil, List.cons_append] at ordered
    refine ⟨?_, newest, fun away => by simp [stage] at away⟩
    simpa [LogStream.pipe, LogClient.due, noteSnapshot, stage] using
      ordered.pop (ordered.increasing_iff.mp inOrder)

/-- A step of the client keeps the order, unless it receives what is below the mark. -/
theorem Streams.client_inOrder_iff (streams : Streams id (s, mark)) (inOrder : SentInOrder id s)
    {step : ClientStep} {c : LogClient}
    (taken : (s.clients id).step s.buffer.getBuffer step = some c) :
    Increasing Stamped.number c.sent ↔ ReceivesNewer id (s, mark) (.client id step) := by
  have ordered := streams.ordered
  simp only [LogStream.pipe, LogClient.due] at ordered
  cases LogClient.stepped taken with
  | subscribe | getBuffer => exact iff_of_true inOrder nofun
  | @replay entry rest stage =>
    refine iff_of_true (ordered.dueIncreasing.sublist ?_) nofun
    simp [stage]
  | @recv entry rest stage queue =>
    simp only [stage, queue, List.append_nil, List.cons_append] at ordered
    simp only [ordered.increasing_iff, ReceivesNewer, queue, List.head?_cons, Option.mem_def,
      Option.some.injEq, forall_eq', true_imp_iff]

theorem streams_step {s next : LogStream × Nat} {step : LogStep} (streams : Streams id s)
    (taken : tracedStream id s step = some next) (inOrder : SentInOrder id next.1) :
    Streams id next := by
  obtain ⟨w, mark⟩ := s
  obtain ⟨t, mark'⟩ := next
  obtain ⟨stepped, noted⟩ := instrument_some.mp taken
  simp only at stepped noted
  subst noted
  cases step with
  | addEntry entry =>
    cases stepped
    exact streams.addEntry entry
  | poison =>
    cases stepped
    exact ⟨streams.ordered, fun shown => absurd rfl shown, streams.waiting⟩
  | drainLogs =>
    simp only [LogStream.step] at stepped
    split at stepped <;> cases stepped
    exact streams.drainLogs ‹_›
  | send =>
    simp only [LogStream.step] at stepped
    split at stepped <;> cases stepped
    exact streams.send ‹_›
  | client other step =>
    obtain ⟨c, acted, rfl⟩ := Option.map_eq_some_iff.mp stepped
    rcases eq_or_ne other id with rfl | apart
    · simp only [SentInOrder, Function.update_self] at inOrder
      exact streams.client acted inOrder
    · obtain ⟨ordered, newest, waiting⟩ := streams
      simp only [LogStream.pipe] at ordered waiting
      constructor <;>
        simpa only [LogStream.pipe, noteSnapshot, Function.update_of_ne apart.symm,
          LogStep.client.injEq, apart, false_and, if_false]

theorem sentInOrder_iff {s next : LogStream × Nat} {step : LogStep} (streams : Streams id s)
    (inOrder : SentInOrder id s.1) (taken : tracedStream id s step = some next) :
    SentInOrder id next.1 ↔ ReceivesNewer id s step := by
  obtain ⟨w, mark⟩ := s
  obtain ⟨t, mark'⟩ := next
  obtain ⟨stepped, _⟩ := instrument_some.mp taken
  have ordered := streams.ordered
  simp only at stepped ordered
  cases step with
  | addEntry | poison =>
    cases stepped
    exact iff_of_true inOrder nofun
  | drainLogs =>
    simp only [LogStream.step] at stepped
    split at stepped <;> cases stepped
    exact iff_of_true inOrder nofun
  | send =>
    simp only [LogStream.step] at stepped
    split at stepped <;> cases stepped
    refine iff_of_true ?_ nofun
    simpa only [SentInOrder, LogClient.deliver_stage] using inOrder
  | client other step =>
    obtain ⟨c, acted, rfl⟩ := Option.map_eq_some_iff.mp stepped
    rcases eq_or_ne other id with rfl | apart
    · simp only [SentInOrder, Function.update_self]
      exact streams.client_inOrder_iff inOrder acted
    · refine iff_of_true ?_ fun same => absurd (LogStep.client.inj same).1 apart
      simpa only [SentInOrder, Function.update_of_ne apart.symm] using inOrder

/-- The buffer never holds more than it was made for. -/
theorem buffer_bounded {capacity : Nat} (positive : 0 < capacity) (steps : List LogStep) :
    Always LogStream.step (fun s => s.buffer.entries.length ≤ capacity) steps (.new capacity) := by
  refine Always.mono (p := fun s => s.buffer.entries.length ≤ s.buffer.capacity ∧
    s.buffer.capacity = capacity) (fun s inv => inv.2 ▸ inv.1) ?_
  refine always_of_step (fun s step next inv taken => ?_) steps ⟨Nat.zero_le _, rfl⟩
  obtain ⟨bounded, same⟩ := inv
  cases step with
  | addEntry entry =>
    cases taken
    have kept := LogBuffer.addEntry_bounded (⟨s.added, entry⟩ : Stamped) bounded (same ▸ positive)
    exact ⟨kept.2 ▸ kept.1, kept.2.trans same⟩
  | poison =>
    cases taken
    exact ⟨bounded, same⟩
  | drainLogs =>
    simp only [LogStream.step] at taken
    split at taken <;> cases taken
    rw [LogBuffer.drainLogs]
    split
    · exact ⟨bounded, same⟩
    · exact ⟨Nat.zero_le _, same⟩
  | send =>
    simp only [LogStream.step] at taken
    split at taken <;> cases taken
    exact ⟨bounded, same⟩
  | client id step =>
    obtain ⟨c, _, rfl⟩ := Option.map_eq_some_iff.mp taken
    exact ⟨bounded, same⟩

/-- In every state of a run a client was sent what it should, if and only if everything that it
received from the channel was added after its snapshot. -/
theorem stream_in_order_iff (capacity id : Nat) (steps : List LogStep) :
    Always LogStream.step (SentInOrder id) steps (.new capacity) ↔
      Along (tracedStream id) (ReceivesNewer id) steps (.new capacity, 0) := by
  rw [← always_instrument LogStream.step (noteSnapshot id) (SentInOrder id) steps (.new capacity, 0)]
  refine always_iff_along (fun _ _ _ _ streams taken inOrder => streams_step streams taken inOrder)
    (fun _ _ _ _ streams inOrder taken => sentInOrder_iff streams inOrder taken)
    ⟨.nil, fun shown => absurd rfl shown, fun _ => ⟨rfl, rfl⟩⟩ .nil

/-- A client that connects between an entry and the next drain is sent the entry twice. -/
theorem stream_sends_twice :
    let steps : List LogStep := [.addEntry ⟨0, .info, none, "daemon: up"⟩, .client 0 .subscribe,
      .client 0 .getBuffer, .client 0 .replay, .drainLogs, .send, .client 0 .recv]
    ((run LogStream.step steps (.new 1000)).map fun s => (s.clients 0).sent.map (·.number)) =
        some [0, 0] ∧
      ¬ Always LogStream.step (SentInOrder 0) steps (.new 1000) := by
  intro steps
  have ended : ((run LogStream.step steps (.new 1000)).map fun s =>
      (s.clients 0).sent.map (·.number)) = some [0, 0] := by decide +kernel
  refine ⟨ended, fun always => ?_⟩
  obtain ⟨s, reached, sent⟩ := Option.map_eq_some_iff.mp ended
  have inOrder := always.last reached
  have numbers : ((s.clients 0).sent.map (·.number)).Pairwise (· < ·) :=
    List.pairwise_map.mpr inOrder
  rw [sent] at numbers
  exact absurd numbers (by decide)

end FerroWg.Daemon
