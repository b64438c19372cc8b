import FerroWg.Daemon.LogStream
import Mathlib.Data.List.DropRight

/-!
# The history that a client is replayed

A client that connects is to be sent what the buffer would hold if nothing had been drained. The
broadcaster empties the buffer, so that this depends on when it last did.
-/

namespace FerroWg.Daemon

open Lib Lib.Numbered

/-- Everything that was added, what was added before the client connected, and whether its
snapshot had any entry. -/
structure Past where
  log : List Stamped
  before : List Stamped
  replayed : Bool

namespace Past

def none : Past := ⟨[], [], false⟩

def old (p : Past) (entry : Stamped) : Bool := entry.number < p.before.length

/-- The last entries from before the connection, as many as the buffer can hold. -/
def history (p : Past) (capacity : Nat) : List Stamped := p.before.rtake capacity

end Past

def notePast (id : Nat) (s : LogStream) (step : LogStep) (p : Past) : Past :=
  match step with
  | .addEntry entry => { p with log := p.log ++ [⟨s.added, entry⟩] }
  | .client other .subscribe => if other = id then { p with before := p.log } else p
  | .client other .getBuffer =>
    if other = id then { p with replayed := !s.buffer.getBuffer.isEmpty } else p
  | _ => p

abbrev tracedPast (id : Nat) := instrument LogStream.step (notePast id)

/-- What a client is sent before anything added later is the history: a part of it at any time,
and all of it once something later was sent or nothing is on its way. -/
def HistoryFirst (capacity id : Nat) (s : LogStream × Past) : Prop :=
  ∀ replay, (s.1.clients id).stage = .streaming replay →
    let early := (s.1.clients id).sent.takeWhile s.2.old
    early <+: s.2.history capacity ∧
      ((∃ entry ∈ (s.1.clients id).sent, s.2.old entry = false) ∨ replay = [] ∧ s.1.pipe id = [] →
        early = s.2.history capacity)

/-- The snapshot has the history up to what was added later, or, when it has nothing, what is in
the channel and with the broadcaster does. After a snapshot that has something, no old entry is
received before a later one was sent. -/
def KeepsHistory (capacity id : Nat) (s : LogStream × Past) : LogStep → Prop
  | .client other .getBuffer => other = id →
    (if s.1.buffer.getBuffer.isEmpty then (s.1.clients id).queue ++ s.1.drained
      else s.1.buffer.getBuffer).takeWhile s.2.old = s.2.history capacity
  | .client other .recv => other = id → s.2.replayed = true →
    ∀ entry ∈ (s.1.clients id).queue.head?, s.2.old entry = true →
      ∃ sent ∈ (s.1.clients id).sent, s.2.old sent = false
  | _ => True

/-- What the client is bound to get of the history: the rest of its snapshot, or, when that had
nothing, what is in the channel. -/
def LogStream.bound (s : LogStream) (id : Nat) (p : Past) (replay : List Stamped) : List Stamped :=
  (s.clients id).sent ++
    (replay ++ if p.replayed then [] else (s.clients id).queue ++ s.drained)

structure Remembers (capacity id : Nat) (s : LogStream × Past) : Prop where
  length : s.2.log.length = s.1.added
  before : s.2.before.length ≤ s.1.added
  waiting : (∀ replay, (s.1.clients id).stage ≠ .streaming replay) → (s.1.clients id).sent = []
  bound : ∀ replay, (s.1.clients id).stage = .streaming replay →
    (s.1.bound id s.2 replay).takeWhile s.2.old = s.2.history capacity
  live : ∀ replay, (s.1.clients id).stage = .streaming replay → s.2.replayed = false →
    replay = [] ∧ ∀ entry ∈ s.1.buffer.getBuffer, s.2.old entry = false

variable {capacity id : Nat} {s : LogStream} {p : Past}

theorem Remembers.historyFirst (remembers : Remembers capacity id (s, p)) :
    HistoryFirst capacity id (s, p) := by
  intro replay stage
  have bound := remembers.bound replay stage
  simp only [LogStream.bound] at bound
  refine ⟨?_, ?_⟩
  · simp only [← bound]
    exact takeWhile_prefix_append
  · rintro (closed | ⟨rfl, empty⟩)
    · exact (takeWhile_append_closed closed).symm.trans bound
    · simp only [LogStream.pipe, List.append_eq_nil_iff] at empty
      simpa [empty] using bound

theorem Remembers.addEntry (remembers : Remembers capacity id (s, p)) (entry : LogEntry) :
    Remembers capacity id
      ({ s with buffer := s.buffer.addEntry ⟨s.added, entry⟩, added := s.added + 1 },
        { p with log := p.log ++ [⟨s.added, entry⟩] }) where
  length := by simp [remembers.length]
  before := Nat.le_succ_of_le remembers.before
  waiting := remembers.waiting
  bound := remembers.bound
  live replay stage live := by
    obtain ⟨none, later⟩ := remembers.live replay stage live
    refine ⟨none, fun a member => ?_⟩
    rcases LogBuffer.mem_getBuffer_addEntry member with member | rfl
    · exact later a member
    · exact decide_eq_false (Nat.not_lt.mpr remembers.before)

theorem Remembers.drainLogs (remembers : Remembers capacity id (s, p)) (drained : s.drained = []) :
    Remembers capacity id
      ({ s with drained := s.buffer.drainLogs.1, buffer := s.buffer.drainLogs.2 }, p) where
  length := remembers.length
  before := remembers.before
  waiting := remembers.waiting
  bound replay stage := by
    have bound := remembers.bound replay stage
    simp only [LogStream.bound, drained, LogBuffer.drainLogs_fst] at bound ⊢
    cases live : p.replayed with
    | true => simpa only [live, if_true] using bound
    | false =>
      obtain ⟨_, later⟩ := remembers.live replay stage live
      simp only [live, Bool.false_eq_true, if_false, List.append_nil, ← List.append_assoc] at bound ⊢
      exact (takeWhile_append_other later).trans bound
  live replay stage live := by
    obtain ⟨none, _⟩ := remembers.live replay stage live
    refine ⟨none, fun a member => ?_⟩
    rw [LogBuffer.getBuffer_drainLogs] at member
    cases member

theorem Remembers.send (remembers : Remembers capacity id (s, p)) {entry : Stamped}
    {rest : List Stamped} (drained : s.drained = entry :: rest) :
    Remembers capacity id
      ({ s with drained := rest, clients := fun id => (s.clients id).deliver entry }, p) where
  length := remembers.length
  before := remembers.before
  waiting := by simpa only [LogClient.deliver_stage] using remembers.waiting
  bound replay stage := by
    simp only [LogClient.deliver_stage] at stage
    have bound := remembers.bound replay stage
    simpa only [LogStream.bound, LogClient.deliver_stage, LogClient.deliver_streaming entry stage,
      drained, List.append_assoc, List.singleton_append] using bound
  live replay stage live := by
    simp only [LogClient.deliver_stage] at stage
    exact remembers.live replay stage live

theorem Remembers.client (remembers : Remembers capacity id (s, p)) {step : ClientStep}
    {c : LogClient} (taken : (s.clients id).step s.buffer.getBuffer step = some c)
    (kept : KeepsHistory capacity id (s, p) (.client id step)) :
    Remembers capacity id ({ s with clients := Function.update s.clients id c },
      notePast id s (.client id step) p) := by
  obtain ⟨length, before, waiting, bound, live⟩ := remembers
  simp only [LogStream.bound] at bound
  cases LogClient.stepped taken with
  | subscribe stage =>
    have sent := waiting (by simp [stage])
    simp only [notePast, if_true]
    exact ⟨length, length.le, fun _ => by simpa using sent, fun replay there => by simp at there,
      fun replay there => by simp at there⟩
  | getBuffer stage =>
    have sent : (s.clients id).sent = [] := waiting (by simp [stage])
    replace kept := kept rfl
    simp only [notePast, if_true]
    refine ⟨length, before, fun away => by simp at away, fun replay there => ?_,
      fun replay there live => ?_⟩
    · obtain rfl : s.buffer.getBuffer = replay := by simpa using there
      change List.takeWhile p.old _ = p.history capacity
      simp only [LogStream.bound, Function.update_self, sent]
      cases none : s.buffer.getBuffer.isEmpty with
      | true =>
        simp only [none, if_true] at kept
        simpa [List.isEmpty_iff.mp none] using kept
      | false =>
        simp only [none, Bool.false_eq_true, if_false] at kept
        simpa using kept
    · have none : s.buffer.getBuffer = [] := by simpa using live
      obtain rfl : s.buffer.getBuffer = replay := by simpa using there
      simp [none]
  | @replay entry rest stage =>
    simp only [notePast]
    refine ⟨length, before, fun away => by simp at away, fun replay there => ?_,
      fun replay there none => ?_⟩
    · obtain rfl : rest = replay := by simpa using there
      simpa [LogStream.bound] using bound _ stage
    · exact absurd (live _ stage none).1 (List.cons_ne_nil _ _)
  | @recv entry rest stage queue =>
    simp only [notePast]
    refine ⟨length, before, fun away => by simp [stage] at away, fun replay there => ?_,
      fun replay there none => ?_⟩
    · obtain rfl : [] = replay := by simpa [stage] using there
      have bound := bound _ stage
      simp only [LogStream.bound, Function.update_self, queue, List.nil_append] at bound ⊢
      cases replayed : p.replayed with
      | false => simpa [replayed] using bound
      | true =>
        simp only [replayed, if_true, List.append_nil] at bound ⊢
        cases old : p.old entry with
        | false => exact (takeWhile_append_other (by simpa using old)).trans bound
        | true =>
          have closed := kept rfl replayed entry (by simp [queue]) old
          exact (takeWhile_append_closed closed).trans bound
    · obtain rfl : [] = replay := by simpa [stage] using there
      exact live _ stage none

theorem remembers_step {s next : LogStream × Past} {step : LogStep}
    (remembers : Remembers capacity id s) (kept : KeepsHistory capacity id s step)
    (taken : tracedPast id s step = some next) : Remembers capacity id next := by
  obtain ⟨w, p⟩ := s
  obtain ⟨t, p'⟩ := next
  obtain ⟨stepped, noted⟩ := instrument_some.mp taken
  simp only at stepped noted
  subst noted
  cases step with
  | addEntry entry =>
    cases stepped
    exact remembers.addEntry entry
  | poison =>
    cases stepped
    exact ⟨remembers.length, remembers.before, remembers.waiting, remembers.bound,
      fun replay stage live => ⟨(remembers.live replay stage live).1, nofun⟩⟩
  | drainLogs =>
    simp only [LogStream.step] at stepped
    split at stepped <;> cases stepped
    exact remembers.drainLogs ‹_›
  | send =>
    simp only [LogStream.step] at stepped
    split at stepped <;> cases stepped
    exact remembers.send ‹_›
  | client other step =>
    obtain ⟨c, acted, rfl⟩ := Option.map_eq_some_iff.mp stepped
    rcases eq_or_ne other id with rfl | apart
    · exact remembers.client acted kept
    · have same : notePast id w (.client other step) p = p := by
        cases step <;> simp [notePast, apart]
      obtain ⟨length, before, waiting, bound, live⟩ := remembers
      simp only [LogStream.bound] at bound
      simp only [same]
      constructor <;>
        simpa only [LogStream.bound, Function.update_of_ne apart.symm]

/-- As long as every snapshot and every receipt keeps to it, a client is sent the history before
anything later. -/
theorem history_first (capacity id : Nat) (steps : List LogStep)
    (kept : Along (tracedPast id) (KeepsHistory capacity id) steps (.new capacity, .none)) :
    Always (tracedPast id) (HistoryFirst capacity id) steps (.new capacity, .none) := by
  refine (always_of_along (fun _ _ _ _ remembers kept taken => remembers_step remembers kept taken)
    ?_ kept).mono fun _ remembers => remembers.historyFirst
  exact ⟨rfl, Nat.le_refl 0, fun _ => rfl, nofun, nofun⟩

/-- A client that connects before anything was drained, up to the end of its replay. -/
theorem history_first_undrained :
    let steps : List LogStep := [.addEntry ⟨0, .info, none, "daemon: up"⟩, .client 0 .subscribe,
      .client 0 .getBuffer, .client 0 .replay]
    Always (tracedPast 0) (HistoryFirst 1000 0) steps (.new 1000, .none) := by
  intro steps
  apply history_first 1000 0 steps
  refine fun _ taken => ⟨trivial, ?_⟩
  obtain rfl := Option.some.inj taken
  refine fun _ taken => ⟨trivial, ?_⟩
  obtain rfl := Option.some.inj taken
  refine fun _ taken => ⟨fun _ => by decide +kernel, ?_⟩
  exact fun _ _ => ⟨trivial, trivial⟩

/-- The broadcaster ran once before the client connected: it is sent nothing of the history. -/
theorem history_lost_after_drain :
    let steps : List LogStep := [.addEntry ⟨0, .info, none, "daemon: up"⟩, .drainLogs, .send,
      .client 0 .subscribe, .client 0 .getBuffer]
    ¬ Always (tracedPast 0) (HistoryFirst 1000 0) steps (.new 1000, .none) := by
  intro steps always
  let entry : Stamped := ⟨0, ⟨0, .info, none, "daemon: up"⟩⟩
  let s : LogStream × Past := (⟨⟨[], 1000, false⟩, 1, [], Function.update
    (Function.update (fun _ => ⟨.away, [], []⟩) 0 ⟨.subscribed, [], []⟩) 0
      ⟨.streaming [], [], []⟩⟩, ⟨[entry], [entry], false⟩)
  have reached : run (tracedPast 0) steps (.new 1000, .none) = some s := rfl
  have first := always.last reached
  exact absurd ((first [] rfl).2 (.inr ⟨rfl, rfl⟩)) (by decide +kernel)

end FerroWg.Daemon
