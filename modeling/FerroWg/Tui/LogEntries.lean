import FerroWg.Daemon.LogStream
import FerroWg.Lib.Newest
import FerroWg.Tui.LogView

/-!
# The entries that a log keeps

The buffer of the daemon and the deque that the log stream and the application share take an entry
in the same way: at the capacity that was allocated, the oldest goes first.
-/

namespace FerroWg.Daemon

open Lib

inductive LogCall (α : Type) where
  | addEntry (entry : α)
  | getBuffer
  | drainLogs

namespace LogBuffer

variable {α : Type} {capacity : Nat} {added : List α} {b : LogBuffer α}

def call (b : LogBuffer α) : LogCall α → LogBuffer α
  | .addEntry entry => b.addEntry entry
  | .getBuffer => b
  | .drainLogs => b.drainLogs.2

/-- What was added since the last drain. -/
def noteCall (added : List α) : LogCall α → List α
  | .addEntry entry => added ++ [entry]
  | .getBuffer => added
  | .drainLogs => []

/-- The newest entries that fit, in order. All that is held is shown, and a drain returns it and
leaves nothing. -/
structure HoldsNewest (capacity : Nat) (added : List α) (b : LogBuffer α) : Prop where
  entries : b.entries = added.drop (added.length - capacity)
  count : b.entries.length = min capacity added.length
  shown : b.getBuffer = b.entries
  drained : b.drainLogs = (b.entries, { b with entries := [] })
  allocated : b.capacity = capacity

theorem holdsNewest_iff : b.HoldsNewest capacity added ∧ b.poisoned = false ↔
    b = ⟨added.rtake capacity, capacity, false⟩ := by
  constructor
  · rintro ⟨holds, unpoisoned⟩
    rw [List.rtake, ← holds.entries, ← holds.allocated, ← unpoisoned]
  · rintro rfl
    exact ⟨⟨rfl, Newest.length_rtake _ _, rfl, rfl, rfl⟩, rfl⟩

/-- The oldest entry goes before the deque would grow. -/
theorem addEntry_rtake (positive : 0 < capacity) (added : List α) (entry : α) :
    addEntry entry ⟨added.rtake capacity, capacity, false⟩ =
      ⟨(added ++ [entry]).rtake capacity, capacity, false⟩ := by
  have short : (added.rtake capacity).length ≤ capacity := by
    rw [Newest.length_rtake]
    exact Nat.min_le_left _ _
  apply LogBuffer.ext
  · rw [← Newest.push_rtake positive, Newest.push, addEntry, if_neg Bool.false_ne_true, pushBack, evict]
    split <;> rfl
  · have bounded := addEntry_bounded (b := ⟨added.rtake capacity, capacity, false⟩) entry short positive
    exact bounded.2
  · rw [addEntry, if_neg Bool.false_ne_true, pushBack, evict_poisoned]

theorem call_rtake (positive : 0 < capacity) (c : LogCall α) :
    call ⟨added.rtake capacity, capacity, false⟩ c =
      ⟨(noteCall added c).rtake capacity, capacity, false⟩ := by
  cases c with
  | addEntry entry => exact addEntry_rtake positive added entry
  | getBuffer => rfl
  | drainLogs => rw [call, drainLogs, noteCall, List.rtake_nil]; rfl

theorem new_rtake (capacity : Nat) :
    (LogBuffer.new capacity : LogBuffer α) = ⟨[].rtake capacity, capacity, false⟩ := by
  rw [List.rtake_nil, new]

theorem calls_rtake (positive : 0 < capacity) (calls : List (LogCall α)) (added : List α) :
    calls.foldl call ⟨added.rtake capacity, capacity, false⟩ =
      ⟨(calls.foldl noteCall added).rtake capacity, capacity, false⟩ := by
  induction calls generalizing added with
  | nil => rfl
  | cons c rest ih => rw [List.foldl_cons, call_rtake positive, ih, List.foldl_cons]

end LogBuffer

end FerroWg.Daemon

namespace FerroWg.Tui

open Lib Daemon

/-! ## The shared deque of the application -/

/-- A write to the shared deque, from the application or from an entry that the stream task
received. -/
inductive LogWrite where
  | appendLog (entry : LogEntry)
  | recv (entry : LogEntry)

namespace LogWrite

def entry : LogWrite → LogEntry
  | .appendLog entry => entry
  | .recv entry => entry

/-- A poisoned mutex is passed over, by the application and by the task. -/
def perform (log : LogBuffer LogEntry) : LogWrite → LogBuffer LogEntry
  | .appendLog entry =>
    match log.poisoned with
    | false => log.evict.pushBack entry
    | true => log
  | .recv entry => if log.poisoned then log else log.evict.pushBack entry

theorem perform_eq (log : LogBuffer LogEntry) (write : LogWrite) :
    write.perform log = log.addEntry write.entry := by
  cases write with
  | appendLog entry =>
    cases log with
    | mk entries capacity poisoned => cases poisoned <;> rfl
  | recv entry => rfl

theorem performs_rtake {capacity : Nat} (positive : 0 < capacity) (writes : List LogWrite)
    (added : List LogEntry) :
    writes.foldl perform ⟨added.rtake capacity, capacity, false⟩ =
      ⟨(added ++ writes.map entry).rtake capacity, capacity, false⟩ := by
  induction writes generalizing added with
  | nil => rw [List.map_nil, List.append_nil, List.foldl_nil]
  | cons write rest ih =>
    rw [List.foldl_cons, perform_eq, LogBuffer.addEntry_rtake positive, ih, List.append_assoc,
      List.map_cons, List.singleton_append]

end LogWrite

/-- Whatever the order of the calls, a buffer holds the newest entries since the last drain, and
the shared deque the newest of all; neither is ever allocated anew. -/
theorem log_buffers_hold_newest (α : Type) {capacity : Nat} (positive : 0 < capacity) :
    (∀ calls : List (LogCall α), LogBuffer.HoldsNewest capacity
      (calls.foldl LogBuffer.noteCall []) (calls.foldl LogBuffer.call (.new capacity))) ∧
    ∀ writes : List LogWrite, LogBuffer.HoldsNewest capacity
      (writes.map LogWrite.entry) (writes.foldl LogWrite.perform (.new capacity)) := by
  constructor
  · intro calls
    have held := LogBuffer.calls_rtake positive calls []
    rw [← LogBuffer.new_rtake] at held
    exact (LogBuffer.holdsNewest_iff.mpr held).1
  · intro writes
    have held := LogWrite.performs_rtake positive writes []
    rw [← LogBuffer.new_rtake, List.nil_append] at held
    exact (LogBuffer.holdsNewest_iff.mpr held).1

theorem log_buffers_hold_newest_three : LogBuffer.HoldsNewest 3
    (([.addEntry 1, .drainLogs, .addEntry 2] : List (LogCall Nat)).foldl LogBuffer.noteCall [])
    (([.addEntry 1, .drainLogs, .addEntry 2] : List (LogCall Nat)).foldl LogBuffer.call (.new 3)) :=
  (log_buffers_hold_newest Nat (by decide)).1 _

/-! ## The deque of the state -/

theorem appendLog_push (entry : LogEntry) (s : AppState) :
    appendLog entry s = { s with logEntries := Newest.push logCapacity s.logEntries entry } := by
  rw [appendLog, List.drop_one, Newest.push]

/-- A state keeps what the shared deque holds. -/
theorem perform_appendLog (write : LogWrite) {s : AppState}
    (short : s.logEntries.length ≤ logCapacity) :
    write.perform ⟨s.logEntries, logCapacity, false⟩ =
      ⟨(appendLog write.entry s).logEntries, logCapacity, false⟩ := by
  rw [LogWrite.perform_eq, appendLog_push]
  have positive : 0 < logCapacity := by decide
  have newest := LogBuffer.addEntry_rtake positive s.logEntries write.entry
  rw [← Newest.push_rtake positive, Newest.rtake_of_length_le short] at newest
  exact newest

def appendLogs (entries : List LogEntry) (s : AppState) : AppState :=
  entries.foldl (fun s entry => appendLog entry s) s

/-- The entries that were kept when they all were added. -/
theorem appendLogs_eq (entries : List LogEntry) {s : AppState}
    (short : s.logEntries.length ≤ logCapacity) : appendLogs entries s =
      { s with logEntries := (s.logEntries ++ entries).rtake logCapacity } := by
  rw [← Newest.foldl_push (by decide) short]
  clear short
  rw [appendLogs]
  induction entries generalizing s with
  | nil => rfl
  | cons entry rest ih => rw [List.foldl_cons, ih, appendLog_push, List.foldl_cons]

end FerroWg.Tui
