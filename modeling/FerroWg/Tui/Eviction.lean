import FerroWg.Tui.LogFilter

/-!
# A log view that is scrolled up

Entries are told apart by their places in all that was appended. The offset of a view counts the
entries that pass its filters and are still there, so it means another entry once one that passed
is gone.
-/

namespace FerroWg.Tui

open Lib Text

/-- The entries of the log, the first of them at a place. -/
def AppState.numbered (first : Nat) (s : AppState) : List (LogEntry × Nat) :=
  s.logEntries.zipIdx first

/-- How many entries go when others are appended. -/
def evictedBy (entries : List LogEntry) (s : AppState) : Nat :=
  s.logEntries.length + entries.length - logCapacity

theorem map_fst_filter_zipIdx {α : Type} (p : α → Bool) (l : List α) (n : Nat) :
    ((l.zipIdx n).filter fun e => p e.1).map Prod.fst = l.filter p := by
  change List.map Prod.fst (List.filter (p ∘ Prod.fst) (l.zipIdx n)) = _
  rw [← List.filter_map, List.zipIdx_map_fst]

theorem zipIdx_take_append_drop {α : Type} {l : List α} {n : Nat} (inside : n ≤ l.length) :
    (l.take n).zipIdx ++ (l.drop n).zipIdx n = l.zipIdx := by
  have count : n = 0 + (l.take n).length := by
    rw [List.length_take]
    omega
  nth_rewrite 3 [count]
  rw [← List.zipIdx_append, List.take_append_drop]

namespace LogsComponent

def passingAt (first : Nat) (s : AppState) (comp : LogsComponent) : List (LogEntry × Nat) :=
  (s.numbered first).filter fun e => comp.passes s e.1

def drawnAt (first : Nat) (s : AppState) (comp : LogsComponent) : List (LogEntry × Nat) :=
  ((comp.passingAt first s).drop (comp.displayOffset (comp.filteredTotal s))).take
    comp.scrollState.viewHeight

variable {comp : LogsComponent} {s : AppState} {first : Nat} {e : LogEntry × Nat}
  {entries : List LogEntry}

theorem passingAt_fst : (comp.passingAt first s).map Prod.fst = comp.passing s := by
  rw [passing, getFilteredEntries_eq_filter, passingAt, AppState.numbered, map_fst_filter_zipIdx]
  rfl

/-- The places are beside what is drawn. -/
theorem drawnAt_fst : (comp.drawnAt first s).map Prod.fst = comp.drawn s := by
  rw [drawnAt, drawn, List.map_take, List.map_drop, passingAt_fst]

/-- The first entry drawn, in a view that has a height. -/
theorem head?_drawnAt (manual : comp.scrollState.autoScroll = false)
    (height : 0 < comp.scrollState.viewHeight) :
    (comp.drawnAt first s).head? = (comp.passingAt first s)[comp.scrollState.offset]? := by
  rw [drawnAt, displayOffset_manual manual, List.head?_take, if_neg (by omega), List.head?_drop]

theorem height_of_drawnAt (drawn : (comp.drawnAt first s).head? = some e) :
    0 < comp.scrollState.viewHeight := by
  by_contra none
  rw [drawnAt, List.head?_take, if_pos (by omega)] at drawn
  cases drawn

end LogsComponent

theorem evictedBy_le (entries : List LogEntry) (s : AppState) :
    evictedBy entries s ≤ (s.logEntries ++ entries).length := by
  rw [evictedBy, List.length_append]
  exact Nat.sub_le _ _

variable {s : AppState} {entries : List LogEntry}

theorem logEntries_appendLogs (short : s.logEntries.length ≤ logCapacity) :
    (appendLogs entries s).logEntries = (s.logEntries ++ entries).drop (evictedBy entries s) := by
  rw [appendLogs_eq entries short, List.rtake, List.length_append, evictedBy]

theorem passes_appendLogs (short : s.logEntries.length ≤ logCapacity) (comp : LogsComponent) :
    comp.passes (appendLogs entries s) = comp.passes s := by
  have search : (appendLogs entries s).searchQuery = s.searchQuery := by
    rw [appendLogs_eq entries short]
  have visible : (appendLogs entries s).visibleConnections = s.visibleConnections := by
    rw [appendLogs_eq entries short]
  funext e
  rw [LogsComponent.passes, LogsComponent.passes, search, visible]

namespace LogsComponent

variable {comp : LogsComponent} {s : AppState} {e : LogEntry × Nat} {entries : List LogEntry}

/-- The entries that pass among those that go, with their places. -/
def goneAt (entries : List LogEntry) (s : AppState) (comp : LogsComponent) :
    List (LogEntry × Nat) :=
  ((s.logEntries ++ entries).take (evictedBy entries s)).zipIdx.filter fun e => comp.passes s e.1

/-- What passed is gone or passes still; what was shown comes before what was appended. -/
theorem goneAt_append (short : s.logEntries.length ≤ logCapacity) :
    comp.goneAt entries s ++ comp.passingAt (evictedBy entries s) (appendLogs entries s) =
      comp.passingAt 0 s ++
        (entries.zipIdx s.logEntries.length).filter fun e => comp.passes s e.1 := by
  rw [goneAt, passingAt, passingAt, passes_appendLogs short, ← List.filter_append,
    ← List.filter_append, AppState.numbered, AppState.numbered, logEntries_appendLogs short,
    zipIdx_take_append_drop (evictedBy_le _ _), List.zipIdx_append, Nat.zero_add]

theorem nodup_goneAt_append (short : s.logEntries.length ≤ logCapacity) :
    (comp.goneAt entries s ++
      comp.passingAt (evictedBy entries s) (appendLogs entries s)).Nodup := by
  rw [goneAt, passingAt, passes_appendLogs short, ← List.filter_append, AppState.numbered,
    logEntries_appendLogs short, zipIdx_take_append_drop (evictedBy_le _ _)]
  apply List.Nodup.filter
  apply List.Nodup.of_map Prod.snd
  rw [List.zipIdx_map_snd]
  exact List.nodup_range'

theorem goneAt_eq_nil_iff : comp.goneAt entries s = [] ↔
    ∀ a ∈ (s.logEntries ++ entries).take (evictedBy entries s), comp.passes s a = false := by
  rw [← List.map_eq_nil_iff (f := Prod.fst), goneAt, map_fst_filter_zipIdx, List.filter_eq_nil_iff]
  simp only [Bool.not_eq_true]

theorem passingAt_eq_nil_iff (short : s.logEntries.length ≤ logCapacity) :
    comp.passingAt (evictedBy entries s) (appendLogs entries s) = [] ↔
      ∀ a ∈ (s.logEntries ++ entries).drop (evictedBy entries s), comp.passes s a = false := by
  rw [← List.map_eq_nil_iff (f := Prod.fst), passingAt, AppState.numbered, map_fst_filter_zipIdx,
    passes_appendLogs short, logEntries_appendLogs short, List.filter_eq_nil_iff]
  simp only [Bool.not_eq_true]

/-- The entry that was drawn first is drawn first still, or the oldest that passes once it is
gone. -/
def Frozen (entries : List LogEntry) (s : AppState) (comp : LogsComponent)
    (e : LogEntry × Nat) : Prop :=
  (comp.drawnAt (evictedBy entries s) (appendLogs entries s)).head? =
    if e ∈ (appendLogs entries s).numbered (evictedBy entries s) then some e
    else (comp.passingAt (evictedBy entries s) (appendLogs entries s)).head?

/-- The view is at the oldest entry that passes, or no entry that goes passes, or none that
stays. -/
def KeepsPlace (entries : List LogEntry) (s : AppState) (comp : LogsComponent) : Prop :=
  comp.scrollState.offset = 0 ∨
    (∀ gone ∈ (s.logEntries ++ entries).take (evictedBy entries s), comp.passes s gone = false) ∨
    ∀ kept ∈ (s.logEntries ++ entries).drop (evictedBy entries s), comp.passes s kept = false

end LogsComponent

open LogsComponent in
/-- A view that is scrolled up stays where it is over any entries that are appended exactly when
its offset means the same entry in what they leave of the log. -/
theorem view_frozen_iff {comp : LogsComponent} {s : AppState} {e : LogEntry × Nat}
    (short : s.logEntries.length ≤ logCapacity) (manual : comp.scrollState.autoScroll = false)
    (shown : (comp.drawnAt 0 s).head? = some e) (entries : List LogEntry) :
    comp.Frozen entries s e ↔ comp.KeepsPlace entries s := by
  have height := height_of_drawnAt shown
  rw [head?_drawnAt manual height] at shown
  have found : (comp.goneAt entries s ++
      comp.passingAt (evictedBy entries s) (appendLogs entries s))[comp.scrollState.offset]? =
        some e := by
    rw [goneAt_append short, List.getElem?_append_left (List.getElem?_eq_some_iff.mp shown).1, shown]
  have passed : comp.passes (appendLogs entries s) e.1 = true := by
    rw [passes_appendLogs short]
    exact (List.mem_filter.mp (List.mem_of_getElem? shown)).2
  have inside : e ∈ (appendLogs entries s).numbered (evictedBy entries s) ↔
      e ∈ comp.passingAt (evictedBy entries s) (appendLogs entries s) := by
    rw [passingAt, List.mem_filter]
    exact (and_iff_left passed).symm
  rw [Frozen, head?_drawnAt manual height, KeepsPlace, ← goneAt_eq_nil_iff,
    ← passingAt_eq_nil_iff short]
  simp only [inside]
  exact Newest.stays_iff (nodup_goneAt_append short) found

/-! ## A log at its capacity -/

namespace LogSample

/-- Scrolled to the second line of a log. -/
def secondLine : LogsComponent := ⟨⟨1, false, 10⟩, .debug, .all⟩

def fullLog : AppState :=
  { AppState.new default with logEntries := List.replicate logCapacity (entry "up") }

theorem appendLogs_fullLog : appendLogs [entry "up"] fullLog = fullLog := by
  rw [appendLogs, List.foldl_cons, List.foldl_nil, appendLog_push, Newest.push, fullLog]
  simp only [List.length_replicate, if_true]
  rw [List.tail_replicate, ← List.replicate_succ']
  rfl

theorem length_fullLog : fullLog.logEntries.length = logCapacity := List.length_replicate

theorem evictedBy_fullLog : evictedBy [entry "up"] fullLog = 1 := by
  rw [evictedBy, length_fullLog, List.length_singleton, Nat.add_sub_cancel_left]

/-- The second line that is drawn is the next one of the log, whatever its first place. -/
theorem fullLog_drawnAt (first : Nat) :
    (secondLine.drawnAt first fullLog).head? = some (entry "up", first + 1) := rfl

end LogSample

open LogSample in
theorem view_frozen_iff_fullLog : secondLine.Frozen [entry "up"] fullLog (entry "up", 1) ↔
    secondLine.KeepsPlace [entry "up"] fullLog :=
  view_frozen_iff (Nat.le_of_eq length_fullLog) rfl (fullLog_drawnAt 0) _

open LogSample in
/-- In a full log, a view of the second line is moved on by one entry. -/
theorem view_not_frozen :
    ¬∀ (comp : LogsComponent) (s : AppState) (e : LogEntry × Nat),
      s.logEntries.length ≤ logCapacity → comp.scrollState.autoScroll = false →
        (comp.drawnAt 0 s).head? = some e → ∀ entries, comp.Frozen entries s e := by
  intro each
  have frozen := each secondLine fullLog _ (Nat.le_of_eq length_fullLog) rfl (fullLog_drawnAt 0)
    [entry "up"]
  have member : (entry "up", 1) ∈ fullLog.numbered 1 := List.mem_cons_self
  rw [LogsComponent.Frozen, appendLogs_fullLog, evictedBy_fullLog, fullLog_drawnAt,
    if_pos member] at frozen
  exact absurd frozen (by decide)

end FerroWg.Tui
