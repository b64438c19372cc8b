import FerroWg.Tui.LogEntries

/-!
# The filters of the log

Which entries are shown: by level, by connection and by a search. A trace entry passes every level,
and an entry of no connection every choice of connections.
-/

namespace FerroWg.Tui

open Lib

namespace LogFilter

def entryPassesFilter (entry : LogEntry) (minLevel : LogLevel) (connectionFilter : ConnectionFilter)
    (activeConnection : Option String) : Bool :=
  let levelOk := entry.level = .trace || LogLevel.severity minLevel ≤ LogLevel.severity entry.level
  let connOk := match connectionFilter with
    | .all => true
    | .active =>
      entry.connectionName.isNone ||
        activeConnection.any fun name => entry.connectionName = some name
  levelOk && connOk

def filteredLines (buf : List LogEntry) (search : String) (minLevel : LogLevel)
    (connectionFilter : ConnectionFilter) (activeConnection : Option String) : List LogEntry :=
  if minLevel = .debug ∧ search = "" ∧ connectionFilter = .all then buf
  else buf.filter fun e =>
    entryPassesFilter e minLevel connectionFilter activeConnection &&
      lineMatchesSearch e.message search

variable {buf : List LogEntry} {search : String} {minLevel : LogLevel}

/-- What is no less than `debug` is everything but what always passes. -/
theorem levelOk_debug (level : LogLevel) :
    (level = .trace || LogLevel.severity .debug ≤ LogLevel.severity level) = true := by
  cases level <;> rfl

/-- The fast path is taken where every entry passes. -/
theorem filteredLines_eq_filter (connectionFilter : ConnectionFilter)
    (activeConnection : Option String) :
    filteredLines buf search minLevel connectionFilter activeConnection = buf.filter fun e =>
      entryPassesFilter e minLevel connectionFilter activeConnection &&
        lineMatchesSearch e.message search := by
  rw [filteredLines]
  split
  case isFalse => rfl
  case isTrue unfiltered =>
    obtain ⟨rfl, rfl, rfl⟩ := unfiltered
    symm
    apply List.filter_eq_self.mpr
    intro e _
    rw [entryPassesFilter, levelOk_debug]
    rfl

/-- The first stage of the tab is the filter for every connection. -/
theorem filteredLines_all (activeConnection : Option String) :
    Tui.filteredLines buf search minLevel =
      filteredLines buf search minLevel .all activeConnection := by
  rw [Tui.filteredLines, filteredLines]
  simp only [entryPassesFilter, Bool.and_true, and_true]

end LogFilter

namespace LogsComponent

/-- Whether an entry is shown for a search, in a tab that shows the visible connections. -/
def shows (search : String) (visible : Finset String) (comp : LogsComponent) (e : LogEntry) : Bool :=
  (e.level = .trace || LogLevel.severity comp.minLevel ≤ LogLevel.severity e.level) &&
    lineMatchesSearch e.message search &&
    (comp.connectionFilter = .all || e.connectionName.all (· ∈ visible))

/-- Whether an entry passes the filters of a state. -/
def passes (s : AppState) (comp : LogsComponent) (e : LogEntry) : Bool :=
  comp.shows (Text.toAsciiLowercase s.searchQuery) s.visibleConnections e

variable {buf : List LogEntry} {search : String} {visible : Finset String} {comp : LogsComponent}

/-- The two stages of the tab as one. -/
theorem getFilteredEntries_eq_filter :
    comp.getFilteredEntries buf search visible = buf.filter (comp.shows search visible) := by
  rw [getFilteredEntries, LogFilter.filteredLines_all none, LogFilter.filteredLines_eq_filter]
  cases shown : comp.connectionFilter with
  | all =>
    apply List.filter_congr
    intro e _
    simp [shows, LogFilter.entryPassesFilter, shown]
  | active =>
    rw [List.filter_filter]
    apply List.filter_congr
    intro e _
    simp [shows, LogFilter.entryPassesFilter, shown, Bool.and_comm]

theorem getFilteredEntries_singleton (active : comp.connectionFilter = .active) (name : String) :
    comp.getFilteredEntries buf search {name} =
      LogFilter.filteredLines buf search comp.minLevel .active (some name) := by
  rw [getFilteredEntries_eq_filter, LogFilter.filteredLines_eq_filter]
  apply List.filter_congr
  intro e _
  rw [shows, LogFilter.entryPassesFilter, active]
  cases e.connectionName <;> simp [Bool.and_right_comm]

theorem getFilteredEntries_of_visible
    (named : ∀ e ∈ buf, ∀ name ∈ e.connectionName, name ∈ visible) (active : Option String) :
    comp.getFilteredEntries buf search visible =
      LogFilter.filteredLines buf search comp.minLevel .all active := by
  rw [getFilteredEntries_eq_filter, LogFilter.filteredLines_eq_filter]
  apply List.filter_congr
  intro e member
  have seen : e.connectionName.all (· ∈ visible) = true := by
    rw [Option.all_eq_true]
    intro name found
    exact decide_eq_true (named e member name found)
  rw [shows, LogFilter.entryPassesFilter, seen, Bool.or_true, Bool.and_true, Bool.and_true]

end LogsComponent

/-- Every way to filter the log shows the entries that pass each predicate, in order. -/
theorem log_filters_agree (buf : List LogEntry) (search : String) :
    (∀ minLevel connectionFilter activeConnection,
      LogFilter.filteredLines buf search minLevel connectionFilter activeConnection =
        buf.filter fun e =>
          LogFilter.entryPassesFilter e minLevel connectionFilter activeConnection &&
            lineMatchesSearch e.message search) ∧
    ∀ comp : LogsComponent,
      (∀ visible, comp.getFilteredEntries buf search visible =
        buf.filter (comp.shows search visible)) ∧
      (comp.connectionFilter = .active → ∀ name, comp.getFilteredEntries buf search {name} =
        LogFilter.filteredLines buf search comp.minLevel .active (some name)) ∧
      ∀ visible, (∀ e ∈ buf, ∀ name ∈ e.connectionName, name ∈ visible) →
        ∀ activeConnection, comp.getFilteredEntries buf search visible =
          LogFilter.filteredLines buf search comp.minLevel .all activeConnection := by
  refine ⟨fun minLevel => LogFilter.filteredLines_eq_filter, fun comp => ⟨?_, ?_, ?_⟩⟩
  · exact fun visible => LogsComponent.getFilteredEntries_eq_filter
  · exact LogsComponent.getFilteredEntries_singleton
  · exact fun visible => LogsComponent.getFilteredEntries_of_visible

namespace LogSample

def named (name message : String) : LogEntry := { entry message with connectionName := some name }

/-- An entry of no connection, and one of each of two. -/
def three : List LogEntry := [entry "up", named "mia" "up", named "ord1" "up"]

end LogSample

open LogSample in
/-- With one of two names visible, and with both. -/
theorem log_filters_agree_active :
    let comp := LogsComponent.mk ⟨0, true, 0⟩ .info .active
    comp.getFilteredEntries three "" {"mia"} =
        LogFilter.filteredLines three "" .info .active (some "mia") ∧
      comp.getFilteredEntries three "" {"mia"} = [entry "up", named "mia" "up"] ∧
      comp.getFilteredEntries three "" {"mia", "ord1"} =
        LogFilter.filteredLines three "" .info .all none ∧
      comp.getFilteredEntries three "" {"mia", "ord1"} = three := by
  intro comp
  obtain ⟨-, single, all⟩ := (log_filters_agree three "").2 comp
  refine ⟨single rfl "mia", ?_, all {"mia", "ord1"} ?_ none, ?_⟩
  · rw [single rfl]
    decide +kernel
  · simp [three, entry, named]
  · rw [all {"mia", "ord1"} (by simp [three, entry, named]) none]
    decide +kernel

end FerroWg.Tui
