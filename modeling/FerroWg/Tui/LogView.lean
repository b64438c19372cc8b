import FerroWg.Tui.Simulation

/-!
# The log view

What the logs tab draws, and how its keys, the log and the filters move it. The offset that a key
moves is the stored one; the offset that is drawn is the end of the log while auto-scroll is on.
-/

namespace FerroWg.Tui

open Lib Text

def blockBorderHeight : Nat := 2
def logCapacity : Nat := 1000

def appendLog (entry : LogEntry) (s : AppState) : AppState :=
  let kept := if s.logEntries.length = logCapacity then s.logEntries.drop 1 else s.logEntries
  { s with logEntries := kept ++ [entry] }

def ScrollsUp (key : KeyEvent) : Prop := key.code = .up ∨ key.code = .char 'k'

def ScrollsDown (key : KeyEvent) : Prop := key.code = .down ∨ key.code = .char 'j'

namespace LogsComponent

def getFilteredEntries (buf : List LogEntry) (search : String) (visibleConnections : Finset String)
    (comp : LogsComponent) : List LogEntry :=
  let filtered := filteredLines buf search comp.minLevel
  match comp.connectionFilter with
  | .all => filtered
  | .active => filtered.filter fun e => e.connectionName.all (· ∈ visibleConnections)

/-- The entries that pass the filters of a state. -/
def passing (s : AppState) (comp : LogsComponent) : List LogEntry :=
  comp.getFilteredEntries s.logEntries (toAsciiLowercase s.searchQuery) s.visibleConnections

theorem length_passing (s : AppState) (comp : LogsComponent) :
    (comp.passing s).length = comp.filteredTotal s := by
  rw [passing, getFilteredEntries, filteredTotal]
  cases comp.connectionFilter <;> rfl

theorem getFilteredEntries_append (buf more : List LogEntry) (search : String)
    (visible : Finset String) (comp : LogsComponent) :
    comp.getFilteredEntries (buf ++ more) search visible =
      comp.getFilteredEntries buf search visible ++
        comp.getFilteredEntries more search visible := by
  have lines : filteredLines (buf ++ more) search comp.minLevel =
      filteredLines buf search comp.minLevel ++ filteredLines more search comp.minLevel := by
    simp only [filteredLines]
    split
    · rfl
    · rw [List.filter_append]
  rw [getFilteredEntries, getFilteredEntries, getFilteredEntries, lines]
  cases comp.connectionFilter with
  | all => rfl
  | active => exact List.filter_append ..

/-- The greatest offset at which a drawing is still filled. -/
def maxOffset (total : Nat) (comp : LogsComponent) : Nat := total - comp.scrollState.viewHeight

def displayOffset (total : Nat) (comp : LogsComponent) : Nat :=
  if comp.scrollState.autoScroll then total - comp.scrollState.viewHeight
  else comp.scrollState.offset

/-- The lines of entries. -/
def drawn (s : AppState) (comp : LogsComponent) : List LogEntry :=
  ((comp.passing s).drop (comp.displayOffset (comp.filteredTotal s))).take
    comp.scrollState.viewHeight

/-- The entries that are drawn; an area that is too small is left as it is. -/
def render (width height : Nat) (s : AppState) (comp : LogsComponent) :
    LogsComponent × List LogEntry :=
  if height = 0 ∨ width < 20 then (comp, [])
  else
    let comp := { comp with
      scrollState := { comp.scrollState with viewHeight := height - blockBorderHeight } }
    (comp, comp.drawn s)

variable {comp : LogsComponent} {total : Nat}

theorem displayOffset_auto (auto : comp.scrollState.autoScroll = true) :
    comp.displayOffset total = comp.maxOffset total := if_pos auto

theorem displayOffset_manual (manual : comp.scrollState.autoScroll = false) :
    comp.displayOffset total = comp.scrollState.offset := by
  rw [displayOffset, manual, if_neg Bool.false_ne_true]

@[simp] theorem displayOffset_scrollTo {offset : Nat} :
    (comp.scrollTo offset).displayOffset total = offset := rfl

/-! ## One key -/

theorem handleKey_up {key : KeyEvent} (up : ScrollsUp key) (s : AppState) :
    comp.handleKey key s = comp.scrollUp := by
  rcases up with code | code <;> simp [handleKey, code]

theorem handleKey_down {key : KeyEvent} (down : ScrollsDown key) (s : AppState) :
    comp.handleKey key s = comp.scrollDown (comp.filteredTotal s) := by
  rcases down with code | code <;> simp [handleKey, code]

theorem scrollUp_offset_iff :
    comp.scrollUp.displayOffset total = comp.displayOffset total - 1 ↔
      (comp.scrollState.autoScroll → comp.scrollState.offset = comp.maxOffset total ∨
        comp.maxOffset total = 0 ∧ comp.scrollState.offset = 1) := by
  rw [scrollUp]
  cases auto : comp.scrollState.autoScroll with
  | false =>
    simp only [Bool.false_eq_true, false_imp_iff, iff_true]
    rw [displayOffset_manual auto]
    split
    · rw [displayOffset_scrollTo]
    · rw [displayOffset_manual auto]
      omega
  | true =>
    simp only [true_imp_iff]
    rw [displayOffset_auto auto]
    split
    · rw [displayOffset_scrollTo]
      omega
    · rw [displayOffset_auto auto]
      omega

theorem scrollDown_offset_iff :
    (comp.scrollDown total).displayOffset total =
        min (comp.displayOffset total + 1) (comp.maxOffset total) ↔
      if comp.scrollState.autoScroll then comp.maxOffset total ≤ comp.scrollState.offset + 1
      else comp.scrollState.offset ≤ comp.maxOffset total := by
  have same : total - comp.scrollState.viewHeight = comp.maxOffset total := rfl
  rw [scrollDown, same]
  cases auto : comp.scrollState.autoScroll with
  | false =>
    rw [displayOffset_manual auto, if_neg Bool.false_ne_true]
    split
    · rw [displayOffset_scrollTo]
      omega
    · rw [displayOffset_manual auto]
      omega
  | true =>
    rw [displayOffset_auto auto, if_pos rfl]
    split
    · rw [displayOffset_scrollTo]
      omega
    · rw [displayOffset_auto auto]
      omega

end LogsComponent

/-! ## Runs of the view -/

inductive ViewEvent where
  | key (key : KeyEvent)
  | render (width height : Nat)
  | append (entry : LogEntry)
  | act (now : Clock) (action : Action)
  | reload (config : AppConfig)

structure LogView where
  state : AppState
  logs : LogsComponent

def Loop.view (l : Loop) : LogView := ⟨l.state, l.bundle.logs⟩

namespace LogView

def start (config : AppConfig) (history : List BenchmarkRun) : LogView :=
  (Loop.start config history).view

section

variable [Externals]

/-- Any action may come from another tab or an overlay, and any entry from the log stream. -/
def step (v : LogView) : ViewEvent → Option LogView
  | .key key => some { v with logs := v.logs.handleKey key v.state }
  | .render width height => some { v with logs := (v.logs.render width height v.state).1 }
  | .append entry => some { v with state := appendLog entry v.state }
  | .act now action => (dispatch now action v.state).map fun s => { v with state := s }
  | .reload config => some { v with state := v.state.reloadFromConfig config }

end

variable (v : LogView)

def total : Nat := v.logs.filteredTotal v.state

def maxOffset : Nat := v.logs.maxOffset v.total

def displayOffset : Nat := v.logs.displayOffset v.total

/-- A scroll key moves what is shown by a line, within the entries. -/
def OneLine : ViewEvent → Prop
  | .key key =>
    let shown := (v.logs.handleKey key v.state).displayOffset v.total
    (ScrollsUp key → shown = v.displayOffset - 1) ∧
      (ScrollsDown key → shown = min (v.displayOffset + 1) v.maxOffset)
  | _ => True

/-- The offset that a scroll key starts from is the one that is shown, or one from which it comes
to the same line. -/
def OffsetKept : ViewEvent → Prop
  | .key key =>
    (ScrollsUp key → v.logs.scrollState.autoScroll → v.logs.scrollState.offset = v.maxOffset ∨
      v.maxOffset = 0 ∧ v.logs.scrollState.offset = 1) ∧
    (ScrollsDown key →
      if v.logs.scrollState.autoScroll then v.maxOffset ≤ v.logs.scrollState.offset + 1
      else v.logs.scrollState.offset ≤ v.maxOffset)
  | _ => True

variable {v}

theorem oneLine_iff (event : ViewEvent) : v.OneLine event ↔ v.OffsetKept event := by
  cases event with
  | key key =>
    apply and_congr
    · apply imp_congr_right
      intro up
      rw [LogsComponent.handleKey_up up]
      exact LogsComponent.scrollUp_offset_iff
    · apply imp_congr_right
      intro down
      rw [LogsComponent.handleKey_down down]
      exact LogsComponent.scrollDown_offset_iff
  | render width height => rfl
  | append entry => rfl
  | act now action => rfl
  | reload config => rfl

variable [Externals]

/-- Over any run, each scroll key moves the view by one line exactly when the stored offset it
starts from has kept up with the one shown. -/
theorem scroll_one_line_iff (config : AppConfig) (history : List BenchmarkRun)
    (events : List ViewEvent) :
    Along step OneLine events (start config history) ↔
      Along step OffsetKept events (start config history) :=
  along_congr (fun _ _ _ _ _ => trivial) (fun _ event _ _ _ => oneLine_iff event) events trivial

end LogView

namespace LogSample

@[reducible] def externals : Externals := .tabulated [] [] []

def entry (message : String) : LogEntry := ⟨0, .info, none, message⟩

/-- Three entries, and room for one. -/
def threeLines : List ViewEvent :=
  [.append (entry "up"), .append (entry "down"), .append (entry "idle"), .render 80 3]

end LogSample

open LogSample in
/-- The first press of Up shows the last line still. -/
theorem scroll_not_one_line :
    ¬∀ config history events, Along (@LogView.step externals) LogView.OneLine events
      (LogView.start config history) := by
  intro each
  have ran := each default [] (threeLines ++ [.key ⟨.up, false⟩])
  have pressed := ((((ran _ rfl).2 _ rfl).2 _ rfl).2 _ rfl).2 _ rfl
  have moved := pressed.1.1 (.inl rfl)
  exact absurd moved (by decide)

/-! ## The view in the program -/

section

variable [Externals]

theorem view_dispatchAll {now : Clock} {action : Action} {l next : Loop}
    (taken : dispatchAll now action l = some next) :
    l.view.step (.act now action) = some next.view := by
  obtain ⟨s, dispatched, updated⟩ := Option.bind_eq_some_iff.mp taken
  obtain ⟨bundle, bundled, rfl⟩ := Option.map_eq_some_iff.mp updated
  obtain ⟨config, _, rfl⟩ := Option.map_eq_some_iff.mp bundled
  exact Option.map_eq_some_iff.mpr ⟨s, dispatched, rfl⟩

/-- What is proved of the runs of the view is proved of those of the program. -/
theorem view_simulates : Simulates LogView.step Loop.view where
  dispatched {now action l next} taken :=
    ⟨[.act now action], by rw [run_cons, view_dispatchAll taken, Option.bind_some, run_nil]⟩
  resolved {key l bundle made} resolved := by
    rcases resolveKey_bundle resolved with rfl | ⟨config, _, rfl⟩ | rfl
    · exact ⟨[], rfl⟩
    · exact ⟨[], rfl⟩
    · exact ⟨[.key key], rfl⟩
  reloaded config l := ⟨[.reload config], rfl⟩

end

end FerroWg.Tui
