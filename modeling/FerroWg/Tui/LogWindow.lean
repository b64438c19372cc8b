import FerroWg.Tui.LogFilter

/-!
# The window of the log

How many entries the logs tab draws. The offset that is stored is one among the entries that passed
when it was stored, and what passes changes with the search, the visible names and the log.
-/

namespace FerroWg.Tui

open Lib Text

namespace LogView

variable {v next : LogView}

variable (v) in
/-- As many entries are drawn as there are and fit. -/
structure Full : Prop where
  drawn : (v.logs.drawn v.state).length = min v.total v.logs.scrollState.viewHeight
  within : v.displayOffset ≤ v.maxOffset

theorem full_iff : v.Full ↔
    (v.logs.scrollState.autoScroll = false → v.logs.scrollState.offset ≤ v.maxOffset) := by
  have within : v.displayOffset ≤ v.maxOffset ↔
      (v.logs.scrollState.autoScroll = false → v.logs.scrollState.offset ≤ v.maxOffset) := by
    rw [displayOffset]
    cases auto : v.logs.scrollState.autoScroll with
    | false =>
      rw [LogsComponent.displayOffset_manual auto]
      simp only [true_imp_iff]
    | true =>
      rw [LogsComponent.displayOffset_auto auto]
      simp only [Bool.true_eq_false, false_imp_iff, iff_true]
      exact le_rfl
  rw [← within]
  constructor
  · exact Full.within
  · intro bound
    refine ⟨?_, bound⟩
    rw [maxOffset, LogsComponent.maxOffset] at bound
    rw [LogsComponent.drawn, List.length_take, List.length_drop, LogsComponent.length_passing]
    change min _ (v.total - v.displayOffset) = _
    omega

theorem full_start (config : AppConfig) (history : List BenchmarkRun) :
    (start config history).Full := by
  apply full_iff.mpr
  intro manual
  cases manual

theorem full_up_iff (full : v.Full) : (LogView.mk v.state v.logs.scrollUp).Full ↔
    v.logs.scrollState.offset ≤ v.maxOffset + 1 := by
  rw [full_iff, LogsComponent.scrollUp]
  by_cases top : 0 < v.logs.scrollState.offset
  · rw [if_pos top]
    change (false = false → v.logs.scrollState.offset - 1 ≤ v.maxOffset) ↔ _
    simp only [true_imp_iff]
    omega
  · rw [if_neg top]
    have kept := full_iff.mp full
    exact iff_of_true kept (by omega)

theorem Full.scrollDown (full : v.Full) :
    (LogView.mk v.state (v.logs.scrollDown v.total)).Full := by
  rw [full_iff, LogsComponent.scrollDown]
  split
  case isTrue more => exact fun _ => more
  case isFalse => exact full_iff.mp full

/-- Up may start from an offset stored at the end of a longer log. The other keys clamp what they
store, or go back to the end. -/
theorem Full.handleKey (full : v.Full) {key : KeyEvent} (other : ¬ScrollsUp key) :
    (LogView.mk v.state (v.logs.handleKey key v.state)).Full := by
  rw [LogsComponent.handleKey]
  split
  case h_1 code => exact absurd (.inl code) other
  case h_2 code => exact absurd (.inr code) other
  case h_3 => exact full_iff.mpr fun _ => Nat.zero_le _
  case h_4 | h_5 => exact full.scrollDown
  case h_6 | h_7 | h_8 =>
    apply full_iff.mpr
    intro manual
    cases manual
  case h_9 => exact full

variable (v) in
/-- A render draws as many entries as there are and fit in its area. -/
def RendersFull : ViewEvent → Prop
  | .render width height => ¬(height = 0 ∨ width < 20) →
      ((v.logs.render width height v.state).2).length = min v.total (height - 2) ∧
      (v.logs.render width height v.state).1.displayOffset v.total ≤ v.total - (height - 2)
  | _ => True

theorem Full.render {width height : Nat}
    (full : (LogView.mk v.state (v.logs.render width height v.state).1).Full) :
    v.RendersFull (.render width height) := by
  intro drawable
  rw [LogsComponent.render, if_neg drawable] at full ⊢
  exact ⟨full.drawn, full.within⟩

/-! ## What passes -/

section

variable {comp : LogsComponent} {e : LogEntry} {visible more : Finset String}

theorem lineMatchesSearch_shorter {line short long : String} (shorter : short.toList <+: long.toList)
    (found : lineMatchesSearch line long = true) : lineMatchesSearch line short = true := by
  rw [lineMatchesSearch, Bool.or_eq_true, decide_eq_true_eq] at found ⊢
  rcases found with rfl | inside
  · exact .inl (String.toList_inj.mp (List.prefix_nil.mp shorter))
  · exact .inr (decide_eq_true (shorter.isInfix.trans (of_decide_eq_true inside)))

/-- A search shows what a longer one does. -/
theorem shows_shorter {short long : String} (shorter : short.toList <+: long.toList)
    (passes : comp.shows (toAsciiLowercase long) visible e = true) :
    comp.shows (toAsciiLowercase short) visible e = true := by
  have lowered : (toAsciiLowercase short).toList <+: (toAsciiLowercase long).toList := by
    rw [toAsciiLowercase, toAsciiLowercase, String.toList_ofList, String.toList_ofList]
    exact shorter.map _
  simp only [LogsComponent.shows, Bool.and_eq_true] at passes ⊢
  exact ⟨⟨passes.1.1, lineMatchesSearch_shorter lowered passes.1.2⟩, passes.2⟩

theorem shows_more {search : String} (wider : visible ⊆ more)
    (passes : comp.shows search visible e = true) : comp.shows search more e = true := by
  simp only [LogsComponent.shows, Bool.and_eq_true, Bool.or_eq_true] at passes ⊢
  refine ⟨passes.1, passes.2.imp_right fun known => ?_⟩
  cases named : e.connectionName with
  | none => rfl
  | some name =>
    rw [named] at known
    exact decide_eq_true (wider (of_decide_eq_true known))

/-- The tab of every connection does not look at the visible names. -/
theorem shows_all (all : comp.connectionFilter ≠ .active) {search : String} :
    comp.shows search visible e = comp.shows search more e := by
  cases shown : comp.connectionFilter with
  | active => exact absurd shown all
  | all => simp [LogsComponent.shows, shown]

end

variable (v) in
/-- The entries of the log that pass with a search and with visible names. -/
def passingWith (query : String) (visible : Finset String) : List LogEntry :=
  v.state.logEntries.filter (v.logs.shows (toAsciiLowercase query) visible)

theorem total_eq :
    v.total = (v.passingWith v.state.searchQuery v.state.visibleConnections).length := by
  rw [total, ← LogsComponent.length_passing, LogsComponent.passing,
    LogsComponent.getFilteredEntries_eq_filter]
  rfl

/-! ## What an event leaves -/

variable (v) in
/-- With auto-scroll off, a window of so many lines from the stored offset on is within so many
entries, or begins with the first. -/
def Reaches (entries height : Nat) : Prop :=
  v.logs.scrollState.autoScroll = false →
    v.logs.scrollState.offset = 0 ∨ v.logs.scrollState.offset + height ≤ entries

theorem reaches_iff {entries height : Nat} : v.Reaches entries height ↔
    (v.logs.scrollState.autoScroll = false → v.logs.scrollState.offset ≤ entries - height) := by
  apply imp_congr_right
  intro _
  omega

theorem Reaches.mono {entries more height less : Nat} (reaches : v.Reaches entries height)
    (grown : entries ≤ more) (lower : less ≤ height) : v.Reaches more less := by
  intro manual
  have inside := reaches manual
  omega

theorem full_iff_reaches : v.Full ↔ v.Reaches v.total v.logs.scrollState.viewHeight :=
  full_iff.trans reaches_iff.symm

theorem full_withState_iff {s : AppState} (log : s.logEntries = v.state.logEntries) :
    (LogView.mk s v.logs).Full ↔
      v.Reaches (v.passingWith s.searchQuery s.visibleConnections).length
        v.logs.scrollState.viewHeight := by
  rw [full_iff_reaches, total_eq, passingWith, log]
  rfl

/-- Where all that passed passes still, the window is as full as before. -/
theorem Full.withState (full : v.Full) {s : AppState} (log : s.logEntries = v.state.logEntries)
    (wider : ∀ e, v.logs.passes v.state e = true → v.logs.passes s e = true) :
    (LogView.mk s v.logs).Full := by
  rw [full_withState_iff log]
  rw [full_iff_reaches, total_eq] at full
  exact full.mono (List.monotone_filter_right v.state.logEntries wider).length_le le_rfl

theorem full_render_iff (full : v.Full) (width height : Nat) :
    (LogView.mk v.state (v.logs.render width height v.state).1).Full ↔
      (¬(height = 0 ∨ width < 20) → v.logs.scrollState.viewHeight < height - 2 →
        v.Reaches v.total (height - 2)) := by
  rw [LogsComponent.render]
  split
  case isTrue small => exact iff_of_true full fun drawn => absurd small drawn
  case isFalse drawn =>
    rw [imp_iff_right drawn]
    refine full_iff_reaches.trans ⟨fun reaches _ => reaches, fun grown => ?_⟩
    by_cases larger : v.logs.scrollState.viewHeight < height - 2
    · exact grown larger
    · exact (full_iff_reaches.mp full).mono le_rfl (not_lt.mp larger)

/-- A full log drops its oldest entry. -/
theorem total_append (entry : LogEntry) :
    (LogView.mk (appendLog entry v.state) v.logs).total =
      ((if v.state.logEntries.length = logCapacity then v.state.logEntries.drop 1
        else v.state.logEntries).filter (v.logs.passes v.state)).length +
        if v.logs.passes v.state entry then 1 else 0 := by
  rw [total_eq, passingWith, appendLog]
  change ((_ ++ [entry]).filter (v.logs.passes v.state)).length = _
  rw [List.filter_append, List.length_append]
  congr 1
  cases passes : v.logs.passes v.state entry <;> simp [passes]

theorem full_append_iff (full : v.Full) (entry : LogEntry) :
    (LogView.mk (appendLog entry v.state) v.logs).Full ↔
      (v.state.logEntries.length = logCapacity →
        ∀ oldest ∈ v.state.logEntries.head?, v.logs.passes v.state oldest = true →
          v.logs.passes v.state entry = false →
          v.Reaches (v.total - 1) v.logs.scrollState.viewHeight) := by
  have before : v.total = (v.state.logEntries.filter (v.logs.passes v.state)).length := total_eq
  rw [full_iff_reaches] at full
  rw [full_iff_reaches, total_append]
  change v.Reaches _ v.logs.scrollState.viewHeight ↔ _
  by_cases capacity : v.state.logEntries.length = logCapacity
  case neg =>
    rw [if_neg capacity, ← before]
    exact iff_of_true (full.mono (Nat.le_add_right _ _) le_rfl) fun there => absurd there capacity
  rw [if_pos capacity, imp_iff_right capacity]
  cases log : v.state.logEntries with
  | nil =>
    rw [log] at capacity
    cases capacity
  | cons oldest rest =>
    rw [log, List.filter_cons] at before
    simp only [List.head?_cons, Option.mem_some_iff, forall_eq', List.drop_one, List.tail_cons]
    cases gone : v.logs.passes v.state oldest <;> cases new : v.logs.passes v.state entry
    case true.false =>
      simp only [gone, if_true, List.length_cons] at before
      simp [before]
    all_goals
      refine iff_of_true (full.mono ?_ le_rfl) (by simp)
      simp only [gone, if_true, Bool.false_eq_true, if_false, List.length_cons] at before
      simp [before]

theorem Full.withVisible (full : v.Full) {s : AppState} (all : v.logs.connectionFilter ≠ .active)
    (log : s.logEntries = v.state.logEntries) (search : s.searchQuery = v.state.searchQuery) :
    (LogView.mk s v.logs).Full := by
  refine full.withState log fun e passes => ?_
  rw [LogsComponent.passes, search]
  exact (shows_all all).trans passes

/-- Hiding a name matters to a tab of the visible connections. -/
theorem full_toggle_iff (full : v.Full) (name : String) :
    (LogView.mk (toggleVisibility name v.state) v.logs).Full ↔
      (v.logs.connectionFilter = .active → name ∈ v.state.visibleConnections →
        v.Reaches (v.passingWith v.state.searchQuery
          (v.state.visibleConnections.erase name)).length v.logs.scrollState.viewHeight) := by
  by_cases active : v.logs.connectionFilter = .active
  case neg =>
    exact iff_of_true (full.withVisible active rfl rfl) fun there => absurd there active
  rw [imp_iff_right active]
  by_cases shown : name ∈ v.state.visibleConnections
  · rw [imp_iff_right shown]
    refine (full_withState_iff (v := v) (s := toggleVisibility name v.state) rfl).trans ?_
    rw [toggleVisibility, if_pos shown]
  · refine iff_of_true (full.withState rfl fun e passes => ?_) fun there => absurd there shown
    rw [toggleVisibility, if_neg shown]
    exact shows_more (Finset.subset_insert name _) passes

theorem allVisible_views (config : AppConfig) :
    allVisible (connectionViews config) = config.connectionNames.toFinset := by
  rw [allVisible, ← connectionViews_names]

theorem full_reload_iff (full : v.Full) (config : AppConfig) :
    (LogView.mk (v.state.reloadFromConfig config) v.logs).Full ↔
      (v.logs.connectionFilter = .active →
        v.Reaches (v.passingWith v.state.searchQuery config.connectionNames.toFinset).length
          v.logs.scrollState.viewHeight) := by
  by_cases active : v.logs.connectionFilter = .active
  · rw [imp_iff_right active, ← allVisible_views]
    exact full_withState_iff (v := v) (s := v.state.reloadFromConfig config) rfl
  · exact iff_of_true (full.withVisible active rfl rfl) fun there => absurd there active

/-- A search that is emptied or shortened lets pass what passed. -/
theorem Full.search (full : v.Full) {s : AppState} (log : s.logEntries = v.state.logEntries)
    (visible : s.visibleConnections = v.state.visibleConnections)
    (shorter : s.searchQuery.toList <+: v.state.searchQuery.toList) :
    (LogView.mk s v.logs).Full := by
  refine full.withState log fun e passes => ?_
  rw [LogsComponent.passes, visible]
  exact shows_shorter shorter passes

variable [Externals]

/-- The state before each event: Up starts at most one line beyond the last full window; the area
grows, a log at its capacity takes up an entry that does not pass for one that did, the search is
typed on, a name is hidden or the configuration reloaded, in a tab of the visible connections, only
where a window from the stored offset on is within what passes then. -/
def KeepsFull (v : LogView) : ViewEvent → Prop
  | .key key => ScrollsUp key → v.logs.scrollState.offset ≤ v.maxOffset + 1
  | .render width height => ¬(height = 0 ∨ width < 20) →
      v.logs.scrollState.viewHeight < height - 2 → v.Reaches v.total (height - 2)
  | .append entry => v.state.logEntries.length = logCapacity →
      ∀ oldest ∈ v.state.logEntries.head?, v.logs.passes v.state oldest = true →
        v.logs.passes v.state entry = false →
        v.Reaches (v.total - 1) v.logs.scrollState.viewHeight
  | .act _ (.searchInput c) =>
      v.Reaches (v.passingWith (v.state.searchQuery.push c) v.state.visibleConnections).length
        v.logs.scrollState.viewHeight
  | .act _ (.toggleConnectionVisibility name) => v.logs.connectionFilter = .active →
      name ∈ v.state.visibleConnections →
        v.Reaches (v.passingWith v.state.searchQuery
          (v.state.visibleConnections.erase name)).length v.logs.scrollState.viewHeight
  | .act _ _ => True
  | .reload config => v.logs.connectionFilter = .active →
      v.Reaches (v.passingWith v.state.searchQuery config.connectionNames.toFinset).length
        v.logs.scrollState.viewHeight

theorem full_act_iff (full : v.Full) {now : Clock} {action : Action} {s : AppState}
    (taken : dispatch now action v.state = some s) :
    (LogView.mk s v.logs).Full ↔ v.KeepsFull (.act now action) := by
  cases action with
  | searchInput c =>
    cases taken
    exact full_withState_iff (v := v) rfl
  | toggleConnectionVisibility name =>
    cases taken
    exact full_toggle_iff full name
  | enterSearch | clearSearch =>
    cases taken
    exact iff_of_true (full.search rfl rfl (List.nil_prefix ..)) trivial
  | searchBackspace =>
    cases taken
    refine iff_of_true (full.search rfl rfl ?_) trivial
    change (pop v.state.searchQuery).toList <+: _
    rw [pop, String.toList_ofList]
    exact List.dropLast_prefix _
  | _ =>
    have log := dispatch_writes .log (by simp [Action.writes]) taken
    have search := dispatch_writes .search (by simp [Action.writes]) taken
    have visible := dispatch_writes .visible (by simp [Action.writes]) taken
    refine iff_of_true (full.withState log fun e passes => ?_) trivial
    rwa [LogsComponent.passes, search, visible]

theorem full_step_iff {event : ViewEvent} (full : v.Full) (taken : v.step event = some next) :
    next.Full ↔ v.KeepsFull event := by
  cases event with
  | key key =>
    obtain rfl := Option.some.inj taken
    by_cases up : ScrollsUp key
    · rw [LogsComponent.handleKey_up up, full_up_iff full, KeepsFull]
      exact (imp_iff_right up).symm
    · exact iff_of_true (full.handleKey up) fun up' => absurd up' up
  | render width height =>
    obtain rfl := Option.some.inj taken
    exact full_render_iff full width height
  | append entry =>
    obtain rfl := Option.some.inj taken
    exact full_append_iff full entry
  | act now action =>
    obtain ⟨s, dispatched, rfl⟩ := Option.map_eq_some_iff.mp taken
    exact full_act_iff full dispatched
  | reload config =>
    obtain rfl := Option.some.inj taken
    exact full_reload_iff full config

/-- Over any run, the window is full in every state, and at every render with it, exactly when
each event comes to a state that keeps it full. -/
theorem log_window_full_iff (config : AppConfig) (history : List BenchmarkRun)
    (events : List ViewEvent) :
    (Always step Full events (start config history) ↔
      Along step KeepsFull events (start config history)) ∧
    (Along step KeepsFull events (start config history) →
      Along step RendersFull events (start config history)) := by
  have full_iff_kept : Always step Full events (start config history) ↔
      Along step KeepsFull events (start config history) :=
    always_iff_of_step (fun _ _ _ full taken => full_step_iff full taken) events
      (full_start config history)
  refine ⟨full_iff_kept, fun kept => along_of_always ?_ (full_iff_kept.mpr kept)⟩
  intro v event next _ taken full
  cases event with
  | render width height =>
    obtain rfl := Option.some.inj taken
    exact full.render
  | key key => trivial
  | append entry => trivial
  | act now action => trivial
  | reload config => trivial

end LogView

open LogSample in
/-- Scrolled up by a line from the end of three, a search that leaves one line shows none. -/
theorem search_empties_window :
    ¬∀ config history events, Along (@LogView.step externals) LogView.RendersFull events
      (LogView.start config history) := by
  intro each
  have ran := each default [] (threeLines ++ [.key ⟨.char 'G', false⟩, .key ⟨.up, false⟩,
    .act ⟨0, 0⟩ .enterSearch, .act ⟨0, 0⟩ (.searchInput 'w'), .render 80 3])
  have scrolled := ((((((ran _ rfl).2 _ rfl).2 _ rfl).2 _ rfl).2 _ rfl).2 _ rfl).2
  have searched := ((((scrolled _ rfl).2 _ rfl).2) _ rfl).1
  have drawn := (searched (by decide)).1
  exact absurd drawn (by decide)

end FerroWg.Tui
