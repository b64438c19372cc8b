import FerroWg.Tui.Statuses
import FerroWg.Tui.Visible

/-!
# The connection filter

While the overlay is shown it takes every key. It moves its own cursor with the row actions, and
these are dispatched to all components, whose tables move with it.
-/

namespace FerroWg.Tui

open Lib

/-- The loop without what the overlay is there to change. -/
def Loop.outsideOverlay (l : Loop) : Loop :=
  ⟨{ l.state with connectionFilterSearch := "", visibleConnections := ∅ },
    { l.bundle with connectionFilter := none }⟩

def Loop.OverlayShown (l : Loop) : Prop := l.state.showConnectionFilter = true

/-- The actions that are all inside: what is typed, and what is toggled. -/
def IsInner : Action → Prop
  | .setConnectionFilterSearch _ | .toggleConnectionVisibility _ => True
  | _ => False

/-- A table stays where its row is moved to itself. -/
theorem moved_stays {f : Nat → Nat} {edge : Nat} (fixed : ∀ row, f row = row ↔ row = edge)
    {table : TableState} : some (f (table.getD 0)) = table ↔ table = some edge := by
  cases table with
  | none => simp
  | some row =>
    rw [Option.getD_some, Option.some.injEq, Option.some.injEq]
    exact fixed row

/-- A table that follows `NextRow` without moving is at its last row. -/
theorem nextRow_stays {rows : Nat} {table : TableState} :
    table.update rows .nextRow = table ↔ table = some (rows - 1) := by
  have fixed (row : Nat) : min (row + 1) (rows - 1) = row ↔ row = rows - 1 := by omega
  exact moved_stays fixed

theorem prevRow_stays {rows : Nat} {table : TableState} :
    table.update rows .prevRow = table ↔ table = some 0 := by
  have fixed (row : Nat) : row - 1 = row ↔ row = 0 := by omega
  exact moved_stays fixed

section

variable [Externals]

/-- The tables that follow the row actions, with their numbers of rows. -/
def ComponentBundle.rowTables (s : AppState) (bundle : ComponentBundle) :
    List (TableState × Nat) :=
  [(bundle.overview, (visibleViews s).length), (bundle.status, (visibleViews s).length),
    (bundle.peers, (filteredPeers s).length),
    if s.compareView = .live then (bundle.compareTable, benchmarkBackends.length)
    else (bundle.compareList, s.benchmarkHistory.length)]

/-- The handling of a key, as a step. -/
def Loop.keyed (l : Loop) (event : Clock × KeyEvent) : Option Loop := l.step (.key event.1 event.2)

/-- A key that moves no table but the overlay's: Down finds all others at their last rows, Up at
their first. Where the help is shown as well, it takes the keys, and none that closes it comes. -/
def KeepsToOverlay (l : Loop) (event : Clock × KeyEvent) : Prop :=
  if l.state.showHelp then event.2.code ∉ [.esc, .char '?', .char 'q']
  else match event.2.code with
    | .down => ∀ t ∈ l.bundle.rowTables l.state, t.1 = some (t.2 - 1)
    | .up => ∀ t ∈ l.bundle.rowTables l.state, t.1 = some 0
    | _ => True

/-- The row actions are followed by every table that is not of the other comparison. -/
theorem rowAction_outside {action : Action} (row : action = .nextRow ∨ action = .prevRow)
    (now : Clock) (l : Loop) : ∃ next, dispatchAll now action l = some next ∧
      (next.outsideOverlay = l.outsideOverlay ↔
        ∀ t ∈ l.bundle.rowTables l.state, TableState.update t.2 action t.1 = t.1) := by
  have moved : dispatchAll now action l = (l.bundle.update action l.state).map (⟨l.state, ·⟩) := by
    rcases row with rfl | rfl <;> rfl
  have updated : l.bundle.config.update action l.state = some l.bundle.config := by
    rcases row with rfl | rfl <;> rfl
  rw [moved, ComponentBundle.update, updated]
  refine ⟨_, rfl, ?_⟩
  rw [Loop.outsideOverlay, Loop.outsideOverlay, ComponentBundle.rowTables]
  by_cases live : l.state.compareView = .live
  · simp [live]
  · have historical : l.state.compareView = .historical := by
      cases view : l.state.compareView with
      | live => exact absurd view live
      | historical => rfl
    simp [historical]

theorem Loop.keyed_of_none {l : Loop} {now : Clock} {key : KeyEvent}
    (resolved : resolveKey key l = some (l.bundle, none)) : l.keyed (now, key) = some l := by
  rw [Loop.keyed, Loop.step, handleKeyEvent, resolved]
  rfl

/-- A key that leads to an action that nothing follows. -/
theorem Loop.keyed_of_some {l : Loop} {now : Clock} {key : KeyEvent} {action : Action}
    (resolved : resolveKey key l = some (l.bundle, some action))
    (alone : followUp action l.state = none) :
    l.keyed (now, key) = dispatchAll now action l := by
  have performed := performEach_map now [action] l
  rw [Loop.keyed, Loop.step, handleKeyEvent, resolved, Option.bind_some]
  simp only [handleAction, alone, Option.toList_none, Option.map_map, Function.comp_def, performed]
  rw [dispatchEach]
  cases dispatchAll now action l <;> rfl

theorem resolveKey_help {l : Loop} (help : l.state.showHelp = true) (key : KeyEvent) :
    resolveKey key l = some (l.bundle, helpOverlayHandleKey key l.state) := by
  rw [resolveKey, if_pos help]

theorem resolveKey_overlay {l : Loop} (noHelp : l.state.showHelp = false)
    (shown : l.OverlayShown) (key : KeyEvent) : resolveKey key l =
      some (l.bundle, connectionFilterHandleKey key l.state l.bundle.connectionFilter) := by
  rw [Loop.OverlayShown] at shown
  rw [resolveKey, noHelp, if_neg Bool.false_ne_true, if_pos shown]

theorem inner_outside {action : Action} (inner : IsInner action) (now : Clock) (l : Loop) :
    ∃ next, dispatchAll now action l = some next ∧ next.outsideOverlay = l.outsideOverlay := by
  have still (s : AppState) : l.bundle.update action s =
      some { l.bundle with
        connectionFilter := connectionFilterUpdate action s l.bundle.connectionFilter } := by
    cases action with
    | setConnectionFilterSearch | toggleConnectionVisibility =>
      simp [ComponentBundle.update, TableState.update, ConfigComponent.update]
    | _ => cases inner
  cases action with
  | setConnectionFilterSearch | toggleConnectionVisibility =>
    rw [dispatchAll, dispatch, Option.bind_some, still, Option.map_some]
    exact ⟨_, rfl, rfl⟩
  | _ => cases inner

theorem connectionFilter_inner {key : KeyEvent} {s : AppState} {table : TableState}
    (plain : key.code ∉ [.esc, .up, .down]) {action : Action}
    (made : connectionFilterHandleKey key s table = some action) : IsInner action := by
  rw [connectionFilterHandleKey] at made
  by_cases shown : s.showConnectionFilter = true
  · rw [if_pos shown] at made
    cases code : key.code with
    | esc | up | down => simp [code] at plain
    | char | backspace =>
      rw [code] at made
      cases made
      trivial
    | enter =>
      rw [code] at made
      obtain ⟨row, _, found⟩ := Option.bind_eq_some_iff.mp made
      obtain ⟨c, _, rfl⟩ := Option.map_eq_some_iff.mp found
      trivial
    | _ =>
      rw [code] at made
      cases made
  · rw [if_neg shown] at made
    cases made

theorem keyed_inner {l : Loop} (noHelp : l.state.showHelp = false) (shown : l.OverlayShown)
    (now : Clock) {key : KeyEvent} (plain : key.code ∉ [.esc, .up, .down]) :
    ∃ next, l.keyed (now, key) = some next ∧ next.outsideOverlay = l.outsideOverlay := by
  have resolved := resolveKey_overlay noHelp shown key
  cases made : connectionFilterHandleKey key l.state l.bundle.connectionFilter with
  | none =>
    rw [made] at resolved
    exact ⟨l, Loop.keyed_of_none resolved, rfl⟩
  | some action =>
    have inner := connectionFilter_inner plain made
    have alone : followUp action l.state = none := by
      cases action with
      | confirmYes => cases inner
      | _ => rfl
    rw [made] at resolved
    rw [Loop.keyed_of_some resolved alone]
    exact inner_outside inner now l

omit [Externals] in
theorem helpOverlayHandleKey_eq {s : AppState} (help : s.showHelp = true) (key : KeyEvent) :
    helpOverlayHandleKey key s =
      if key.code ∈ [.esc, .char '?', .char 'q'] then some .hideHelp else none := by
  rw [helpOverlayHandleKey, if_pos help]
  split
  case h_1 code | h_2 code | h_3 code =>
    rw [if_pos (by simp [code])]
  case h_4 mark quit esc =>
    rw [if_neg]
    simp only [List.mem_cons, List.not_mem_nil, or_false, not_or]
    exact ⟨esc, mark, quit⟩

theorem keyed_help {l : Loop} (help : l.state.showHelp = true) (event : Clock × KeyEvent) :
    ∃ next, l.keyed event = some next ∧
      (next.outsideOverlay = l.outsideOverlay ↔ KeepsToOverlay l event) := by
  obtain ⟨now, key⟩ := event
  have resolved := resolveKey_help help key
  rw [helpOverlayHandleKey_eq help] at resolved
  rw [KeepsToOverlay, if_pos help]
  by_cases closes : key.code ∈ [.esc, .char '?', .char 'q']
  · rw [if_pos closes] at resolved
    rw [Loop.keyed_of_some resolved rfl]
    refine ⟨_, rfl, ?_⟩
    simp [Loop.outsideOverlay, closes, help]
  · rw [if_neg closes] at resolved
    rw [Loop.keyed_of_none resolved]
    exact ⟨l, rfl, iff_of_true rfl closes⟩

/-- Esc closes the overlay; the row keys move what follows them, and the others are all inside. -/
theorem keyed_overlay {l : Loop} (noHelp : l.state.showHelp = false) (shown : l.OverlayShown)
    (event : Clock × KeyEvent) : ∃ next, l.keyed event = some next ∧
      (next.OverlayShown → (next.outsideOverlay = l.outsideOverlay ↔ KeepsToOverlay l event)) := by
  obtain ⟨now, key⟩ := event
  have resolved := resolveKey_overlay noHelp shown key
  have handled : connectionFilterHandleKey key l.state l.bundle.connectionFilter = _ := if_pos shown
  rw [KeepsToOverlay, noHelp, if_neg Bool.false_ne_true]
  cases code : key.code with
  | esc =>
    rw [handled, code] at resolved
    rw [Loop.keyed_of_some resolved rfl]
    exact ⟨_, rfl, nofun⟩
  | up =>
    rw [handled, code] at resolved
    rw [Loop.keyed_of_some resolved rfl]
    obtain ⟨next, taken, outside⟩ := rowAction_outside (.inr rfl) now l
    simp only [prevRow_stays] at outside
    exact ⟨next, taken, fun _ => outside⟩
  | down =>
    rw [handled, code] at resolved
    rw [Loop.keyed_of_some resolved rfl]
    obtain ⟨next, taken, outside⟩ := rowAction_outside (.inl rfl) now l
    simp only [nextRow_stays] at outside
    exact ⟨next, taken, fun _ => outside⟩
  | _ =>
    have plain : key.code ∉ [.esc, .up, .down] := by simp [code]
    obtain ⟨next, taken, outside⟩ := keyed_inner noHelp shown now plain
    exact ⟨next, taken, fun _ => iff_of_true outside trivial⟩

/-- One key, whoever takes it. -/
theorem keyed_outside {l : Loop} (shown : l.OverlayShown) (event : Clock × KeyEvent) :
    ∃ next, l.keyed event = some next ∧
      (next.OverlayShown → (next.outsideOverlay = l.outsideOverlay ↔ KeepsToOverlay l event)) := by
  cases help : l.state.showHelp with
  | false => exact keyed_overlay help shown event
  | true =>
    obtain ⟨next, taken, outside⟩ := keyed_help help event
    exact ⟨next, taken, fun _ => outside⟩

/-- Keys that keep the overlay shown are all handled. -/
theorem keyed_runs {keys : List (Clock × KeyEvent)} {l : Loop}
    (stays : Always Loop.keyed Loop.OverlayShown keys l) :
    (run Loop.keyed keys l).isSome := by
  induction keys generalizing l with
  | nil => rfl
  | cons event rest ih =>
    obtain ⟨next, taken, _⟩ := keyed_outside stays.head event
    rw [run_cons, taken]
    exact ih (stays.2 next taken)

/-- Over keys that keep the overlay shown, all that is outside is as it was before the first, in
every state they lead to, exactly when no row key finds another table with a row to move to. -/
theorem overlay_keeps_iff (l : Loop) (keys : List (Clock × KeyEvent))
    (stays : Always Loop.keyed Loop.OverlayShown keys l) :
    (run Loop.keyed keys l).isSome ∧
      (Always Loop.keyed (fun m => m.outsideOverlay = l.outsideOverlay) keys l ↔
        Along Loop.keyed KeepsToOverlay keys l) := by
  refine ⟨keyed_runs stays, always_iff_of_always (fun m event next shown same taken later => ?_)
    stays ?_⟩
  · obtain ⟨next', taken', outside⟩ := keyed_outside shown event
    obtain rfl := Option.some.inj (taken.symm.trans taken')
    rw [← same]
    exact outside later
  · exact rfl

end

namespace OverlaySample

open Tunnel.TunnelSample StatusSample

/-- The overlay over two visible connections, the cursor of the tab below on the first. -/
def opened : Loop :=
  ⟨{ twoConnections with
      activeTab := .status
      visibleConnections := {"ams", "mia"}
      showConnectionFilter := true }, .new⟩

def down : List (Clock × KeyEvent) := [(⟨0, 0⟩, ⟨.down, false⟩)]

theorem down_stays : Always (@Loop.keyed externals) Loop.OverlayShown down opened := by
  refine ⟨rfl, ?_⟩
  rintro next ⟨⟩
  exact rfl

theorem down_moves : ¬@KeepsToOverlay externals opened (⟨0, 0⟩, ⟨.down, false⟩) := by
  intro keeps
  have status := keeps (some 0, 2) (.tail _ (.head _))
  cases status

end OverlaySample

open Tunnel.TunnelSample OverlaySample in
theorem overlay_keeps_iff_down : (run (@Loop.keyed externals) down opened).isSome ∧
    (Always (@Loop.keyed externals) (fun m => m.outsideOverlay = opened.outsideOverlay) down opened ↔
      Along (@Loop.keyed externals) (@KeepsToOverlay externals) down opened) :=
  @overlay_keeps_iff externals opened down down_stays

open Tunnel.TunnelSample OverlaySample in
/-- The cursor of the tab below goes to the second connection. -/
theorem overlay_leaks : ¬∀ (l : Loop) (keys : List (Clock × KeyEvent)),
    Always (@Loop.keyed externals) Loop.OverlayShown keys l →
      Always (@Loop.keyed externals) (fun m => m.outsideOverlay = l.outsideOverlay) keys l := by
  intro each
  have kept := each opened down down_stays
  obtain ⟨next, taken, outside⟩ := @keyed_outside externals opened rfl (⟨0, 0⟩, ⟨.down, false⟩)
  have shown := (down_stays.2 next taken).head
  exact down_moves ((outside shown).mp (kept.2 next taken).head)

end FerroWg.Tui
