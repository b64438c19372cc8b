import FerroWg.Tui.Keys

/-!
# The mouse

A wheel moves the row, and a click on a label of the tab bar (`tab_bar.rs`) selects its tab. No
component takes the mouse itself.
-/

namespace FerroWg.Tui

inductive MouseEventKind where
  | scrollDown
  | scrollUp
  | leftDown
  | other (code : Nat)
  deriving DecidableEq, Repr

structure MouseEvent where
  kind : MouseEventKind
  column : Nat
  row : Nat
  deriving DecidableEq, Repr

/-- A part of the screen; like the screen, it ends below `2 ^ 16`. -/
structure Rect where
  x : Nat
  y : Nat
  width : Nat
  height : Nat
  deriving DecidableEq, Repr

def Tab.title : Tab → String
  | .overview => "Overview"
  | .status => "Status"
  | .peers => "Peers"
  | .compare => "Compare"
  | .config => "Config"
  | .logs => "Logs"

/-- `TAB_WIDTHS`: a blank, the digit, a colon, the title and a blank. -/
def tabWidths (i : Fin 6) : Nat := 4 + Tab.all[i].title.utf8ByteSize

/-- Left of the labels there are two columns, and one between two of them. -/
def tabLabelStart (i : Fin 6) : Nat :=
  ((List.finRange 6).take i).foldl (fun col j => col + (tabWidths j + 1)) 2

/-- Where `Tabs` draws a label: behind the border, a blank in front of each and one behind, and a bar
between two of them. -/
def tabDrawnStart (i : Fin 6) : Nat :=
  ((List.finRange 6).take i).foldl (fun col j => col + (tabWidths j + 1) + 1 + 1) (1 + 1)

def tabHitTest (column tabBarX : Nat) : Option Action :=
  let relative := column - tabBarX
  ((List.finRange 6).find? fun i =>
    tabLabelStart i ≤ relative && relative < tabLabelStart i + tabWidths i).map
      fun i => .selectTab Tab.all[i]

def resolveMouseAction (mouse : MouseEvent) (tabBarRect : Rect) : Option Action :=
  match mouse.kind with
  | .scrollDown => some .nextRow
  | .scrollUp => some .prevRow
  | .leftDown =>
    if tabBarRect.y ≤ mouse.row ∧ mouse.row < tabBarRect.y + tabBarRect.height ∧
        tabBarRect.x ≤ mouse.column
    then tabHitTest mouse.column tabBarRect.x else none
  | .other _ => none

/-- Nothing is shown above the tab. -/
structure AppState.Alone (s : AppState) : Prop where
  help : s.showHelp = false
  filter : s.showConnectionFilter = false
  diff : s.configDiffPending = none
  confirm : s.pendingConfirm = none

section

variable [Externals]

/-- Under an overlay the mouse does nothing; a line that is being typed does not keep it away. -/
def handleMouseEvent (now : Clock) (mouse : MouseEvent) (tabBarRect : Rect) (l : Loop) :
    Option Outcome :=
  let action :=
    if l.state.showHelp || l.state.showConnectionFilter || l.state.pendingConfirm.isSome ||
        l.state.configDiffPending.isSome
    then none else resolveMouseAction mouse tabBarRect
  performEach now action.toList l

end

/-! ## Where a click hits -/

/-- The columns that are kept for a tab. -/
def Tab.Covers (tab : Tab) (tabBarX column : Nat) : Prop :=
  tabBarX + tabLabelStart tab.index ≤ column ∧
    column < tabBarX + tabLabelStart tab.index + tabWidths tab.index

theorem Tab.all_index (tab : Tab) : Tab.all[tab.index] = tab := by
  cases tab <;> rfl

theorem Tab.index_all : ∀ i : Fin 6, Tab.all[i].index = i := by
  decide

/-- The tabs have their columns one after the other. -/
theorem tabLabelStart_lt {i j : Fin 6} (before : i < j) :
    tabLabelStart i + tabWidths i < tabLabelStart j := by
  revert i j
  decide

theorem Tab.Covers.unique {a b : Tab} {tabBarX column : Nat} (first : a.Covers tabBarX column)
    (second : b.Covers tabBarX column) : a = b := by
  have same : a.index = b.index := by
    by_contra apart
    obtain ⟨starts, ends⟩ := first
    obtain ⟨starts', ends'⟩ := second
    rcases Nat.lt_or_gt_of_ne (Fin.val_ne_of_ne apart) with before | before
    · have gap := tabLabelStart_lt (Fin.lt_def.mpr before)
      omega
    · have gap := tabLabelStart_lt (Fin.lt_def.mpr before)
      omega
  calc a = Tab.all[a.index] := a.all_index.symm
    _ = Tab.all[b.index] := congrArg (fun i : Fin 6 => Tab.all[i]) same
    _ = b := b.all_index

theorem covers_iff {i : Fin 6} {column tabBarX : Nat} (inside : tabBarX ≤ column) :
    (tabLabelStart i ≤ column - tabBarX && column - tabBarX < tabLabelStart i + tabWidths i) = true ↔
      Tab.all[i].Covers tabBarX column := by
  rw [Tab.Covers, Tab.index_all, Bool.and_eq_true, decide_eq_true_eq, decide_eq_true_eq]
  omega

/-- A column hits the tab that it is kept for, if there is one. -/
theorem tabHitTest_eq_some {column tabBarX : Nat} (inside : tabBarX ≤ column) {tab : Tab}
    (covers : tab.Covers tabBarX column) : tabHitTest column tabBarX = some (.selectTab tab) := by
  rw [tabHitTest]
  have hit : ∃ i ∈ List.finRange 6,
      (tabLabelStart i ≤ column - tabBarX && column - tabBarX < tabLabelStart i + tabWidths i) =
        true := by
    refine ⟨tab.index, List.mem_finRange _, (covers_iff inside).mpr ?_⟩
    rwa [tab.all_index]
  obtain ⟨i, found⟩ := Option.isSome_iff_exists.mp (List.find?_isSome.mpr hit)
  have there := (covers_iff inside).mp (List.find?_some found :)
  rw [found, Option.map_some, there.unique covers]

theorem tabHitTest_eq_none {column tabBarX : Nat} (inside : tabBarX ≤ column)
    (misses : ∀ tab : Tab, ¬tab.Covers tabBarX column) : tabHitTest column tabBarX = none := by
  rw [tabHitTest, Option.map_eq_none_iff, List.find?_eq_none]
  intro i _ hit
  exact misses _ ((covers_iff inside).mp hit)

/-! ## What the mouse does -/

/-- A click in the columns of a tab. -/
def Tab.Hit (tab : Tab) (mouse : MouseEvent) (tabBarRect : Rect) : Prop :=
  mouse.kind = .leftDown ∧ tabBarRect.y ≤ mouse.row ∧
    mouse.row < tabBarRect.y + tabBarRect.height ∧ tab.Covers tabBarRect.x mouse.column

theorem resolveMouseAction_hit {mouse : MouseEvent} {tabBarRect : Rect} {tab : Tab}
    (hit : tab.Hit mouse tabBarRect) :
    resolveMouseAction mouse tabBarRect = some (.selectTab tab) := by
  obtain ⟨kind, above, below, covers⟩ := hit
  have inside : tabBarRect.x ≤ mouse.column := (Nat.le_add_right _ _).trans covers.1
  rw [resolveMouseAction, kind]
  simp only [above, below, inside, and_self, if_true]
  exact tabHitTest_eq_some inside covers

theorem resolveMouseAction_miss {mouse : MouseEvent} {tabBarRect : Rect}
    (click : mouse.kind = .leftDown) (misses : ∀ tab : Tab, ¬tab.Hit mouse tabBarRect) :
    resolveMouseAction mouse tabBarRect = none := by
  rw [resolveMouseAction, click]
  simp only
  split
  · rename_i inside
    refine tabHitTest_eq_none inside.2.2 fun tab covers => misses tab ?_
    exact ⟨click, inside.1, inside.2.1, covers⟩
  · rfl

/-- All that comes of the mouse. -/
theorem resolveMouseAction_cases {mouse : MouseEvent} {tabBarRect : Rect} {action : Action}
    (resolved : resolveMouseAction mouse tabBarRect = some action) :
    action = .nextRow ∨ action = .prevRow ∨
      ∃ tab : Tab, tab.Hit mouse tabBarRect ∧ action = .selectTab tab := by
  by_cases hit : ∃ tab : Tab, tab.Hit mouse tabBarRect
  · obtain ⟨tab, hit⟩ := hit
    rw [resolveMouseAction_hit hit] at resolved
    exact .inr (.inr ⟨tab, hit, (Option.some.inj resolved).symm⟩)
  · rw [not_exists] at hit
    cases kind : mouse.kind with
    | scrollDown =>
      rw [resolveMouseAction, kind] at resolved
      exact .inl (Option.some.inj resolved).symm
    | scrollUp =>
      rw [resolveMouseAction, kind] at resolved
      exact .inr (.inl (Option.some.inj resolved).symm)
    | leftDown =>
      rw [resolveMouseAction_miss kind hit] at resolved
      cases resolved
    | other code =>
      rw [resolveMouseAction, kind] at resolved
      cases resolved

/-- The mouse is on the label of a tab, as far as that is drawn inside the border. -/
structure Tab.Drawn (tab : Tab) (mouse : MouseEvent) (tabBarRect : Rect) : Prop where
  row : mouse.row = tabBarRect.y + 1
  height : 3 ≤ tabBarRect.height
  starts : tabBarRect.x + tabDrawnStart tab.index ≤ mouse.column
  ends : mouse.column < tabBarRect.x + tabDrawnStart tab.index + tabWidths tab.index
  width : mouse.column + 1 < tabBarRect.x + tabBarRect.width

/-- The columns that are kept for a tab begin two further left for each tab in front of it. -/
theorem tabDrawnStart_eq : ∀ i : Fin 6, tabDrawnStart i = tabLabelStart i + 2 * i := by
  decide

theorem Tab.Drawn.selects_iff {tab : Tab} {mouse : MouseEvent} {tabBarRect : Rect}
    (drawn : tab.Drawn mouse tabBarRect) (click : mouse.kind = .leftDown) :
    resolveMouseAction mouse tabBarRect = some (.selectTab tab) ↔
      mouse.column + 2 * tab.index <
        tabBarRect.x + tabDrawnStart tab.index + tabWidths tab.index := by
  obtain ⟨row, height, starts, ends, -⟩ := drawn
  have shifted := tabDrawnStart_eq tab.index
  constructor
  · intro resolved
    obtain ⟨⟨⟩⟩ | ⟨⟨⟩⟩ | ⟨other, hit, same⟩ := resolveMouseAction_cases resolved
    cases same
    have covered : mouse.column < tabBarRect.x + tabLabelStart tab.index + tabWidths tab.index :=
      hit.2.2.2.2
    omega
  · intro early
    refine resolveMouseAction_hit ⟨click, by omega, by omega, ?_, ?_⟩
    · omega
    · omega

section

variable [Externals]

theorem handleMouseEvent_alone {l : Loop} (alone : l.state.Alone) (now : Clock) (mouse : MouseEvent)
    (tabBarRect : Rect) : handleMouseEvent now mouse tabBarRect l =
      performEach now (resolveMouseAction mouse tabBarRect).toList l := by
  simp [handleMouseEvent, alone.help, alone.filter, alone.diff, alone.confirm]

theorem handleMouseEvent_covered {l : Loop} (covered : ¬l.state.Alone) (now : Clock)
    (mouse : MouseEvent) (tabBarRect : Rect) :
    handleMouseEvent now mouse tabBarRect l = some (.idle l) := by
  have above : (l.state.showHelp || l.state.showConnectionFilter ||
      l.state.pendingConfirm.isSome || l.state.configDiffPending.isSome) = true := by
    by_contra nothing
    simp only [Bool.or_eq_true, not_or, Bool.not_eq_true, Option.isSome_eq_false_iff,
      Option.isNone_iff_eq_none] at nothing
    exact covered ⟨nothing.1.1.1, nothing.1.1.2, nothing.2, nothing.1.2⟩
  simp only [handleMouseEvent, above, if_true]
  rfl

/-- No task comes of the mouse. -/
theorem handleMouseEvent_effects {now : Clock} {mouse : MouseEvent} {tabBarRect : Rect} {l : Loop}
    {o : Outcome} (done : handleMouseEvent now mouse tabBarRect l = some o) : o.effects = [] := by
  by_cases alone : l.state.Alone
  · rw [handleMouseEvent_alone alone] at done
    cases resolved : resolveMouseAction mouse tabBarRect with
    | none =>
      rw [resolved] at done
      cases done
      rfl
    | some action =>
      rw [resolved] at done
      obtain ⟨next, later, _, last, rfl⟩ := performEach_cons.mp done
      cases last
      rcases resolveMouseAction_cases resolved with rfl | rfl | ⟨tab, _, rfl⟩ <;> rfl
  · rw [handleMouseEvent_covered alone] at done
    cases done
    rfl

def Tab.digitKey (tab : Tab) : KeyEvent :=
  ⟨.char (Nat.digitChar (tab.index + 1)), false⟩

omit [Externals] in
theorem handleGlobalKey_digit (tab : Tab) : handleGlobalKey tab.digitKey = some (.selectTab tab) := by
  cases tab <;> rfl

/-- Where no overlay is shown and no line is typed, a click in the columns of a tab is the key of
that tab; a click elsewhere is nothing, and nor is anything the mouse does under an overlay. On the
label that is drawn, a click is for its tab if it is not among the last columns, two for each tab in
front: for the first tab it always is, and for the last one never. -/
theorem click_selects (now : Clock) (mouse : MouseEvent) (tabBarRect : Rect) (l : Loop) :
    (l.state.Alone → l.state.inputMode = .normal ∨ l.state.inputMode = .editField → ∀ tab : Tab,
      tab.Hit mouse tabBarRect →
        handleMouseEvent now mouse tabBarRect l = handleKeyEvent now tab.digitKey l) ∧
    (mouse.kind = .leftDown → (∀ tab : Tab, ¬tab.Hit mouse tabBarRect) →
      handleMouseEvent now mouse tabBarRect l = some (.idle l)) ∧
    (¬l.state.Alone → handleMouseEvent now mouse tabBarRect l = some (.idle l)) ∧
    (mouse.kind = .leftDown → ∀ tab : Tab, tab.Drawn mouse tabBarRect →
      (resolveMouseAction mouse tabBarRect = some (.selectTab tab) ↔
        mouse.column + 2 * tab.index <
          tabBarRect.x + tabDrawnStart tab.index + tabWidths tab.index) ∧
      (tab = .overview → resolveMouseAction mouse tabBarRect = some (.selectTab tab)) ∧
      (tab = .logs → resolveMouseAction mouse tabBarRect = none)) := by
  refine ⟨fun alone mode tab hit => ?_, fun click misses => ?_, fun covered => ?_,
    fun click tab drawn => ⟨drawn.selects_iff click, ?_, ?_⟩⟩
  · rw [handleMouseEvent_alone alone, resolveMouseAction_hit hit]
    have resolved : resolveKey tab.digitKey l = some (l.bundle, some (.selectTab tab)) := by
      rcases mode with mode | mode <;>
        simp [resolveKey, alone.help, alone.filter, alone.diff, alone.confirm, mode,
          handleGlobalKey_digit]
    have single : followUp (.selectTab tab) l.state = none := rfl
    have handled : handleKeyEvent now tab.digitKey l = handleAction now (.selectTab tab) l := by
      rw [handleKeyEvent, resolved]
      rfl
    rw [handled, handleAction, single]
    cases performEach now [.selectTab tab] l <;> simp [submittedTasks]
  · by_cases alone : l.state.Alone
    · rw [handleMouseEvent_alone alone, resolveMouseAction_miss click misses]
      rfl
    · exact handleMouseEvent_covered alone now mouse tabBarRect
  · exact handleMouseEvent_covered covered now mouse tabBarRect
  · rintro rfl
    exact (drawn.selects_iff click).mpr drawn.ends
  · rintro rfl
    refine resolveMouseAction_miss click fun other hit => ?_
    have right : tabBarRect.x + 69 ≤ mouse.column := drawn.starts
    have left : mouse.column < tabBarRect.x + tabLabelStart other.index + tabWidths other.index :=
      hit.2.2.2.2
    have ends : tabLabelStart other.index + tabWidths other.index ≤ 67 := by
      cases other <;> decide
    omega

end

open ImportSample in
/-- In a bar at the top left, a click on the second label is the key of its digit, and one on the
last label is nothing. -/
theorem click_selects_status :
    @handleMouseEvent externals ⟨0, 0⟩ ⟨.leftDown, 17, 1⟩ ⟨0, 0, 80, 3⟩ ⟨.new home, .new⟩ =
        @handleKeyEvent externals ⟨0, 0⟩ ⟨.char '2', false⟩ ⟨.new home, .new⟩ ∧
      resolveMouseAction ⟨.leftDown, 70, 1⟩ ⟨0, 0, 80, 3⟩ = none := by
  refine ⟨(@click_selects externals ⟨0, 0⟩ ⟨.leftDown, 17, 1⟩ ⟨0, 0, 80, 3⟩ ⟨.new home, .new⟩).1
    ⟨rfl, rfl, rfl, rfl⟩ (.inl rfl) .status ⟨rfl, by decide, by decide, by decide, by decide⟩, ?_⟩
  refine ((@click_selects externals ⟨0, 0⟩ ⟨.leftDown, 70, 1⟩ ⟨0, 0, 80, 3⟩
    ⟨.new home, .new⟩).2.2.2 rfl .logs ?_).2.2 rfl
  exact ⟨rfl, by decide, by decide, by decide, by decide⟩

end FerroWg.Tui
