import FerroWg.Lib.Window
import FerroWg.Tui.State
import Mathlib.Algebra.GroupWithZero.Nat

/-!
# The connection bar

The strip of all connections and the part of it that is shown when it is wider than the terminal.
A column is a character, as `entry_width` counts them.
-/

namespace FerroWg.Tui

open Lib

def maxDisplayNameLen : Nat := 20
def prefixWidth : Nat := 14
def rightIndicatorWidth : Nat := 2

def truncateName (name : String) : String :=
  if name.length > maxDisplayNameLen then .ofList (name.toList.take maxDisplayNameLen) ++ "…"
  else name

/-- The loop of `digit_count`. -/
def countDigits (n count : Nat) : Nat :=
  if _more : n > 0 then countDigits (n / 10) (count + 1) else count
termination_by n
decreasing_by exact Nat.div_lt_self _more (Nat.lt_of_sub_eq_succ rfl)

def digitCount (n : Nat) : Nat := if n = 0 then 1 else countDigits n 0

def entryWidth (index : Nat) (displayName : String) (selected : Bool) : Nat :=
  let labelWidth := 2 + digitCount (index + 1)
  if selected then labelWidth + 1 + displayName.length + 1 + 1 + 2 else labelWidth + 1 + 2

/-! ## The viewport -/

/-- What is shown, how wide it is, and whether the round has changed it. -/
structure Growth (widths : List Nat) (selected : Nat) where
  window : Window widths selected
  used : Nat
  grew : Bool

namespace Growth

variable {widths : List Nat} {selected : Nat}

def growLeft (budget : Nat) (g : Growth widths selected) : Growth widths selected :=
  if 0 < g.window.start then
    let w := g.window.before
    if g.used + w ≤ budget then ⟨g.window.left, g.used + w, true⟩ else g
  else g

def growRight (budget : Nat) (g : Growth widths selected) : Growth widths selected :=
  if more : g.window.stop + 1 < widths.length then
    let w := g.window.after more
    if g.used + w ≤ budget then ⟨g.window.right more, g.used + w, true⟩ else g
  else g

def round (budget : Nat) (g : Growth widths selected) : Growth widths selected :=
  ({ g with grew := false }.growLeft budget).growRight budget

/-- How many entries are out of view, give or take one. -/
def hidden (g : Growth widths selected) : Nat := g.window.start + (widths.length - g.window.stop)

variable (g : Growth widths selected) (budget : Nat)

theorem growLeft_cases :
    (g.growLeft budget = g ∧ (0 < g.window.start → ¬ g.used + g.window.before ≤ budget)) ∨
    (0 < g.window.start ∧ g.used + g.window.before ≤ budget ∧
      g.growLeft budget = ⟨g.window.left, g.used + g.window.before, true⟩) := by
  by_cases more : 0 < g.window.start
  · by_cases fits : g.used + g.window.before ≤ budget
    · exact .inr ⟨more, fits, by simp [growLeft, more, fits]⟩
    · exact .inl ⟨by simp [growLeft, fits], fun _ => fits⟩
  · exact .inl ⟨by simp [growLeft, more], fun inside => absurd inside more⟩

theorem growRight_cases :
    (g.growRight budget = g ∧
      ∀ more : g.window.stop + 1 < widths.length, ¬ g.used + g.window.after more ≤ budget) ∨
    (∃ more : g.window.stop + 1 < widths.length, g.used + g.window.after more ≤ budget ∧
      g.growRight budget = ⟨g.window.right more, g.used + g.window.after more, true⟩) := by
  by_cases more : g.window.stop + 1 < widths.length
  · by_cases fits : g.used + g.window.after more ≤ budget
    · exact .inr ⟨more, fits, by simp [growRight, more, fits]⟩
    · exact .inl ⟨by simp [growRight, fits], fun _ => fits⟩
  · exact .inl ⟨by simp [growRight, more], fun inside => absurd inside more⟩

/-- Growing on one side pays for its flag with an entry. -/
theorem hidden_growLeft :
    (g.growLeft budget).hidden + (g.growLeft budget).grew.toNat ≤ g.hidden + g.grew.toNat := by
  rcases growLeft_cases g budget with ⟨same, _⟩ | ⟨more, _, grown⟩
  · rw [same]
  · rw [grown]
    simp only [hidden, Window.left, Bool.toNat_true]
    omega

theorem hidden_growRight :
    (g.growRight budget).hidden + (g.growRight budget).grew.toNat ≤ g.hidden + g.grew.toNat := by
  rcases growRight_cases g budget with ⟨same, _⟩ | ⟨more, _, grown⟩
  · rw [same]
  · rw [grown]
    simp only [hidden, Window.right, Bool.toNat_true]
    omega

variable {g budget}

theorem hidden_round (grown : (g.round budget).grew) : (g.round budget).hidden < g.hidden := by
  have left := hidden_growLeft { g with grew := false } budget
  have right := hidden_growRight ({ g with grew := false }.growLeft budget) budget
  have paid : (g.round budget).grew.toNat = 1 := by rw [grown, Bool.toNat_true]
  have start : ({ g with grew := false } : Growth widths selected).hidden = g.hidden := rfl
  rw [round] at paid ⊢
  simp only [Bool.toNat_false] at left
  omega

/-- The loop, a round at a time until one changes nothing. -/
def expand (budget : Nat) (g : Growth widths selected) : Growth widths selected :=
  if _grown : (g.round budget).grew then expand budget (g.round budget) else g.round budget
termination_by g.hidden
decreasing_by exact hidden_round _grown

/-- The loop's own count of the columns is right, and they are within the budget. -/
structure Fits (budget : Nat) (g : Growth widths selected) : Prop where
  used_eq : g.used = g.window.weight
  used_le : g.used ≤ budget

theorem Fits.growLeft (fits : g.Fits budget) : (g.growLeft budget).Fits budget := by
  rcases growLeft_cases g budget with ⟨same, _⟩ | ⟨more, beside, grown⟩
  · rwa [same]
  · rw [grown]
    refine ⟨?_, beside⟩
    rw [Window.weight_left more, fits.used_eq]

theorem Fits.growRight (fits : g.Fits budget) : (g.growRight budget).Fits budget := by
  rcases growRight_cases g budget with ⟨same, _⟩ | ⟨more, beside, grown⟩
  · rwa [same]
  · rw [grown]
    refine ⟨?_, beside⟩
    rw [Window.weight_right, fits.used_eq]

theorem Fits.round (fits : g.Fits budget) : (g.round budget).Fits budget := by
  have cleared : ({ g with grew := false } : Growth widths selected).Fits budget :=
    ⟨fits.used_eq, fits.used_le⟩
  exact cleared.growLeft.growRight

/-- A round that changes nothing has tried both neighbours. -/
theorem Fits.maximal_of_stuck (fits : g.Fits budget) (stuck : ¬ (g.round budget).grew) :
    (g.round budget).window.Maximal budget := by
  rw [Growth.round] at stuck ⊢
  rcases growRight_cases ({ g with grew := false }.growLeft budget) budget with
    ⟨right, refusedRight⟩ | ⟨_, _, right⟩
  · rw [right] at stuck ⊢
    rcases growLeft_cases { g with grew := false } budget with
      ⟨left, refusedLeft⟩ | ⟨_, _, left⟩
    · rw [left] at refusedRight ⊢
      constructor
      · intro more
        rw [Window.weight_left more, ← fits.used_eq]
        exact refusedLeft more
      · intro more
        rw [Window.weight_right, ← fits.used_eq]
        exact refusedRight more
    · exact absurd (congrArg Growth.grew left) stuck
  · exact absurd (congrArg Growth.grew right) stuck

theorem Fits.expand (fits : g.Fits budget) :
    (g.expand budget).Fits budget ∧ (g.expand budget).window.Maximal budget := by
  fun_induction Growth.expand budget g with
  | case1 g _ ih => exact ih fits.round
  | case2 g stuck => exact ⟨fits.round, fits.maximal_of_stuck stuck⟩

theorem fits_single {inside : selected < widths.length}
    (fits : widths.get ⟨selected, inside⟩ ≤ budget) :
    Fits budget ⟨.single inside, widths.get ⟨selected, inside⟩, false⟩ :=
  ⟨Window.weight_single.symm, fits⟩

end Growth

/-- The index is in the list, as the assertions of the code say. -/
def viewport (widths : List Nat) (selected areaWidth : Nat) (inside : selected < widths.length) :
    Window widths selected :=
  if widths.sum + prefixWidth ≤ areaWidth then .whole inside
  else
    let budget := areaWidth - (prefixWidth + rightIndicatorWidth)
    let selW := widths.get ⟨selected, inside⟩
    if selW > budget then .single inside
    else (Growth.expand budget ⟨.single inside, selW, false⟩).window

section

variable {widths : List Nat} {selected areaWidth : Nat} {inside : selected < widths.length}

theorem viewport_maximal :
    (viewport widths selected areaWidth inside).Maximal
      (areaWidth - (prefixWidth + rightIndicatorWidth)) := by
  rw [viewport]
  split
  · exact Window.maximal_whole
  · dsimp only
    split
    case isTrue wide =>
      constructor
      · intro more
        rw [Window.weight_left more, Window.weight_single]
        omega
      · intro more
        rw [Window.weight_right, Window.weight_single]
        omega
    case isFalse fits => exact (Growth.fits_single (not_lt.mp fits)).expand.2

/-- No window around the selected entry that is wider on both sides is within the budget. -/
theorem viewport_widest {w : Window widths selected}
    (start : w.start ≤ (viewport widths selected areaWidth inside).start)
    (stop : (viewport widths selected areaWidth inside).stop ≤ w.stop)
    (fits : w.weight ≤ areaWidth - (prefixWidth + rightIndicatorWidth)) :
    w.start = (viewport widths selected areaWidth inside).start ∧
      w.stop = (viewport widths selected areaWidth inside).stop :=
  viewport_maximal.widest start stop fits

/-- The columns beside the entries: the label or an arrow in front, and an arrow behind. -/
def besideWidth (w : Window widths selected) : Nat :=
  (if w.start > 0 then 2 else prefixWidth) +
    if w.stop < widths.length - 1 then rightIndicatorWidth else 0

theorem besideWidth_le (w : Window widths selected) :
    besideWidth w ≤ prefixWidth + rightIndicatorWidth := by
  rw [besideWidth]
  apply Nat.add_le_add
  · split <;> simp [prefixWidth]
  · split <;> simp

theorem besideWidth_whole : besideWidth (.whole inside) = prefixWidth := by
  simp [besideWidth, Window.whole]

/-- An entry is at least a column wide, so one that fits leaves a budget. -/
theorem viewport_width (visible : 0 < widths.get ⟨selected, inside⟩)
    (fits : widths.get ⟨selected, inside⟩ ≤ areaWidth - (prefixWidth + rightIndicatorWidth)) :
    besideWidth (viewport widths selected areaWidth inside) +
      (viewport widths selected areaWidth inside).weight ≤ areaWidth := by
  rw [viewport]
  split
  case isTrue all =>
    rw [Window.weight_whole, besideWidth_whole, add_comm]
    exact all
  case isFalse =>
    dsimp only
    rw [if_neg (not_lt.mpr fits)]
    generalize grown : Growth.expand _ _ = g
    have within := (Growth.fits_single fits).expand.1
    rw [grown] at within
    have beside := besideWidth_le g.window
    have used := within.used_le
    rw [within.used_eq] at used
    omega

end

/-! ## The line -/

inductive ThemeColor where
  | accent
  | muted
  | success
  | warning
  deriving DecidableEq, Repr

/-- A raw span has no colour of its own. -/
structure BarSpan where
  content : String
  fg : Option ThemeColor
  bold : Bool
  deriving DecidableEq, Repr

def BarSpan.raw (content : String) : BarSpan := ⟨content, none, false⟩

def statusIndicator (status : Option ConnectionStatus) : BarSpan :=
  match status with
  | none => ⟨"?", some .muted, false⟩
  | some s =>
    if s.state = .connected then
      if s.healthWarning.isNone then ⟨"●", some .success, false⟩ else ⟨"!", some .warning, false⟩
    else ⟨"○", some .muted, false⟩

def entrySpans (selected index : Nat) (conn : ConnectionView) (displayName : String) :
    List BarSpan :=
  if index = selected then
    [⟨"[" ++ toString (index + 1) ++ "] ", some .accent, true⟩, ⟨displayName, some .accent, true⟩,
      .raw " ", statusIndicator conn.status, .raw "  "]
  else [.raw ("[" ++ toString (index + 1) ++ "]"), statusIndicator conn.status, .raw "  "]

def displayNames (connections : List ConnectionView) : List String :=
  connections.map fun conn => truncateName conn.name

def entryWidths (connections : List ConnectionView) (selected : Nat) : List Nat :=
  (displayNames connections).zipIdx.map fun (name, i) => entryWidth i name (i = selected)

@[simp] theorem length_entryWidths (connections : List ConnectionView) (selected : Nat) :
    (entryWidths connections selected).length = connections.length := by
  simp [entryWidths, displayNames]

section

variable (connections : List ConnectionView) (selected areaWidth : Nat)
  (inside : selected < connections.length)

def barViewport : Window (entryWidths connections selected) selected :=
  viewport (entryWidths connections selected) selected areaWidth
    (lt_of_lt_of_eq inside (length_entryWidths connections selected).symm)

/-- The bar for any selected connection; drawing selects the first one. -/
def barSpans : List BarSpan :=
  let view := barViewport connections selected areaWidth inside
  let rows := (connections.zip (displayNames connections)).zipIdx
  (if view.start > 0 then ⟨"< ", some .muted, false⟩ else .raw " Connections: ") ::
    ((view.slice rows).flatMap fun ((conn, name), i) => entrySpans selected i conn name) ++
    if view.stop < connections.length - 1 then [⟨" >", some .muted, false⟩] else []

end

/-- `ConnectionBarComponent::render`; nothing is drawn of a single connection. -/
def connectionBarRender (areaWidth : Nat) (s : AppState) : List BarSpan :=
  if few : s.connections.length ≤ 1 ∨ areaWidth = 0 then []
  else barSpans s.connections 0 areaWidth (Nat.lt_of_succ_lt (not_le.mp (not_or.mp few).1))

def lineText (spans : List BarSpan) : List Char := spans.flatMap (·.content.toList)

/-! ## Its width -/

theorem countDigits_eq {n : Nat} (pos : 0 < n) (count : Nat) :
    countDigits n count = (Nat.toDigits 10 n).length + count := by
  induction n using Nat.strongRecOn generalizing count with
  | ind n ih =>
    rw [countDigits, dif_pos pos, Nat.toDigits_eq_if (by decide)]
    split
    case isTrue small =>
      rw [Nat.div_eq_of_lt small, countDigits, dif_neg (lt_irrefl 0), List.length_singleton,
        add_comm]
    case isFalse large =>
      have rest : 0 < n / 10 := Nat.div_pos (not_lt.mp large) (by decide)
      rw [ih _ (Nat.div_lt_self pos (by decide)) rest, List.length_append, List.length_singleton]
      omega

/-- The count is the length of the number as it is written. -/
theorem digitCount_eq (n : Nat) : digitCount n = (toString n).length := by
  rw [digitCount, ← String.length_toList, Nat.toString_eq_repr, Nat.toList_repr]
  split
  case isTrue zero =>
    subst zero
    rfl
  case isFalse pos => rw [countDigits_eq (Nat.pos_of_ne_zero pos), add_zero]

theorem length_statusIndicator (status : Option ConnectionStatus) :
    (statusIndicator status).content.length = 1 := by
  cases status with
  | none => rfl
  | some s =>
    rw [statusIndicator]
    split
    · split <;> rfl
    · rfl

theorem length_lineText (spans : List BarSpan) :
    (lineText spans).length = (spans.map (·.content.length)).sum := by
  simp only [lineText, List.length_flatMap, String.length_toList]

theorem length_entrySpans (selected index : Nat) (conn : ConnectionView) (name : String) :
    (lineText (entrySpans selected index conn name)).length =
      entryWidth index name (index = selected) := by
  have mark := length_statusIndicator conn.status
  have fixed : "[".length = 1 ∧ "]".length = 1 ∧ "] ".length = 2 ∧ " ".length = 1 ∧
    "  ".length = 2 := ⟨rfl, rfl, rfl, rfl, rfl⟩
  rw [length_lineText, entrySpans, entryWidth, digitCount_eq]
  by_cases here : index = selected
  · simp only [here, if_true, decide_true, List.map_cons, List.map_nil, List.sum_cons,
      List.sum_nil, String.length_append, mark, BarSpan.raw]
    omega
  · simp only [here, if_false, decide_false, Bool.false_eq_true, List.map_cons, List.map_nil,
      List.sum_cons, List.sum_nil, String.length_append, mark, BarSpan.raw]
    omega

theorem entryWidth_pos (index : Nat) (name : String) (selected : Bool) :
    0 < entryWidth index name selected := by
  rw [entryWidth]
  split <;> omega

theorem lineText_append (spans more : List BarSpan) :
    lineText (spans ++ more) = lineText spans ++ lineText more := by
  rw [lineText, List.flatMap_append, lineText, lineText]

theorem length_lineText_flatMap {α : Type} (f : α → List BarSpan) (l : List α) :
    (lineText (l.flatMap f)).length = (l.map fun a => (lineText (f a)).length).sum := by
  simp only [lineText, List.flatMap_assoc, List.length_flatMap]

theorem length_front (scrolled : Prop) [Decidable scrolled] :
    (lineText [if scrolled then ⟨"< ", some .muted, false⟩ else .raw " Connections: "]).length =
      if scrolled then 2 else prefixWidth := by
  split <;> rfl

theorem length_back (more : Prop) [Decidable more] :
    (lineText (if more then [⟨" >", some .muted, false⟩] else [])).length =
      if more then rightIndicatorWidth else 0 := by
  split <;> rfl

section

variable {connections : List ConnectionView} {selected areaWidth : Nat}
  {inside : selected < connections.length}

theorem map_rows_eq : ((connections.zip (displayNames connections)).zipIdx.map fun row =>
    entryWidth row.2 row.1.2 (row.2 = selected)) = entryWidths connections selected := by
  have names : (connections.zip (displayNames connections)).map Prod.snd =
      displayNames connections := by
    rw [List.map_snd_zip]
    simp [displayNames]
  rw [entryWidths]
  conv_rhs => rw [← names, List.zipIdx_map]
  simp only [List.map_map, Function.comp_def, Prod.map, id_eq]

theorem get_entryWidths (inside : selected < connections.length)
    (bound : selected < (entryWidths connections selected).length) :
    (entryWidths connections selected).get ⟨selected, bound⟩ =
      entryWidth selected (truncateName (connections.get ⟨selected, inside⟩).name) true := by
  simp [entryWidths, displayNames]

/-- The line is what stands beside the entries and the entries in view. -/
theorem length_barSpans : (lineText (barSpans connections selected areaWidth inside)).length =
    besideWidth (barViewport connections selected areaWidth inside) +
      (barViewport connections selected areaWidth inside).weight := by
  have entries : (lineText (((barViewport connections selected areaWidth inside).slice
      (connections.zip (displayNames connections)).zipIdx).flatMap fun row =>
        entrySpans selected row.2 row.1.1 row.1.2)).length =
      (barViewport connections selected areaWidth inside).weight := by
    rw [length_lineText_flatMap, Window.weight]
    simp only [length_entrySpans]
    rw [← Window.slice_map, map_rows_eq]
  rw [barSpans, besideWidth, length_entryWidths]
  dsimp only
  rw [← List.singleton_append, lineText_append, lineText_append, List.length_append,
    List.length_append, length_front, length_back, entries]
  omega

theorem barSpans_width
    (fits : entryWidth selected (truncateName (connections.get ⟨selected, inside⟩).name) true ≤
      areaWidth - 16) :
    (lineText (barSpans connections selected areaWidth inside)).length ≤ areaWidth := by
  have width := get_entryWidths inside
    (lt_of_lt_of_eq inside (length_entryWidths connections selected).symm)
  rw [length_barSpans]
  apply viewport_width
  · rw [width]
    exact entryWidth_pos _ _ _
  · rw [width]
    exact fits

/-- On a terminal where no character takes more than its column. -/
theorem barSpans_columns {columns : Char → Nat}
    (narrow : ∀ c ∈ lineText (barSpans connections selected areaWidth inside), columns c ≤ 1)
    (fits : entryWidth selected (truncateName (connections.get ⟨selected, inside⟩).name) true ≤
      areaWidth - 16) :
    ((lineText (barSpans connections selected areaWidth inside)).map columns).sum ≤ areaWidth := by
  have each : ∀ n ∈ (lineText (barSpans connections selected areaWidth inside)).map columns,
      n ≤ 1 := by
    intro n member
    obtain ⟨c, shown, rfl⟩ := List.mem_map.mp member
    exact narrow c shown
  calc ((lineText (barSpans connections selected areaWidth inside)).map columns).sum ≤
        ((lineText (barSpans connections selected areaWidth inside)).map columns).length * 1 :=
        List.sum_le_card_nsmul _ 1 each
    _ = (lineText (barSpans connections selected areaWidth inside)).length := by
        rw [List.length_map, Nat.mul_one]
    _ ≤ areaWidth := barSpans_width fits

theorem length_truncateName (name : String) : (truncateName name).length ≤ 21 := by
  rw [truncateName]
  split
  case isTrue =>
    have dots : "…".length = 1 := rfl
    have head := List.length_take_le maxDisplayNameLen name.toList
    rw [String.length_append, String.length_ofList, dots]
    exact Nat.succ_le_succ head
  case isFalse short => exact (not_lt.mp short).trans (by decide)

/-- The first entry is at most 29 columns, so from 45 on what is drawn is within the area. -/
theorem connectionBarRender_width (s : AppState) (wide : 45 ≤ areaWidth) :
    (lineText (connectionBarRender areaWidth s)).length ≤ areaWidth := by
  rw [connectionBarRender]
  split
  · exact Nat.zero_le _
  · apply barSpans_width
    have name := length_truncateName (s.connections.get ⟨0, by omega⟩).name
    have digits : digitCount (0 + 1) = 1 := digitCount_eq 1
    rw [entryWidth, digits, if_pos rfl]
    omega

end

/-- What `viewport` promises, of every list of connections: the selected one is in view, what is
drawn is within the area whenever the selected one is within the budget, and no neighbour is left
out that is within it too. -/
theorem viewport_sound_maximal (connections : List ConnectionView) (selected areaWidth : Nat)
    (inside : selected < connections.length) :
    ((barViewport connections selected areaWidth inside).start ≤ selected ∧
      selected ≤ (barViewport connections selected areaWidth inside).stop ∧
      (barViewport connections selected areaWidth inside).stop < connections.length) ∧
    (entryWidth selected (truncateName (connections.get ⟨selected, inside⟩).name) true ≤
        areaWidth - 16 →
      (lineText (barSpans connections selected areaWidth inside)).length ≤ areaWidth) ∧
    (barViewport connections selected areaWidth inside).Maximal (areaWidth - 16) := by
  refine ⟨⟨Window.start_le _, Window.le_stop _, ?_⟩, barSpans_width, viewport_maximal⟩
  exact lt_of_lt_of_eq (Window.stop_lt _) (length_entryWidths connections selected)

def sites : List ConnectionView :=
  ["mia", "ord01", "tus1"].map fun name =>
    ⟨name, ⟨⟨⟨.replicate 32 0⟩, 51820, [], [], [], 1420, 0, [], [], [], []⟩, []⟩, none, 0⟩

theorem viewport_sound_maximal_sites :
    (lineText (barSpans sites 1 29 (by decide))).length ≤ 29 := by
  have sound := viewport_sound_maximal sites 1 29 (by decide)
  apply sound.2.1
  rw [entryWidth, digitCount_eq]
  decide

end FerroWg.Tui
