import FerroWg.Import
import FerroWg.Lib.Run
import FerroWg.Tui.Writes

/-!
# Drawing the preview of a diff

`render_diff_lines` of `diff_preview.rs`: the window of lines it cuts out, and what scrolling has
to leave alone for the cut not to panic.
-/

namespace FerroWg.Tui

open Lib

inductive Tint where
  | success
  | error
  | muted
  deriving DecidableEq, Repr

structure Span where
  content : String
  tint : Tint
  deriving DecidableEq, Repr

def drawLine : DiffLine → List Span
  | .added content => [⟨"+", .success⟩, ⟨content, .success⟩]
  | .removed content => [⟨"-", .error⟩, ⟨content, .error⟩]
  | .context content => [⟨content, .muted⟩]

def hintLine : List Span :=
  [⟨"[s] save   [r] save & reconnect   [j/k] scroll   [Esc] discard", .muted⟩]

/-- Indexing with a range, which panics unless it lies in the vector. -/
def slice {α : Type} (l : List α) (start stop : Nat) : Option (List α) :=
  if start ≤ stop ∧ stop ≤ l.length then some ((l.take stop).drop start) else none

/-- One line of the area is for the hint. -/
def visibleLines (height : UInt16) : Nat := min 15 (height.toNat - 1)

namespace ConfigDiffPending

def startIdx (p : ConfigDiffPending) : Nat := p.scrollOffset

/-- A sum that leaves the machine word starts past the end of any vector, so that nothing depends
on how it wraps. -/
def endIdx (height : UInt16) (p : ConfigDiffPending) : Nat :=
  min (p.startIdx + visibleLines height) p.diffLines.length

/-- What is drawn into an area of a given height. -/
def renderDiffLines (height : UInt16) (p : ConfigDiffPending) : Option (List (List Span)) :=
  (slice p.diffLines p.startIdx (p.endIdx height)).map fun lines =>
    lines.map drawLine ++ [hintLine]

/-- The bounds of the window are in order, whatever the area. -/
def InBounds (p : ConfigDiffPending) : Prop :=
  ∀ height : UInt16, p.startIdx ≤ p.endIdx height ∧ p.endIdx height ≤ p.diffLines.length

theorem inBounds_iff (p : ConfigDiffPending) :
    p.InBounds ↔ p.scrollOffset ≤ p.diffLines.length := by
  unfold InBounds endIdx startIdx
  refine ⟨fun bounds => ?_, fun inside height => ⟨?_, ?_⟩⟩
  · exact (bounds 0).1.trans (bounds 0).2
  · exact Nat.le_min.mpr ⟨Nat.le_add_right _ _, inside⟩
  · exact Nat.min_le_right _ _

/-- Drawing panics just when the bounds are out of order. -/
theorem inBounds_iff_renders (p : ConfigDiffPending) :
    p.InBounds ↔ ∀ height, (p.renderDiffLines height).isSome := by
  refine forall_congr' fun height => ?_
  rw [renderDiffLines, Option.isSome_map, slice]
  split_ifs with bounds <;> simp [bounds]

end ConfigDiffPending

def DiffInBounds (s : AppState) : Prop :=
  ∀ p, s.configDiffPending = some p → p.InBounds

/-- Scrolling down stays within the diff; at the last offset there is it does nothing. -/
def ScrollsInside (s : AppState) (label : Clock × Action) : Prop :=
  label.2 = .configDiffScrollDown → ∀ p, s.configDiffPending = some p →
    p.scrollOffset < p.diffLines.length ∨ 2 ^ 64 - 1 ≤ p.scrollOffset

variable {s t : AppState}

theorem DiffInBounds.congr (inBounds : DiffInBounds s)
    (same : t.configDiffPending = s.configDiffPending) : DiffInBounds t :=
  fun p pending => inBounds p (same ▸ pending)

theorem diffInBounds_none (closed : t.configDiffPending = none) : DiffInBounds t := by
  intro p pending
  rw [closed] at pending
  cases pending

/-- A scroll is safe if it takes each offset inside the diff to one inside it. -/
theorem diffInBounds_scroll (f : Nat → Nat) :
    DiffInBounds (scrollDiff s f) ↔
      ∀ p, s.configDiffPending = some p → f p.scrollOffset ≤ p.diffLines.length := by
  rw [DiffInBounds, scrollDiff]
  cases s.configDiffPending with
  | none => simp
  | some p => simp [ConfigDiffPending.inBounds_iff]

theorem scrollDown_inBounds_iff (now : Clock) (inBounds : DiffInBounds s) :
    DiffInBounds (scrollDiff s fun n => min (n + 1) (2 ^ 64 - 1)) ↔
      ScrollsInside s (now, .configDiffScrollDown) := by
  rw [diffInBounds_scroll]
  simp only [ScrollsInside, forall_const]
  refine forall_congr' fun p => forall_congr' fun pending => ?_
  have inside := (p.inBounds_iff).mp (inBounds p pending)
  omega

theorem scrollUp_inBounds (inBounds : DiffInBounds s) :
    DiffInBounds (scrollDiff s fun n => n - 1) := by
  rw [diffInBounds_scroll]
  intro p pending
  exact (Nat.sub_le _ _).trans ((p.inBounds_iff).mp (inBounds p pending))

/-- A text compared with itself is shown line by line. -/
theorem configDiff_self (toml : String) :
    configDiff toml toml = (Text.lines toml).map .context := by
  rw [configDiff]
  induction Text.lines toml with
  | nil => rfl
  | cons line rest ih => simp [diffLines, ih]

variable [Externals]

/-- A preview opens at its first line. -/
theorem previewConfig_inBounds (edit : ConfigEditState) (inBounds : DiffInBounds s) :
    DiffInBounds (previewConfig edit s) := by
  rw [previewConfig]
  split_ifs
  · exact inBounds
  · exact inBounds
  · rintro p pending
    obtain rfl := Option.some.inj pending
    exact (ConfigDiffPending.inBounds_iff _).mpr (Nat.zero_le _)

/-- Of all actions only scrolling down can leave the diff. -/
theorem diffInBounds_dispatch {now : Clock} {action : Action} (inBounds : DiffInBounds s)
    (taken : dispatch now action s = some t) :
    DiffInBounds t ↔ ScrollsInside s (now, action) := by
  by_cases down : action = .configDiffScrollDown
  · subst down
    cases taken
    exact scrollDown_inBounds_iff now inBounds
  · refine iff_of_true ?_ (fun same => absurd same down)
    cases action with
    | configDiffScrollDown => exact absurd rfl down
    | configDiffScrollUp =>
      cases taken
      exact scrollUp_inBounds inBounds
    | previewConfig =>
      cases taken
      rw [inSession]
      split
      · exact inBounds
      · exact previewConfig_inBounds _ inBounds
    | saveConfig | discardConfigEdits =>
      cases taken
      exact diffInBounds_none rfl
    | _ => exact inBounds.congr (dispatch_writes .preview (by simp [Action.writes]) taken)

theorem diff_in_bounds_iff (config : AppConfig) (actions : List (Clock × Action)) :
    Always act DiffInBounds actions (.new config) ↔ Along act ScrollsInside actions (.new config) :=
  always_iff_of_step (fun _ _ _ inBounds taken => diffInBounds_dispatch inBounds taken) actions
    (diffInBounds_none rfl)

/-- Scrolling down moves the offset, one line for each key, whatever the length of the diff. -/
theorem scrolled_down (now : Clock) (n : Nat) {p : ConfigDiffPending}
    (pending : s.configDiffPending = some p) (small : p.scrollOffset + n < 2 ^ 64) :
    ∃ t, run act (List.replicate n (now, .configDiffScrollDown)) s = some t ∧
      t.configDiffPending = some { p with scrollOffset := p.scrollOffset + n } := by
  induction n generalizing s p with
  | zero => exact ⟨s, rfl, pending⟩
  | succ n ih =>
    have moved : (scrollDiff s fun k => min (k + 1) (2 ^ 64 - 1)).configDiffPending =
        some { p with scrollOffset := p.scrollOffset + 1 } := by
      simp only [scrollDiff, pending, Option.map_some, Option.some.injEq,
        ConfigDiffPending.mk.injEq, true_and]
      omega
    obtain ⟨t, reached, shown⟩ := ih moved (by simp only; omega)
    refine ⟨t, reached, shown.trans ?_⟩
    simp only [Nat.add_assoc, Nat.add_comm 1]

/-- The preview of a draft that is the stored configuration. -/
theorem previewConfig_unchanged {edit : ConfigEditState} (entered : edit.newPeerIndices = ∅)
    (noError : edit.fieldError = none)
    (stored : (s.findConnection edit.connectionName).map (·.config) = some edit.draft) :
    (previewConfig edit s).configDiffPending = some ⟨edit.connectionName, edit.draft,
      (Text.lines (tomlOrEmpty (some edit.draft))).map .context, 0⟩ := by
  simp [previewConfig, entered, noError, stored, configDiff_self]

theorem act_previewConfig (now : Clock) {edit : ConfigEditState}
    (opened : s.configEdit = some edit) :
    act s (now, .previewConfig) = some (previewConfig edit s) := by
  simp [act, dispatch, inSession, opened]

open ImportSample in
omit [Externals] in
theorem tomlOrEmpty_home : @tomlOrEmpty externals (some (wgNamed "home")) =
    interfaceToml "interface" ++ peerToml "peers" "home" := by
  have other : ((⟨(wgNamed "").interface, []⟩ : WgConfig) == wgNamed "home") = false := by decide
  have found : externals.wgToToml (wgNamed "home") =
      .ok (interfaceToml "interface" ++ peerToml "peers" "home") := by
    rw [externals, Externals.tabulated]
    simp only [List.find?_cons, other, beq_self_eq_true]
  simp only [tomlOrEmpty, Option.map_some, found]

open ImportSample in
omit [Externals] in
theorem lines_home :
    (Text.lines (interfaceToml "interface" ++ peerToml "peers" "home")).length = 18 := by
  rw [Text.length_lines]
  all_goals
    simp only [interfaceToml, peerToml, zeroKey, toString, String.toList_append,
      String.reduceToList]
    decide +kernel

open ImportSample in
omit [Externals] in
/-- The eighteen lines of an untouched configuration, scrolled down nineteen times. -/
theorem diff_scrolled_past_end :
    ¬ Always (@act externals) DiffInBounds
      ([(⟨0, 0⟩, .enterConfigEdit .interface 0), (⟨0, 0⟩, .previewConfig)] ++
        List.replicate 19 (⟨0, 0⟩, .configDiffScrollDown)) (.new home) := by
  intro always
  have opens : ((@run _ _ (@act externals) [(⟨0, 0⟩, .enterConfigEdit .interface 0)]
      (.new home)).bind fun s => s.configEdit.map fun edit => (edit.newPeerIndices,
        edit.fieldError, edit.draft, (s.findConnection edit.connectionName).map (·.config))) =
      some (∅, none, wgNamed "home", some (wgNamed "home")) := by
    decide +kernel
  obtain ⟨s, reached, shown⟩ := Option.bind_eq_some_iff.mp opens
  obtain ⟨edit, opened, facts⟩ := Option.map_eq_some_iff.mp shown
  simp only [Prod.mk.injEq] at facts
  obtain ⟨entered, noError, draft, stored⟩ := facts
  have shows := @previewConfig_unchanged s externals edit entered noError (draft ▸ stored)
  rw [draft, tomlOrEmpty_home] at shows
  obtain ⟨p, pending, atTop, length⟩ : ∃ p, (@previewConfig externals edit s).configDiffPending =
      some p ∧ p.scrollOffset = 0 ∧ p.diffLines.length = 18 :=
    ⟨_, shows, rfl, by rw [List.length_map, lines_home]⟩
  obtain ⟨t, scrolled, past⟩ := @scrolled_down _ externals ⟨0, 0⟩ 19 p pending (by omega)
  have ends : @run _ _ (@act externals) ([(⟨0, 0⟩, .enterConfigEdit .interface 0),
      (⟨0, 0⟩, .previewConfig)] ++ List.replicate 19 (⟨0, 0⟩, .configDiffScrollDown)) (.new home) =
      some t := by
    rw [← List.singleton_append, List.append_assoc, run_append, reached, Option.bind_some,
      List.singleton_append, run_cons, @act_previewConfig s externals _ _ opened, Option.bind_some]
    exact scrolled
  have inside := (ConfigDiffPending.inBounds_iff _).mp (always.last ends _ past)
  simp only at inside
  omega

end FerroWg.Tui
