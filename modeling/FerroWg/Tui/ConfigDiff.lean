import FerroWg.Lib.Subsequences
import FerroWg.Tui.ConfigEdit

/-!
# What the line diff says

`config_diff` with its cursors, the two texts read back from its lines, and when no shorter diff
would do.
-/

namespace FerroWg.Tui

open Lib

namespace DiffLine

/-- The line of the old text. -/
@[simp] def old? : DiffLine → Option String
  | .removed line | .context line => some line
  | .added _ => none

/-- The line of the new text. -/
@[simp] def new? : DiffLine → Option String
  | .added line | .context line => some line
  | .removed _ => none

@[simp] def isChange : DiffLine → Bool
  | .added _ | .removed _ => true
  | .context _ => false

end DiffLine

def changes (diff : List DiffLine) : List DiffLine := diff.filter (·.isChange)

/-! ## The cursors -/

/-- The lines from a cursor on are pushed under one tag. -/
def pushRest (tag : String → DiffLine) (lines : List String) (i : Nat) (diff : List DiffLine) :
    List DiffLine :=
  if h : i < lines.length then pushRest tag lines (i + 1) (diff ++ [tag lines[i]]) else diff
termination_by lines.length - i

/-- Both cursors move together until one text is used up; then the loops for the rest follow. -/
def diffFrom (oldLines newLines : List String) (i j : Nat) (diff : List DiffLine) :
    List DiffLine :=
  if h : i < oldLines.length ∧ j < newLines.length then
    have := h.1
    have := h.2
    if oldLines[i] = newLines[j] then
      diffFrom oldLines newLines (i + 1) (j + 1) (diff ++ [.context oldLines[i]])
    else
      diffFrom oldLines newLines (i + 1) (j + 1)
        (diff ++ [.removed oldLines[i], .added newLines[j]])
  else pushRest .added newLines j (pushRest .removed oldLines i diff)
termination_by oldLines.length - i

theorem pushRest_eq (tag : String → DiffLine) (lines : List String) (i : Nat)
    (diff : List DiffLine) : pushRest tag lines i diff = diff ++ (lines.drop i).map tag := by
  induction i, diff using pushRest.induct tag lines with
  | case1 i diff inside ih =>
    rw [pushRest, dif_pos inside, ih, List.drop_eq_getElem_cons inside, List.map_cons]
    simp
  | case2 i diff outside =>
    rw [pushRest, dif_neg outside, List.drop_eq_nil_of_le (by omega)]
    simp

theorem diffLines_of_exhausted {olds news : List String} (done : olds = [] ∨ news = []) :
    diffLines olds news = olds.map .removed ++ news.map .added := by
  rcases done with rfl | rfl
  · cases news <;> simp [diffLines]
  · cases olds <;> simp [diffLines]

theorem diffFrom_eq (oldLines newLines : List String) (i j : Nat) (diff : List DiffLine) :
    diffFrom oldLines newLines i j diff =
      diff ++ diffLines (oldLines.drop i) (newLines.drop j) := by
  induction i, j, diff using diffFrom.induct oldLines newLines with
  | case1 i j diff inside _ _ same ih =>
    rw [diffFrom, dif_pos inside, if_pos same, ih, List.drop_eq_getElem_cons inside.1,
      List.drop_eq_getElem_cons inside.2, diffLines, if_pos same]
    simp
  | case2 i j diff inside _ _ apart ih =>
    rw [diffFrom, dif_pos inside, if_neg apart, ih, List.drop_eq_getElem_cons inside.1,
      List.drop_eq_getElem_cons inside.2, diffLines, if_neg apart]
    simp
  | case3 i j diff outside =>
    rw [diffFrom, dif_neg outside, pushRest_eq, pushRest_eq, List.append_assoc,
      diffLines_of_exhausted]
    rw [List.drop_eq_nil_iff, List.drop_eq_nil_iff]
    omega

/-- The loops, with both cursors at the first line, compute the diff of the preview. -/
theorem configDiff_eq_diffFrom (oldToml newToml : String) :
    configDiff oldToml newToml = diffFrom (Text.lines oldToml) (Text.lines newToml) 0 0 [] := by
  rw [diffFrom_eq]
  rfl

/-! ## The two texts, read back -/

theorem filterMap_old_diffLines (olds news : List String) :
    (diffLines olds news).filterMap DiffLine.old? = olds := by
  induction olds, news using diffLines.induct with
  | case1 line olds news ih => simp [diffLines, ih]
  | case2 old olds new news apart ih => simp [diffLines, List.filterMap_cons, apart, ih]
  | case3 olds => simp [diffLines_of_exhausted, Function.comp_def]
  | case4 news => simp [diffLines_of_exhausted, Function.comp_def]

theorem filterMap_new_diffLines (olds news : List String) :
    (diffLines olds news).filterMap DiffLine.new? = news := by
  induction olds, news using diffLines.induct with
  | case1 line olds news ih => simp [diffLines, ih]
  | case2 old olds new news apart ih => simp [diffLines, List.filterMap_cons, apart, ih]
  | case3 olds => simp [diffLines_of_exhausted, Function.comp_def]
  | case4 news => simp [diffLines_of_exhausted, Function.comp_def]

/-- Every position at which the texts agree saves two changes. -/
theorem length_changes_diffLines (olds news : List String) :
    (changes (diffLines olds news)).length + 2 * agreements olds news =
      olds.length + news.length := by
  induction olds, news using diffLines.induct with
  | case1 line olds news ih =>
    simp only [diffLines, ↓reduceIte, changes, List.filter_cons, DiffLine.isChange,
      Bool.false_eq_true, agreements_cons_cons, List.length_cons] at ih ⊢
    omega
  | case2 old olds new news apart ih =>
    simp only [diffLines, apart, ↓reduceIte, changes, List.filter_cons, DiffLine.isChange,
      agreements_cons_cons, List.length_cons] at ih ⊢
    omega
  | case3 olds =>
    rw [diffLines_of_exhausted (.inr rfl), changes]
    simp [List.filter_map, Function.comp_def]
  | case4 news =>
    rw [diffLines_of_exhausted (.inl rfl), changes]
    simp [List.filter_map, Function.comp_def]

theorem old?_eq_new?_of_isContext {line : DiffLine} (kept : ¬line.isChange) :
    line.old? = line.new? := by
  cases line <;> simp at kept ⊢

theorem changes_diffLines_eq_nil_iff (olds news : List String) :
    changes (diffLines olds news) = [] ↔ olds = news := by
  constructor
  · intro quiet
    have kept := List.filter_eq_nil_iff.mp quiet
    calc
      olds = (diffLines olds news).filterMap DiffLine.old? :=
        (filterMap_old_diffLines olds news).symm
      _ = (diffLines olds news).filterMap DiffLine.new? :=
        List.filterMap_congr fun line mem => old?_eq_new?_of_isContext (kept line mem)
      _ = news := filterMap_new_diffLines olds news
  · rintro rfl
    induction olds with
    | nil => rfl
    | cons line olds ih => simpa [diffLines, changes] using ih

/-- No line of either text is lost, made up or out of its place. -/
theorem config_diff_faithful (oldToml newToml : String) :
    (configDiff oldToml newToml).filterMap DiffLine.old? = Text.lines oldToml ∧
      (configDiff oldToml newToml).filterMap DiffLine.new? = Text.lines newToml ∧
      (changes (configDiff oldToml newToml) = [] ↔ Text.lines oldToml = Text.lines newToml) :=
  ⟨filterMap_old_diffLines _ _, filterMap_new_diffLines _ _, changes_diffLines_eq_nil_iff _ _⟩

/-! ## Its length -/

theorem diffLines_append (front olds news : List String) :
    diffLines (front ++ olds) (front ++ news) = front.map .context ++ diffLines olds news := by
  induction front with
  | nil => rfl
  | cons line front ih => simp [diffLines, ih]

theorem changes_context_append (front : List String) (diff : List DiffLine) :
    changes (front.map .context ++ diff) = changes diff := by
  simp [changes]

/-- The shorter text's lines are all kept when each is the line in front of it. -/
theorem changes_diffLines_of_repeated {line : String} {back : List String}
    (repeated : ∀ later ∈ back, later = line) :
    changes (diffLines back (line :: back)) = [.added line] ∧
      changes (diffLines (line :: back) back) = [.removed line] := by
  induction back generalizing line with
  | nil => exact ⟨rfl, rfl⟩
  | cons later back ih =>
    obtain rfl := repeated later List.mem_cons_self
    have rest := ih fun next mem => repeated next (List.mem_cons_of_mem _ mem)
    simpa [diffLines, changes] using rest

/-- A line more or less is one change just when all that follows repeats it. -/
theorem changes_diffLines_insert_iff (front : List String) (line : String) (back : List String) :
    (changes (diffLines (front ++ back) (front ++ line :: back)) = [.added line] ↔
      ∀ later ∈ back, later = line) ∧
    (changes (diffLines (front ++ line :: back) (front ++ back)) = [.removed line] ↔
      ∀ later ∈ back, later = line) := by
  rw [diffLines_append, diffLines_append, changes_context_append, changes_context_append]
  constructor
  · refine ⟨fun single => (agreements_shifted_iff line back).mp ?_,
      fun repeated => (changes_diffLines_of_repeated repeated).1⟩
    have count := length_changes_diffLines back (line :: back)
    rw [single, List.length_singleton, List.length_cons] at count
    omega
  · refine ⟨fun single => (agreements_shifted_iff line back).mp ?_,
      fun repeated => (changes_diffLines_of_repeated repeated).2⟩
    have count := length_changes_diffLines (line :: back) back
    rw [single, List.length_singleton, List.length_cons, agreements_comm] at count
    omega

/-- The diff is as short as any when no common subsequence of the lines is longer than the number
of positions at which the two texts agree. -/
theorem config_diff_minimal_iff (oldToml newToml : String) :
    ((changes (configDiff oldToml newToml)).length =
        (Text.lines oldToml).length + (Text.lines newToml).length -
          2 * lcsLength (Text.lines oldToml) (Text.lines newToml) ↔
      agreements (Text.lines oldToml) (Text.lines newToml) =
        lcsLength (Text.lines oldToml) (Text.lines newToml)) ∧
    (∀ front line back, Text.lines oldToml = front ++ back →
      Text.lines newToml = front ++ line :: back →
      (changes (configDiff oldToml newToml) = [.added line] ↔ ∀ later ∈ back, later = line)) ∧
    (∀ front line back, Text.lines oldToml = front ++ line :: back →
      Text.lines newToml = front ++ back →
      (changes (configDiff oldToml newToml) = [.removed line] ↔
        ∀ later ∈ back, later = line)) := by
  rw [configDiff]
  refine ⟨?_, fun front line back olds news => ?_, fun front line back olds news => ?_⟩
  · have count := length_changes_diffLines (Text.lines oldToml) (Text.lines newToml)
    have bound := agreements_le_lcsLength (Text.lines oldToml) (Text.lines newToml)
    have left := lcsLength_le_left (Text.lines oldToml) (Text.lines newToml)
    have right := lcsLength_le_right (Text.lines oldToml) (Text.lines newToml)
    omega
  · rw [olds, news]
    exact (changes_diffLines_insert_iff front line back).1
  · rw [olds, news]
    exact (changes_diffLines_insert_iff front line back).2

/-- A line put in front of another is shown as three changes. -/
theorem config_diff_not_minimal :
    ¬∀ oldToml newToml, (changes (configDiff oldToml newToml)).length =
      (Text.lines oldToml).length + (Text.lines newToml).length -
        2 * lcsLength (Text.lines oldToml) (Text.lines newToml) :=
  fun minimal => absurd (minimal "a\n" "b\na\n") (by decide +kernel)

end FerroWg.Tui
