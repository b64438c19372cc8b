import FerroWg.Lib.Delimited

/-!
# Tokens between separators

A text is cut at all its separators. Its tokens are the pieces that are not blank, without the
blanks at their ends, in order.
-/

namespace FerroWg.Lib.Text

/-- All that a text is cut into at its separators. -/
structure Pieces (sep : Char) (s : String) (pieces : List String) : Prop where
  nonempty : pieces ≠ []
  joined : s.toList = [sep].intercalate (pieces.map String.toList)
  free : ∀ piece ∈ pieces, sep ∉ piece.toList

/-- A text without the blanks at either end, of which something is left. -/
structure Bare (s token : String) : Prop where
  cut : ∃ left right, Blank left ∧ Blank right ∧ s.toList = left ++ token.toList ++ right
  first : ∃ c ∈ token.toList.head?, isWhitespace c = false
  last : ∃ c ∈ token.toList.getLast?, isWhitespace c = false

/-- Of each piece that is not blank what is left of it, in order. -/
inductive Tokens : List String → List String → Prop
  | nil : Tokens [] []
  | blank {piece : String} {pieces tokens : List String} (blank : Blank piece.toList)
      (later : Tokens pieces tokens) : Tokens (piece :: pieces) tokens
  | token {piece token : String} {pieces tokens : List String} (bare : Bare piece token)
      (later : Tokens pieces tokens) : Tokens (piece :: pieces) (token :: tokens)

/-- The tokens of a text. -/
def Lists (sep : Char) (s : String) (tokens : List String) : Prop :=
  ∃ pieces, Pieces sep s pieces ∧ Tokens pieces tokens

theorem pieces_iff {sep : Char} {s : String} {pieces : List String} :
    Pieces sep s pieces ↔ pieces = split sep s := by
  constructor
  · rintro ⟨nonempty, joined, free⟩
    have whole : s = Delimited.row sep pieces := by
      rw [← String.toList_inj, joined, Delimited.toList_row]
    rw [whole, Delimited.split_row nonempty free]
  · rintro rfl
    have parts : (split sep s).map String.toList = s.toList.splitOn sep := by
      simp [split, Function.comp_def, List.splitOn_eq_splitOnP]
    refine ⟨?_, ?_, fun piece member => (split_part member).1⟩
    · simp [split]
    · rw [parts, List.intercalate_splitOn]

/-! ## Blank pieces and bare ones -/

theorem trim_eq_empty_iff {s : String} : trim s = "" ↔ Blank s.toList := by
  constructor
  · intro empty c member
    by_contra solid
    exact trim_ne_empty member (by simpa using solid) empty
  · intro blank
    have nothing := trimChars_append_blank [] blank
    rw [List.nil_append, trimChars_nil] at nothing
    rw [trim_eq, nothing]

/-- Nothing is trimmed off a text with no blank at either end. -/
theorem trimChars_of_solid {l : List Char} (first : ∃ c ∈ l.head?, isWhitespace c = false)
    (last : ∃ c ∈ l.getLast?, isWhitespace c = false) : trimChars l = l := by
  obtain ⟨c, begins, solid⟩ := first
  obtain ⟨d, ends, solid'⟩ := last
  obtain ⟨rest, rfl⟩ := List.head?_eq_some_iff.mp begins
  obtain ⟨body, whole⟩ := List.getLast?_eq_some_iff.mp ends
  rw [trimChars, List.dropWhile_cons_of_neg (by simp [solid]), whole,
    List.rdropWhile_concat_neg _ _ _ (by simp [solid'])]

theorem head_trimChars {l : List Char} (left : trimChars l ≠ []) :
    ∃ c ∈ (trimChars l).head?, isWhitespace c = false := by
  obtain ⟨c, rest, text⟩ := List.exists_cons_of_ne_nil left
  obtain ⟨right, whole⟩ := List.rdropWhile_prefix isWhitespace (l := l.dropWhile isWhitespace)
  have front : l.dropWhile isWhitespace = c :: (rest ++ right) := by
    rw [← whole, ← List.cons_append, ← text, trimChars]
  have some : l.dropWhile isWhitespace ≠ [] := front ▸ List.cons_ne_nil _ _
  have solid := List.head_dropWhile_not isWhitespace some
  simp only [front, List.head_cons] at solid
  exact ⟨c, by rw [text]; rfl, solid⟩

theorem last_trimChars {l : List Char} (left : trimChars l ≠ []) :
    ∃ c ∈ (trimChars l).getLast?, isWhitespace c = false := by
  have solid := List.rdropWhile_last_not isWhitespace (l.dropWhile isWhitespace) left
  rw [Bool.not_eq_true] at solid
  exact ⟨_, List.getLast?_eq_some_getLast left, solid⟩

theorem bare_iff {s token : String} : Bare s token ↔ token = trim s ∧ token ≠ "" := by
  constructor
  · rintro ⟨⟨left, right, blankLeft, blankRight, whole⟩, first, last⟩
    have same : trimChars s.toList = token.toList := by
      rw [whole, trimChars_append_blank _ blankRight, trimChars_blank_append blankLeft,
        trimChars_of_solid first last]
    refine ⟨by rw [trim_eq, same, String.ofList_toList], ?_⟩
    rintro rfl
    obtain ⟨c, begins, -⟩ := first
    simp at begins
  · rintro ⟨rfl, nonempty⟩
    have left : trimChars s.toList ≠ [] := by
      rw [← toList_trim]
      exact fun nothing => nonempty (String.toList_inj.mp nothing)
    obtain ⟨before, after, blankBefore, blankAfter, whole⟩ := trimChars_spec s.toList
    rw [← toList_trim] at whole
    exact ⟨⟨before, after, blankBefore, blankAfter, whole⟩,
      toList_trim s ▸ head_trimChars left, toList_trim s ▸ last_trimChars left⟩

/-- The tokens of pieces are the trimmed ones that are not empty. -/
theorem tokens_iff {pieces tokens : List String} :
    Tokens pieces tokens ↔ tokens = (pieces.map trim).filter (· ≠ "") := by
  constructor
  · intro cut
    induction cut with
    | nil => rfl
    | blank blank _ ih =>
      rw [List.map_cons, List.filter_cons_of_neg (by simp [trim_eq_empty_iff.mpr blank]), ih]
    | token bare _ ih =>
      obtain ⟨rfl, nonempty⟩ := bare_iff.mp bare
      rw [List.map_cons, List.filter_cons_of_pos (by simpa using nonempty), ih]
  · rintro rfl
    induction pieces with
    | nil => exact .nil
    | cons piece pieces ih =>
      by_cases empty : trim piece = ""
      · rw [List.map_cons, List.filter_cons_of_neg (by simp [empty])]
        exact .blank (trim_eq_empty_iff.mp empty) ih
      · rw [List.map_cons, List.filter_cons_of_pos (by simpa using empty)]
        exact .token (bare_iff.mpr ⟨rfl, empty⟩) ih

theorem lists_iff {sep : Char} {s : String} {tokens : List String} :
    Lists sep s tokens ↔ tokens = ((split sep s).map trim).filter (· ≠ "") := by
  simp only [Lists, pieces_iff, tokens_iff, exists_eq_left]

end FerroWg.Lib.Text
