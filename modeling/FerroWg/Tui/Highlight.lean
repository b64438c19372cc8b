import FerroWg.Lib.Utf8
import FerroWg.Tui.Components

/-!
# Highlighting what was searched

`highlight_matches` and `apply_search_highlights` of `logs.rs`. The cursor is a byte offset that is
found in a lowered copy of the text and cuts the text itself; a cut inside a character is a panic.
-/

namespace FerroWg.Tui

open Lib Text
open String (utf8Len)

/-- A span of a line; whether its text is borrowed, as a message is, or owned. -/
structure StyledSpan (Style : Type) where
  content : String
  borrowed : Bool
  style : Style
  deriving DecidableEq, Repr

variable {Style : Type}

/-- The text between two offsets in the base style, unless there is none. -/
def spanBetween (text : List Char) (cursor abs : Nat) (baseStyle : Style) :
    Option (List (StyledSpan Style)) :=
  if cursor < abs then (sliceBytes text cursor abs).map fun s => [⟨.ofList s, true, baseStyle⟩]
  else some []

/-- The loop; what is left behind the last match is the last span. -/
def highlightFrom (text lower query : List Char) (baseStyle highlightStyle : Style)
    (nonempty : query ≠ []) (cursor : Nat) (spans : List (StyledSpan Style)) :
    Option (List (StyledSpan Style)) :=
  match _inside : dropBytes lower cursor with
  | none => none
  | some rest =>
    match findBytes query rest with
    | some pos => do
      let abs := cursor + pos
      let before ← spanBetween text cursor abs baseStyle
      let found ← sliceBytes text abs (abs + utf8Len query)
      highlightFrom text lower query baseStyle highlightStyle nonempty (abs + utf8Len query)
        (spans ++ before ++ [⟨.ofList found, true, highlightStyle⟩])
    | none => (spanBetween text cursor (utf8Len text) baseStyle).map (spans ++ ·)
termination_by utf8Len lower + 1 - cursor
decreasing_by
  have bound := le_utf8Len_of_dropBytes _inside
  have progress := utf8Len_pos nonempty
  omega

def highlightMatches (text query : String) (baseStyle highlightStyle : Style) :
    Option (List (StyledSpan Style)) :=
  if empty : query.toList = [] then some [⟨text, true, baseStyle⟩]
  else highlightFrom text.toList (toAsciiLowercase text).toList query.toList baseStyle
    highlightStyle empty 0 []

/-- The last span is the message. -/
def applySearchHighlights (spans : List (StyledSpan Style)) (query : String)
    (highlightStyle : Style) : Option (List (StyledSpan Style)) :=
  if query = "" then some spans
  else
    match spans.getLast? with
    | none => some spans
    | some last =>
      if last.borrowed then
        (highlightMatches last.content query last.style highlightStyle).map (spans.dropLast ++ ·)
      else some spans

/-! ## The pieces of a text -/

structure Piece where
  chars : List Char
  marked : Bool
  deriving DecidableEq, Repr

def Piece.span (baseStyle highlightStyle : Style) (p : Piece) : StyledSpan Style :=
  ⟨.ofList p.chars, true, if p.marked then highlightStyle else baseStyle⟩

/-- Where the marked pieces start, from a given position on. -/
def starts : Nat → List Piece → List Nat
  | _, [] => []
  | i, p :: ps => (if p.marked then [i] else []) ++ starts (i + p.chars.length) ps

theorem starts_append (i : Nat) (ps qs : List Piece) :
    starts i (ps ++ qs) = starts i ps ++ starts (i + (ps.flatMap (·.chars)).length) qs := by
  induction ps generalizing i with
  | nil => rfl
  | cons p ps ih => simp [starts, ih, Nat.add_assoc]

/-- A piece that is not marked, unless it would be empty. -/
def plain (chars : List Char) : List Piece := if chars = [] then [] else [⟨chars, false⟩]

theorem flatMap_plain (chars : List Char) : (plain chars).flatMap (·.chars) = chars := by
  rw [plain]
  split_ifs with empty <;> simp [empty]

theorem starts_plain (i : Nat) (chars : List Char) : starts i (plain chars) = [] := by
  rw [plain]
  split_ifs <;> rfl

theorem mem_plain {p : Piece} {chars : List Char} (mem : p ∈ plain chars) :
    p.chars ≠ [] ∧ p.marked = false := by
  rw [plain] at mem
  split_ifs at mem with empty
  · cases mem
  · obtain rfl := List.mem_singleton.mp mem
    exact ⟨empty, rfl⟩

/-- The pieces of a text from a position on, marked where a scan of the lowered text finds the
word. -/
structure Cut (query text : List Char) (i : Nat) (ps : List Piece) : Prop where
  nonempty : ∀ p ∈ ps, p.chars ≠ []
  whole : ps.flatMap (·.chars) = text.drop i
  marks : Leftmost query (text.map asciiLower) i (starts i ps)
  width : ∀ p ∈ ps, p.marked = true → p.chars.length = query.length

section

variable {query text : List Char} {i : Nat}

theorem cut_rest (ended : ∀ p, i ≤ p → ¬OccursAt query (text.map asciiLower) p) :
    Cut query text i (plain (text.drop i)) where
  nonempty p mem := (mem_plain mem).1
  whole := flatMap_plain _
  marks := by
    rw [starts_plain]
    exact .stop ended
  width p mem marked := by simp [(mem_plain mem).2] at marked

theorem occursAt_bound {p : Nat} (word : query ≠ [])
    (here : OccursAt query (text.map asciiLower) p) : p + query.length ≤ text.length ∧ p < text.length := by
  have short := here.length_le
  have size := List.length_pos_iff.mpr word
  rw [List.length_drop, List.length_map] at short
  omega

/-- What stands at an occurrence is the word, but for the case of its letters. -/
theorem map_take_of_occursAt {p : Nat} (here : OccursAt query (text.map asciiLower) p) :
    ((text.drop p).take query.length).map asciiLower = query := by
  rw [List.map_take, List.map_drop]
  exact (List.prefix_iff_eq_take.mp here).symm

theorem cut_found {k : Nat} {ps : List Piece} (word : query ≠ [])
    (here : OccursAt query (text.map asciiLower) (i + k))
    (first : ∀ p, i ≤ p → p < i + k → ¬OccursAt query (text.map asciiLower) p)
    (rest : Cut query text (i + k + query.length) ps) :
    Cut query text i (plain ((text.drop i).take k) ++
      ⟨(text.drop (i + k)).take query.length, true⟩ :: ps) := by
  obtain ⟨fits, inside⟩ := occursAt_bound word here
  have width : ((text.drop (i + k)).take query.length).length = query.length := by
    rw [List.length_take, List.length_drop]
    omega
  have gap : ((text.drop i).take k).length = k := by
    rw [List.length_take, List.length_drop]
    omega
  constructor
  · rw [List.forall_mem_append, List.forall_mem_cons]
    refine ⟨fun p mem => (mem_plain mem).1, fun empty => word ?_, rest.nonempty⟩
    rw [show (text.drop (i + k)).take query.length = [] from empty] at width
    exact List.length_eq_zero_iff.mp width.symm
  · have hit := List.take_append_drop query.length (text.drop (i + k))
    have all := List.take_append_drop k (text.drop i)
    rw [List.drop_drop] at hit all
    simp only [List.flatMap_append, flatMap_plain, List.flatMap_cons, rest.whole, hit, all]
  · rw [starts_append, starts_plain, flatMap_plain, gap, starts]
    simp only [↓reduceIte, width]
    exact .next (Nat.le_add_right i k) here first rest.marks
  · rw [List.forall_mem_append, List.forall_mem_cons]
    refine ⟨fun p mem marked => ?_, fun _ => width, rest.width⟩
    simp [(mem_plain mem).2] at marked

variable (baseStyle highlightStyle : Style)

theorem map_span_plain (chars : List Char) :
    (plain chars).map (Piece.span baseStyle highlightStyle) =
      if chars = [] then [] else [⟨.ofList chars, true, baseStyle⟩] := by
  rw [plain]
  split_ifs <;> rfl

/-- What is not matched is a plain piece. -/
theorem spanBetween_eq {k : Nat} (fits : i + k ≤ text.length) :
    spanBetween text (utf8Len (text.take i)) (utf8Len (text.take (i + k))) baseStyle =
      some ((plain ((text.drop i).take k)).map (Piece.span baseStyle highlightStyle)) := by
  have empty : (text.drop i).take k = [] ↔ ¬0 < k := by
    rw [← List.length_eq_zero_iff, List.length_take, List.length_drop]
    omega
  simp only [spanBetween, utf8Len_take_lt_iff fits, sliceBytes_take, map_span_plain, empty]
  split_ifs <;> rfl

theorem spanBetween_rest (inside : i ≤ text.length) :
    spanBetween text (utf8Len (text.take i)) (utf8Len text) baseStyle =
      some ((plain (text.drop i)).map (Piece.span baseStyle highlightStyle)) := by
  have last := spanBetween_eq baseStyle highlightStyle (Nat.le_of_eq (Nat.add_sub_cancel' inside))
  rwa [Nat.add_sub_cancel' inside, List.take_length, ← List.length_drop, List.take_length] at last

/-- The loop at a cursor between two characters cuts the rest of the text. -/
theorem highlightFrom_cut (word : query ≠ []) (inside : i ≤ text.length)
    (spans : List (StyledSpan Style)) :
    ∃ ps, highlightFrom text (text.map asciiLower) query baseStyle highlightStyle word
        (utf8Len (text.take i)) spans =
      some (spans ++ ps.map (Piece.span baseStyle highlightStyle)) ∧ Cut query text i ps := by
  induction size : text.length - i using Nat.strong_induction_on generalizing i spans with
  | _ n ih =>
    subst size
    have cursor : dropBytes (text.map asciiLower) (utf8Len (text.take i)) =
        some ((text.map asciiLower).drop i) := by
      have lowered := dropBytes_take (text.map asciiLower) i
      rwa [← List.map_take, utf8Len_map_asciiLower] at lowered
    rw [highlightFrom.eq_def]
    split
    · rename_i outside
      simp [cursor] at outside
    · rename_i rest reached
      obtain rfl := Option.some.inj (cursor.symm.trans reached)
      rw [findBytes]
      cases found : firstOccurrence query ((text.map asciiLower).drop i) with
      | none =>
        have ended : ∀ p, i ≤ p → ¬OccursAt query (text.map asciiLower) p := by
          intro p reached here
          apply firstOccurrence_eq_none found (p - i)
          rwa [occursAt_drop, Nat.add_sub_cancel' reached]
        refine ⟨_, ?_, cut_rest ended⟩
        simp only [Option.map_none, spanBetween_rest baseStyle highlightStyle inside, Option.map_some]
      | some k =>
        obtain ⟨here, bound, first⟩ := firstOccurrence_eq_some found
        rw [occursAt_drop] at here
        obtain ⟨fits, before⟩ := occursAt_bound word here
        have matched : utf8Len ((text.drop (i + k)).take query.length) = utf8Len query := by
          rw [← utf8Len_map_asciiLower, map_take_of_occursAt here]
        have offset : utf8Len (((text.map asciiLower).drop i).take k) =
            utf8Len ((text.drop i).take k) := by
          rw [← List.map_drop, ← List.map_take, utf8Len_map_asciiLower]
        obtain ⟨ps, later, cut⟩ := ih (text.length - (i + k + query.length))
          (by have := List.length_pos_iff.mpr word; omega) fits
          (spans ++ (plain ((text.drop i).take k)).map (Piece.span baseStyle highlightStyle) ++
            [⟨.ofList ((text.drop (i + k)).take query.length), true, highlightStyle⟩]) rfl
        refine ⟨_, ?_, cut_found word here (fun p reached earlier => ?_) cut⟩
        · simp only [Option.map_some, offset, ← utf8Len_take_add, ← matched,
            spanBetween_eq baseStyle highlightStyle (by omega : i + k ≤ text.length),
            sliceBytes_take, bind, Option.bind_some, later]
          simp [Piece.span]
        · have absent := first (p - i) (by omega)
          rwa [occursAt_drop, Nat.add_sub_cancel' reached] at absent

end

theorem starts_eq_nil_iff (i : Nat) (ps : List Piece) :
    starts i ps = [] ↔ ∀ p ∈ ps, p.marked = false := by
  induction ps generalizing i with
  | nil => simp [starts]
  | cons p ps ih => simp [starts, ih]

/-- No cut fails, and the spans are the pieces. -/
theorem highlightMatches_cut {query : String} (text : String) (word : query ≠ "")
    (baseStyle highlightStyle : Style) :
    ∃ ps, highlightMatches text query baseStyle highlightStyle =
        some (ps.map (Piece.span baseStyle highlightStyle)) ∧
      Cut query.toList text.toList 0 ps := by
  have nonempty : query.toList ≠ [] := fun empty => word (String.toList_eq_nil_iff.mp empty)
  rw [highlightMatches, dif_neg nonempty, toAsciiLowercase, String.toList_ofList]
  exact highlightFrom_cut baseStyle highlightStyle nonempty (Nat.zero_le _) []

/-- Some piece is marked just when the line was selected. -/
theorem Cut.marked_iff {query text : String} {ps : List Piece} (word : query ≠ "")
    (cut : Cut query.toList text.toList 0 ps) :
    (∃ p ∈ ps, p.marked = true) ↔ lineMatchesSearch text query = true := by
  have nothing := cut.marks.eq_nil_iff
  rw [starts_eq_nil_iff] at nothing
  have selected : lineMatchesSearch text query = true ↔
      query.toList <:+: text.toList.map asciiLower := by
    simp [lineMatchesSearch, word, Text.contains, toAsciiLowercase]
  rw [selected, ← not_iff_not, ← nothing]
  simp

/-- The message is only cut up. -/
theorem applySearchHighlights_content (spans : List (StyledSpan Style)) (query : String)
    (highlightStyle : Style) :
    ∃ shown, applySearchHighlights spans query highlightStyle = some shown ∧
      shown.flatMap (·.content.toList) = spans.flatMap (·.content.toList) := by
  rw [applySearchHighlights]
  by_cases word : query = ""
  · exact ⟨spans, by simp [word], rfl⟩
  · rw [if_neg word]
    cases last : spans.getLast? with
    | none => exact ⟨spans, rfl, rfl⟩
    | some message =>
      by_cases borrowed : message.borrowed
      · obtain ⟨ps, cuts, cut⟩ :=
          highlightMatches_cut message.content word message.style highlightStyle
        refine ⟨spans.dropLast ++ ps.map (Piece.span message.style highlightStyle),
          by simp only [borrowed, ↓reduceIte, cuts, Option.map_some], ?_⟩
        have whole : spans.dropLast ++ [message] = spans := List.dropLast_append_getLast? _ last
        conv_rhs => rw [← whole]
        have content := cut.whole
        rw [List.drop_zero] at content
        simp [List.flatMap_map, Piece.span, content]
      · exact ⟨spans, by simp [borrowed], rfl⟩

/-- The spans are the text, cut at the occurrences of the query that a scan from the left finds,
and these are what is highlighted. -/
theorem highlight_exact (text query : String) (lowered : toAsciiLowercase query = query)
    (baseStyle highlightStyle : Style) :
    ∃ ps : List Piece, highlightMatches text query baseStyle highlightStyle =
        some (ps.map (Piece.span baseStyle highlightStyle)) ∧
      ps.flatMap (·.chars) = text.toList ∧
      (query = "" → ps = [⟨text.toList, false⟩]) ∧
      (query ≠ "" → (∀ p ∈ ps, p.chars ≠ []) ∧
        (∀ p ∈ ps, p.marked = true → p.chars.length = query.toList.length) ∧
        Leftmost (query.toList.map asciiLower) (text.toList.map asciiLower) 0 (starts 0 ps) ∧
        ((∃ p ∈ ps, p.marked = true) ↔ lineMatchesSearch text query = true)) := by
  have folded : query.toList.map asciiLower = query.toList := by
    conv_rhs => rw [← lowered, toAsciiLowercase, String.toList_ofList]
  rw [folded]
  by_cases word : query = ""
  · subst word
    exact ⟨[⟨text.toList, false⟩], by simp [highlightMatches, Piece.span], by simp,
      fun _ => rfl, fun nonempty => absurd rfl nonempty⟩
  · obtain ⟨ps, cuts, cut⟩ := highlightMatches_cut text word baseStyle highlightStyle
    refine ⟨ps, cuts, cut.whole, fun empty => absurd empty word, fun _ => ?_⟩
    exact ⟨cut.nonempty, cut.width, cut.marks, cut.marked_iff word⟩

/-- A match in another case. -/
theorem highlight_exact_up :
    ∃ ps : List Piece, highlightMatches "Tunnel is UP" "up" false true =
        some (ps.map (Piece.span false true)) ∧ ∃ p ∈ ps, p.marked = true := by
  obtain ⟨ps, cuts, _, _, found⟩ := highlight_exact "Tunnel is UP" "up" rfl false true
  exact ⟨ps, cuts, (found (by decide)).2.2.2.mpr (by decide +kernel)⟩

end FerroWg.Tui
