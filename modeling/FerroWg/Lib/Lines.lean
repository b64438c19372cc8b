import FerroWg.Lib.Text
import Mathlib.Data.List.Forall2

/-!
# Trimmed parts of texts

Parts of a text are compared after trimming. Blanks at the ends of the whole then make no
difference, and neither does the carriage return before a line feed.
-/

namespace FerroWg.Lib.Text

def Blank (l : List Char) : Prop := ∀ c ∈ l, isWhitespace c = true

/-- `trim` on characters. -/
def trimChars (l : List Char) : List Char := (l.dropWhile isWhitespace).rdropWhile isWhitespace

@[simp] theorem trimChars_nil : trimChars [] = [] := rfl

theorem trim_eq (s : String) : trim s = .ofList (trimChars s.toList) := rfl

@[simp] theorem toList_trim (s : String) : (trim s).toList = trimChars s.toList := by
  rw [trim_eq, String.toList_ofList]

theorem trimChars_blank_append {w : List Char} (blank : Blank w) (l : List Char) :
    trimChars (w ++ l) = trimChars l := by
  rw [trimChars, List.dropWhile_append_of_pos blank, trimChars]

theorem trimChars_append_blank (l : List Char) {w : List Char} (blank : Blank w) :
    trimChars (l ++ w) = trimChars l := by
  induction w using List.reverseRecOn with
  | nil => rw [List.append_nil]
  | append_singleton w c ih =>
    have here : isWhitespace c = true := blank c (by simp)
    have before : Blank w := fun d member => blank d (by simp [member])
    rw [← ih before, ← List.append_assoc]
    unfold trimChars
    rw [List.dropWhile_append]
    split
    · next nothing =>
      have gone : (l ++ w).dropWhile isWhitespace = [] := List.isEmpty_iff.mp nothing
      simp [gone, here]
    · rw [List.rdropWhile_concat_pos _ _ _ here]

/-- What is trimmed off are blanks. -/
theorem trimChars_spec (l : List Char) :
    ∃ left right, Blank left ∧ Blank right ∧ l = left ++ trimChars l ++ right := by
  refine ⟨l.takeWhile isWhitespace, (l.dropWhile isWhitespace).rtakeWhile isWhitespace,
    fun c member => List.mem_takeWhile_imp member,
    fun c member => List.mem_rtakeWhile_imp member, ?_⟩
  rw [trimChars, List.append_assoc, List.rdropWhile_append_rtakeWhile,
    List.takeWhile_append_dropWhile]

theorem trimChars_trimChars (l : List Char) : trimChars (trimChars l) = trimChars l := by
  obtain ⟨left, right, blankLeft, blankRight, whole⟩ := trimChars_spec l
  conv_rhs => rw [whole]
  rw [trimChars_append_blank _ blankRight, trimChars_blank_append blankLeft]

@[simp] theorem trim_trim (s : String) : trim (trim s) = trim s := by
  rw [trim_eq, toList_trim, trimChars_trimChars, trim_eq]

theorem mem_of_mem_trim {s : String} {c : Char} (member : c ∈ (trim s).toList) :
    c ∈ s.toList := by
  obtain ⟨left, right, -, -, whole⟩ := trimChars_spec s.toList
  rw [whole]
  rw [toList_trim] at member
  simp [member]

theorem trim_ne_empty {s : String} {c : Char} (member : c ∈ s.toList)
    (solid : isWhitespace c = false) : trim s ≠ "" := by
  obtain ⟨left, right, blankLeft, blankRight, whole⟩ := trimChars_spec s.toList
  intro empty
  have nothing : trimChars s.toList = [] := by
    rw [← toList_trim, empty, String.toList_empty]
  rw [whole, nothing, List.append_nil, List.mem_append] at member
  rcases member with before | after
  · simp [blankLeft c before] at solid
  · simp [blankRight c after] at solid

/-! ## Splitting -/

section

variable {α : Type*} {p : α → Bool} {w : List α}

theorem splitOnP_free_append (free : ∀ a ∈ w, p a = false) (l : List α) :
    ∃ head rest, l.splitOnP p = head :: rest ∧ (w ++ l).splitOnP p = (w ++ head) :: rest := by
  induction w with
  | nil =>
    obtain ⟨head, rest, parts⟩ := List.exists_cons_of_ne_nil (List.splitOnP_ne_nil p l)
    exact ⟨head, rest, parts, parts⟩
  | cons a w ih =>
    obtain ⟨head, rest, parts, longer⟩ := ih fun b member => free b (.tail _ member)
    refine ⟨head, rest, parts, ?_⟩
    simp [List.splitOnP_cons_eq_if_modifyHead, free a (.head _), longer]

theorem splitOnP_append_free (l : List α) (free : ∀ a ∈ w, p a = false) :
    ∃ parts last, l.splitOnP p = parts ++ [last] ∧
      (l ++ w).splitOnP p = parts ++ [last ++ w] := by
  induction l with
  | nil => exact ⟨[], [], rfl, List.splitOnP_eq_singleton free⟩
  | cons a l ih =>
    obtain ⟨parts, last, split, longer⟩ := ih
    by_cases sep : p a
    · exact ⟨[] :: parts, last, by simp [List.splitOnP_cons_eq_if_modifyHead, sep, split],
        by simp [List.splitOnP_cons_eq_if_modifyHead, sep, longer]⟩
    · cases parts with
      | nil => exact ⟨[], a :: last, by simp [List.splitOnP_cons_eq_if_modifyHead, sep, split],
          by simp [List.splitOnP_cons_eq_if_modifyHead, sep, longer]⟩
      | cons head parts =>
        exact ⟨(a :: head) :: parts, last,
          by simp [List.splitOnP_cons_eq_if_modifyHead, sep, split],
          by simp [List.splitOnP_cons_eq_if_modifyHead, sep, longer]⟩

/-- A part holds no separator, and nothing that is not in the whole. -/
theorem splitOnP_part {l : List α} : ∀ part ∈ l.splitOnP p, ∀ a ∈ part, p a = false ∧ a ∈ l := by
  induction l with
  | nil => simp [List.splitOnP_nil]
  | cons b l ih =>
    have later (part) (member : part ∈ l.splitOnP p) (a) (inside : a ∈ part) :
        p a = false ∧ a ∈ b :: l := (ih part member a inside).imp_right (.tail _)
    rw [List.splitOnP_cons_eq_if_modifyHead]
    by_cases sep : p b
    · simpa [sep] using later
    · obtain ⟨head, rest, parts⟩ := List.exists_cons_of_ne_nil (List.splitOnP_ne_nil p l)
      rw [parts] at later
      simp only [sep, parts, Bool.false_eq_true, ↓reduceIte, List.modifyHead_cons,
        List.forall_mem_cons] at later ⊢
      exact ⟨⟨⟨by simp, .head _⟩, later.1⟩, later.2⟩

end

theorem Blank.free {sep : Char} {w : List Char} (blank : Blank w)
    (solid : isWhitespace sep = false) : ∀ c ∈ w, (c == sep) = false := by
  intro c member
  rw [beq_eq_false_iff_ne]
  rintro rfl
  simp [blank c member] at solid

theorem mem_split {sep : Char} {s part : String} :
    part ∈ split sep s ↔ part.toList ∈ s.toList.splitOnP (· == sep) := by
  simp only [split, List.mem_map]
  constructor
  · rintro ⟨chars, member, rfl⟩
    rwa [String.toList_ofList]
  · exact fun member => ⟨_, member, String.ofList_toList⟩

theorem split_part {sep : Char} {s part : String} (member : part ∈ split sep s) :
    sep ∉ part.toList ∧ ∀ c ∈ part.toList, c ∈ s.toList := by
  have chars := splitOnP_part part.toList (mem_split.mp member)
  refine ⟨fun inside => ?_, fun c inside => (chars c inside).2⟩
  simpa using (chars sep inside).1

/-- Two parts are a text with one separator. -/
theorem split_eq_pair_iff {sep : Char} {s before after : String} :
    split sep s = [before, after] ↔
      s.toList = before.toList ++ sep :: after.toList ∧ sep ∉ before.toList ∧
        sep ∉ after.toList := by
  constructor
  · intro parts
    have whole : [sep].intercalate (s.toList.splitOn sep) = s.toList :=
      List.intercalate_splitOn sep
    have chars : s.toList.splitOn sep = [before.toList, after.toList] := by
      have listed := congrArg (List.map String.toList) parts
      simpa [split, Function.comp_def, List.splitOn_eq_splitOnP] using listed
    rw [chars] at whole
    exact ⟨by simp [← whole], (split_part (s := s) (by simp [parts])).1,
      (split_part (s := s) (by simp [parts])).1⟩
  · rintro ⟨whole, first, second⟩
    have free {part : String} (absent : sep ∉ part.toList) :
        ∀ c ∈ part.toList, (c == sep) = false :=
      fun c inside => beq_eq_false_iff_ne.mpr fun same => absent (same ▸ inside)
    rw [split, whole,
      List.splitOnP_append_cons_of_forall_mem (free first) sep (beq_self_eq_true sep),
      List.splitOnP_eq_singleton (free second)]
    simp

theorem map_trim_split (sep : Char) (s : String) :
    (split sep s).map trim = ((s.toList.splitOnP (· == sep)).map trimChars).map .ofList := by
  simp [split, Function.comp_def, trim_eq]

/-- Blanks around a text go to its first and its last part. -/
theorem map_trim_split_trim {sep : Char} (solid : isWhitespace sep = false) (s : String) :
    (split sep (trim s)).map trim = (split sep s).map trim := by
  obtain ⟨left, right, blankLeft, blankRight, whole⟩ := trimChars_spec s.toList
  rw [map_trim_split, map_trim_split, toList_trim]
  congr 1
  conv_rhs => rw [whole]
  obtain ⟨parts, last, short, long⟩ :=
    splitOnP_append_free (left ++ trimChars s.toList) (blankRight.free solid)
  obtain ⟨head, rest, first, second⟩ := splitOnP_free_append (blankLeft.free solid) (trimChars s.toList)
  rw [long, List.map_append, List.map_singleton, trimChars_append_blank _ blankRight,
    ← List.map_singleton, ← List.map_append, ← short, second, first, List.map_cons, List.map_cons,
    trimChars_blank_append blankLeft]

/-- A separator, with blanks on either side of it. -/
structure Glue (sep : Char) (glue : String) : Prop where
  solid : isWhitespace sep = false
  shape : ∃ left right, Blank left ∧ Blank right ∧ glue.toList = left ++ sep :: right

/-- Parts that are joined are told apart again. -/
theorem map_trim_split_intercalate {sep : Char} {glue : String} (joint : Glue sep glue)
    {parts : List String} (nonempty : parts ≠ []) (free : ∀ part ∈ parts, sep ∉ part.toList) :
    (split sep (glue.intercalate parts)).map trim = parts.map trim := by
  obtain ⟨left, right, blankLeft, blankRight, shape⟩ := joint.shape
  induction parts with
  | nil => contradiction
  | cons part rest ih =>
    have here : ∀ c ∈ part.toList, (c == sep) = false := fun c member =>
      beq_eq_false_iff_ne.mpr fun same => free part (.head _) (same ▸ member)
    by_cases last : rest = []
    · simp [last, map_trim_split, List.splitOnP_eq_singleton here, trim_eq]
    · have text : (glue.intercalate (part :: rest)).toList =
          (part.toList ++ left) ++ sep :: (right ++ (glue.intercalate rest).toList) := by
        simp [String.intercalate_cons_of_ne_nil last, shape]
      have unmarked : ∀ c ∈ part.toList ++ left, (c == sep) = false := by
        intro c member
        rcases List.mem_append.mp member with member | member
        · exact here c member
        · exact blankLeft.free joint.solid c member
      obtain ⟨head, others, whole, shifted⟩ :=
        splitOnP_free_append (blankRight.free joint.solid) (glue.intercalate rest).toList
      have later := ih last fun other member => free other (.tail _ member)
      rw [map_trim_split, whole, List.map_cons, List.map_cons] at later
      rw [map_trim_split, text,
        List.splitOnP_append_cons_of_forall_mem unmarked sep (beq_self_eq_true sep), shifted,
        List.map_cons, List.map_cons, trimChars_append_blank _ blankLeft, List.map_cons,
        trimChars_blank_append blankRight, List.map_cons, List.map_cons, later, trim_eq]

theorem splitOnce_eq_none_iff {sep : Char} {s : String} :
    splitOnce sep s = none ↔ sep ∉ s.toList := by
  rw [splitOnce, List.span_eq_takeWhile_dropWhile]
  cases rest : s.toList.dropWhile (· != sep) with
  | nil =>
    simp only [true_iff]
    intro member
    simpa using List.dropWhile_eq_nil_iff.mp rest sep member
  | cons c after =>
    simp only [reduceCtorEq, false_iff, not_not]
    have stopped : c = sep := by
      have := List.head_dropWhile_not (· != sep) (by simp [rest] : s.toList.dropWhile (· != sep) ≠ [])
      simpa [rest] using this
    exact stopped ▸ (List.dropWhile_suffix _).subset (rest ▸ List.mem_cons_self)

theorem splitOnce_of_eq {sep : Char} {s : String} {before after : List Char}
    (text : s.toList = before ++ sep :: after) (first : sep ∉ before) :
    splitOnce sep s = some (.ofList before, .ofList after) := by
  have unmarked : ∀ c ∈ before, (c != sep) = true := fun c member =>
    bne_iff_ne.mpr fun same => first (same ▸ member)
  rw [splitOnce, List.span_eq_takeWhile_dropWhile, text, List.takeWhile_append_of_pos unmarked,
    List.dropWhile_append_of_pos unmarked]
  simp

theorem mem_of_splitOnce {sep : Char} {s before after : String}
    (parts : splitOnce sep s = some (before, after)) : ∀ c ∈ after.toList, c ∈ s.toList := by
  by_cases inside : sep ∈ s.toList
  · obtain ⟨front, back, text, first⟩ := List.eq_append_cons_of_mem inside
    rw [splitOnce_of_eq text first] at parts
    cases parts
    rw [String.toList_ofList, text]
    exact fun c member => List.mem_append_right _ (.tail _ member)
  · rw [splitOnce_eq_none_iff.mpr inside] at parts
    cases parts

/-- Blanks around a text go to the outer ends of the two parts. -/
theorem map_trim_splitOnce_trim {sep : Char} (solid : isWhitespace sep = false) (s : String) :
    (splitOnce sep (trim s)).map (Prod.map trim trim) =
      (splitOnce sep s).map (Prod.map trim trim) := by
  obtain ⟨left, right, blankLeft, blankRight, whole⟩ := trimChars_spec s.toList
  have outside {w : List Char} (blank : Blank w) : sep ∉ w := fun member => by
    simpa using blank.free solid sep member
  by_cases inside : sep ∈ trimChars s.toList
  · obtain ⟨before, after, text, first⟩ := List.eq_append_cons_of_mem inside
    have longer : s.toList = (left ++ before) ++ sep :: (after ++ right) := by
      rw [whole, text]
      simp
    have unmarked : sep ∉ left ++ before := by
      simp [outside blankLeft, first]
    rw [splitOnce_of_eq ((toList_trim s).trans text) first, splitOnce_of_eq longer unmarked]
    simp [trim_eq, trimChars_blank_append blankLeft, trimChars_append_blank _ blankRight]
  · have nowhere : sep ∉ s.toList := by
      rw [whole]
      simp [outside blankLeft, outside blankRight, inside]
    rw [splitOnce_eq_none_iff.mpr nowhere, splitOnce_eq_none_iff.mpr (by rwa [toList_trim])]

/-- A text that begins with more than a blank still does so trimmed. -/
theorem head_trim {c : Char} {rest : List Char} {s : String}
    (solid : isWhitespace c = false) (text : s.toList = c :: rest) :
    (trim s).toList.head? = some c := by
  obtain ⟨left, right, blankLeft, blankRight, whole⟩ := trimChars_spec s.toList
  have outside {w : List Char} (blank : Blank w) : c ∉ w := fun member => by
    simpa using blank.free solid c member
  rw [toList_trim]
  generalize trimChars s.toList = body at whole
  rw [text] at whole
  cases left with
  | cons d left =>
    cases whole
    exact absurd (.head _) (outside blankLeft)
  | nil =>
    cases body with
    | nil => exact absurd (whole ▸ List.mem_cons_self : c ∈ [] ++ [] ++ right) (outside blankRight)
    | cons d body =>
      cases whole
      rfl

theorem startsWith_trim {c : Char} {rest : List Char} {s : String}
    (solid : isWhitespace c = false) (text : s.toList = c :: rest) :
    startsWith c (trim s) = true := by
  rw [startsWith, head_trim solid text, beq_self_eq_true]

/-! ## Occurrences -/

section

variable {needle text a b tail : List Char} {c d : Char}

/-- No occurrence runs over a character that the string does not have. -/
theorem infix_around (absent : c ∉ needle) :
    needle <:+: a ++ c :: b ↔ needle <:+: a ∨ needle <:+: b := by
  constructor
  · intro occurs
    rcases List.infix_append_iff.mp occurs with left | right | ⟨front, back, whole, ends, starts⟩
    · exact .inl left
    · rcases List.infix_cons_iff.mp right with first | right
      · rcases List.prefix_cons_iff.mp first with empty | ⟨rest, whole, -⟩
        · exact .inl (empty ▸ List.nil_infix)
        · exact absurd (whole ▸ List.mem_cons_self) absent
      · exact .inr right
    · rcases List.prefix_cons_iff.mp starts with rfl | ⟨rest, rfl, -⟩
      · rw [whole, List.append_nil]
        exact .inl ends.isInfix
      · exact absurd (whole ▸ List.mem_append_right _ List.mem_cons_self) absent
  · rintro (left | right)
    · exact List.infix_append_of_infix_left left
    · exact List.infix_append_of_infix_right (List.infix_cons right)

theorem infix_blank_append (solid : ∀ d ∈ needle, isWhitespace d = false) {w : List Char}
    (blank : Blank w) (occurs : needle <:+: w ++ a) : needle <:+: a := by
  induction w with
  | nil => exact occurs
  | cons d w ih =>
    have absent : d ∉ needle := fun member => by simpa [solid d member] using blank d (.head _)
    rcases (infix_around (a := []) absent).mp occurs with nothing | later
    · exact List.infix_nil.mp nothing ▸ List.nil_infix
    · exact ih (fun e member => blank e (.tail _ member)) later

theorem infix_append_blank (solid : ∀ d ∈ needle, isWhitespace d = false) {w : List Char}
    (blank : Blank w) (occurs : needle <:+: a ++ w) : needle <:+: a := by
  induction w generalizing a with
  | nil => rwa [List.append_nil] at occurs
  | cons d w ih =>
    have absent : d ∉ needle := fun member => by simpa [solid d member] using blank d (.head _)
    rcases (infix_around absent).mp occurs with here | later
    · exact here
    · have nothing : needle <:+: [] :=
        ih (a := []) (fun e member => blank e (.tail _ member)) later
      exact List.infix_nil.mp nothing ▸ List.nil_infix

/-- Trimming cuts into no occurrence of a string without blanks. -/
theorem infix_trimChars (solid : ∀ d ∈ needle, isWhitespace d = false) :
    needle <:+: trimChars a ↔ needle <:+: a := by
  obtain ⟨left, right, blankLeft, blankRight, whole⟩ := trimChars_spec a
  constructor
  · intro inside
    rw [whole]
    exact List.infix_append_of_infix_left (List.infix_append_of_infix_right inside)
  · intro inside
    rw [whole] at inside
    exact infix_blank_append solid blankLeft (infix_append_blank solid blankRight inside)

theorem splitOnceAt_of_not_infix (absent : ¬ needle <:+: a) : splitOnceAt needle a = none := by
  induction a with
  | nil =>
    have nonempty : needle ≠ [] := fun empty => absent (empty ▸ List.nil_infix)
    simp [splitOnceAt, nonempty]
  | cons d a ih =>
    have later : ¬ needle <:+: a := fun occurs => absent (List.infix_cons occurs)
    have here : needle.isPrefixOf (d :: a) = false := by
      rw [← Bool.not_eq_true, List.isPrefixOf_iff_prefix]
      exact fun first => absent first.isInfix
    simp [splitOnceAt, here, ih later]

theorem splitOnceAt_eq_none_iff :
    splitOnceAt needle text = none ↔ ¬ needle <:+: text := by
  refine ⟨fun missed occurs => ?_, splitOnceAt_of_not_infix⟩
  induction text with
  | nil =>
    obtain rfl := List.infix_nil.mp occurs
    simp [splitOnceAt] at missed
  | cons c rest ih =>
    rw [splitOnceAt] at missed
    split at missed
    · cases missed
    · next later =>
      rcases List.infix_cons_iff.mp occurs with first | inside
      · exact later (List.isPrefixOf_iff_prefix.mpr first)
      · exact ih (Option.map_eq_none_iff.mp missed) inside

/-- A string that has its first character nowhere else overlaps no other occurrence of itself. -/
theorem prefix_of_lone (lone : d ∉ tail) (nonempty : a ≠ [])
    (first : d :: tail <+: a ++ (d :: tail ++ b)) : d :: tail <+: a := by
  obtain ⟨rest, whole⟩ := first
  rcases List.append_eq_append_iff.mp whole with ⟨more, text, -⟩ | ⟨more, text, after⟩
  · exact ⟨more, text.symm⟩
  · cases more with
    | nil => rw [text, List.append_nil]
    | cons e more =>
      obtain ⟨rfl, -⟩ := List.cons.inj after
      cases a with
      | nil => exact absurd rfl nonempty
      | cons x a =>
        obtain ⟨rfl, rest⟩ := List.cons.inj text
        refine absurd ?_ lone
        rw [rest]
        exact List.mem_append_right _ List.mem_cons_self

theorem splitOnceAt_eq_some_iff (lone : d ∉ tail) :
    splitOnceAt (d :: tail) text = some (a, b) ↔
      text = a ++ (d :: tail ++ b) ∧ ¬ d :: tail <:+: a := by
  constructor
  · intro found
    induction text generalizing a with
    | nil => simp [splitOnceAt] at found
    | cons c rest ih =>
      rw [splitOnceAt] at found
      split at found
      · next here =>
        obtain ⟨later, whole⟩ := List.isPrefixOf_iff_prefix.mp here
        obtain ⟨rfl, rfl⟩ := Prod.mk.inj (Option.some.inj found)
        simp [← whole]
      · next later =>
        obtain ⟨⟨before, after⟩, inner, same⟩ := Option.map_eq_some_iff.mp found
        obtain ⟨rfl, rfl⟩ := Prod.mk.inj same
        obtain ⟨rfl, none_before⟩ := ih inner
        refine ⟨rfl, fun occurs => ?_⟩
        rcases List.infix_cons_iff.mp occurs with first | inside
        · exact later (List.isPrefixOf_iff_prefix.mpr (first.trans (List.prefix_append _ _)))
        · exact none_before inside
  · rintro ⟨rfl, none_before⟩
    induction a with
    | nil => simp [splitOnceAt]
    | cons c a ih =>
      have passed : (d :: tail).isPrefixOf (c :: (a ++ (d :: tail ++ b))) = false := by
        rw [← Bool.not_eq_true, List.isPrefixOf_iff_prefix]
        exact fun first => none_before
          (prefix_of_lone lone (List.cons_ne_nil c a) first).isInfix
      have found := ih fun occurs => none_before (List.infix_cons occurs)
      rw [List.cons_append, splitOnceAt, passed, found]
      rfl

/-- Text without the first character of a string begins no occurrence of it. -/
theorem splitOnceAt_append_left (free : d ∉ a) :
    splitOnceAt (d :: tail) (a ++ text) =
      (splitOnceAt (d :: tail) text).map fun (before, after) => (a ++ before, after) := by
  induction a with
  | nil => simp
  | cons c a ih =>
    rw [List.mem_cons, not_or] at free
    have passed : (d :: tail).isPrefixOf (c :: (a ++ text)) = false := by
      simp [List.isPrefixOf, free.1]
    rw [List.cons_append, splitOnceAt, passed, ih free.2]
    simp [Function.comp_def]

theorem splitOnceAt_append_blank {w : List Char}
    (solid : ∀ d ∈ needle, isWhitespace d = false) (nonempty : needle ≠ []) (blank : Blank w) :
    splitOnceAt needle (text ++ w) =
      (splitOnceAt needle text).map fun (before, after) => (before, after ++ w) := by
  have cut {l : List Char} : needle <+: l ++ w ↔ needle <+: l := by
    refine ⟨fun first => ?_, fun first => first.trans (List.prefix_append _ _)⟩
    obtain ⟨rest, whole⟩ := first
    rcases List.append_eq_append_iff.mp whole with ⟨more, inside, -⟩ | ⟨more, longer, after⟩
    · exact ⟨more, inside.symm⟩
    · cases more with
      | nil => rw [longer, List.append_nil]
      | cons c more =>
        have here : isWhitespace c = true := blank c (after ▸ List.mem_cons_self)
        have inside : c ∈ needle := longer ▸ List.mem_append_right _ List.mem_cons_self
        exact absurd here (by simp [solid c inside])
  induction text with
  | nil =>
    have absent : ¬ needle <:+: w := fun occurs => nonempty
      (List.infix_nil.mp (infix_append_blank (a := []) solid blank occurs))
    rw [List.nil_append, splitOnceAt_of_not_infix absent, splitOnceAt, if_neg nonempty]
    rfl
  | cons c text ih =>
    have same : needle.isPrefixOf (c :: (text ++ w)) = needle.isPrefixOf (c :: text) := by
      rw [Bool.eq_iff_iff, List.isPrefixOf_iff_prefix, List.isPrefixOf_iff_prefix]
      exact cut (l := c :: text)
    rw [List.cons_append, splitOnceAt, splitOnceAt, same, ih]
    split
    · next here =>
      obtain ⟨rest, whole⟩ := List.isPrefixOf_iff_prefix.mp here
      rw [← List.cons_append, ← whole]
      simp
    · simp [Function.comp_def]

end

/-! ## Numbers -/

theorem isDigit_of_mem_toString {n : Nat} {c : Char} (member : c ∈ (toString n).toList) :
    c.isDigit = true := by
  rw [Nat.toString_eq_repr, Nat.toList_repr] at member
  exact Nat.isDigit_of_mem_toDigits (by decide) (by decide) member

theorem isWhitespace_of_isDigit {c : Char} (decimal : c.isDigit = true) :
    isWhitespace c = false := by
  have bounds := Char.isDigit_iff_toNat.mp decimal
  simp only [Char.reduceToNat] at bounds
  simp only [isWhitespace, Bool.or_eq_false_iff, Bool.and_eq_false_iff, decide_eq_false_iff_not,
    beq_eq_false_iff_ne, ne_eq]
  omega

theorem trim_toString (n : Nat) : trim (toString n) = toString n :=
  trim_of_no_whitespace _ fun _ member => isWhitespace_of_isDigit (isDigit_of_mem_toString member)

theorem digit_of_isDigit {c : Char} (decimal : c.isDigit = true) :
    digit c = some (c.toNat - '0'.toNat) := by
  have bounds : '0' ≤ c ∧ c ≤ '9' := by
    simpa [Char.isDigit, Char.le_def] using decimal
  rw [digit, if_pos bounds]

theorem parseDigits_of_isDigit {max : Nat} {cs : List Char} {n : Nat}
    (digits : ∀ c ∈ cs, c.isDigit = true) (fits : Nat.ofDigitChars 10 cs n ≤ max) :
    parseDigits max n cs = .ok (Nat.ofDigitChars 10 cs n) := by
  induction cs generalizing n with
  | nil => rw [Nat.ofDigitChars_nil]; rfl
  | cons c cs ih =>
    rw [Nat.ofDigitChars_cons] at fits ⊢
    have below : 10 * n + (c.toNat - '0'.toNat) ≤ max := by
      rw [Nat.ofDigitChars_eq_ofDigitChars_zero] at fits
      have grows := Nat.le_mul_of_pos_left (10 * n + (c.toNat - '0'.toNat))
        (Nat.pow_pos (n := cs.length) (by omega : 0 < 10))
      omega
    rw [parseDigits, digit_of_isDigit (digits c (.head _))]
    simp only [below, ↓reduceIte]
    exact ih (fun d member => digits d (.tail _ member)) fits

/-- A number is read as it was written. -/
theorem parseUint_toString {max n : Nat} (fits : n ≤ max) : parseUint max (toString n) = .ok n := by
  have digits : ∀ c ∈ (toString n).toList, c.isDigit = true := fun _ => isDigit_of_mem_toString
  have value : Nat.ofDigitChars 10 (toString n).toList 0 = n := by
    rw [Nat.toString_eq_repr, Nat.toList_repr, Nat.ofDigitChars_ten_toDigits]
  have nonempty : (toString n).toList ≠ [] := by
    rw [Nat.toString_eq_repr, Nat.toList_repr]
    exact Nat.toDigits_ne_nil
  have parsed : parseDigits max 0 (toString n).toList = _ :=
    parseDigits_of_isDigit digits (value.symm ▸ fits)
  rw [value] at parsed
  cases text : (toString n).toList with
  | nil => exact absurd text nonempty
  | cons c rest =>
    rw [text] at parsed digits
    have first := digits c (.head _)
    rw [parseUint]
    rw [text]
    split <;> simp_all

/-! ## Lines -/

/-- Each line with a line feed behind it. -/
def unlines (ls : List String) : String := String.join (ls.map (· ++ "\n"))

@[simp] theorem unlines_nil : unlines [] = "" := by simp [unlines]

@[simp] theorem unlines_cons (l : String) (ls : List String) :
    unlines (l :: ls) = l ++ "\n" ++ unlines ls := by
  simp [unlines]

@[simp] theorem unlines_append (ls more : List String) :
    unlines (ls ++ more) = unlines ls ++ unlines more := by
  simp [unlines]

theorem trimChars_stripCarriageReturn (line : List Char) :
    trimChars (stripCarriageReturn line) = trimChars line := by
  rw [stripCarriageReturn]
  split_ifs with ended
  · obtain ⟨body, text⟩ := List.getLast?_eq_some_iff.mp ended
    rw [text, List.dropLast_concat]
    exact (trimChars_append_blank body (by simp [Blank, isWhitespace])).symm
  · rfl

theorem splitOnP_unlines {ls : List String} (whole : ∀ l ∈ ls, '\n' ∉ l.toList) :
    (unlines ls).toList.splitOnP (· == '\n') = ls.map String.toList ++ [[]] := by
  induction ls with
  | nil => rfl
  | cons l ls ih =>
    have text : (unlines (l :: ls)).toList = l.toList ++ '\n' :: (unlines ls).toList := by
      simp [unlines]
    have unmarked : ∀ c ∈ l.toList, (c == '\n') = false := fun c member =>
      beq_eq_false_iff_ne.mpr fun same => whole l (.head _) (same ▸ member)
    rw [text, List.splitOnP_append_cons_of_forall_mem unmarked _ (by rfl),
      ih fun other member => whole other (.tail _ member)]
    rfl

theorem map_trim_lines_unlines {ls : List String} (whole : ∀ l ∈ ls, '\n' ∉ l.toList) :
    (lines (unlines ls)).map trim = ls.map trim := by
  simp [lines, splitOnP_unlines whole, Function.comp_def, trim_eq, trimChars_stripCarriageReturn]

/-- A last line feed makes no line of its own. -/
theorem map_trim_split_lines (s : String) :
    (split '\n' s).map trim = (lines s).map trim ∨
      (split '\n' s).map trim = (lines s).map trim ++ [""] := by
  obtain ⟨parts, last, text⟩ := (List.eq_nil_or_concat' (s.toList.splitOnP (· == '\n'))).resolve_left
    (List.splitOnP_ne_nil _ _)
  rw [map_trim_split, lines, text]
  by_cases empty : last = []
  · right
    simp [empty, Function.comp_def, trim_eq, trimChars_stripCarriageReturn]
  · left
    simp [empty, Function.comp_def, trim_eq, trimChars_stripCarriageReturn]

/-- Every line feed with a carriage return before it. -/
def toCrlf (s : String) : String :=
  .ofList (s.toList.flatMap fun c => if c = '\n' then ['\r', '\n'] else [c])

/-- Every part but the last gets a blank more. -/
theorem splitOnP_toCrlf (l : List Char) : List.Forall₂ (fun long short => ∃ w, Blank w ∧ long = short ++ w)
    ((l.flatMap fun c => if c = '\n' then ['\r', '\n'] else [c]).splitOnP (· == '\n'))
    (l.splitOnP (· == '\n')) := by
  induction l with
  | nil => exact .cons ⟨[], by simp [Blank], rfl⟩ .nil
  | cons c l ih =>
    by_cases feed : c = '\n'
    · simp only [feed, List.flatMap_cons, ↓reduceIte, List.cons_append, List.nil_append,
        List.splitOnP_cons_eq_if_modifyHead]
      exact .cons ⟨['\r'], by simp [Blank, isWhitespace], rfl⟩ ih
    · obtain ⟨long, longs, parts⟩ := List.exists_cons_of_ne_nil (List.splitOnP_ne_nil (· == '\n')
        (l.flatMap fun c => if c = '\n' then ['\r', '\n'] else [c]))
      obtain ⟨short, shorts, parts'⟩ :=
        List.exists_cons_of_ne_nil (List.splitOnP_ne_nil (· == '\n') l)
      rw [parts, parts', List.forall₂_cons] at ih
      obtain ⟨⟨w, blank, rfl⟩, rest⟩ := ih
      simp only [feed, List.flatMap_cons, ↓reduceIte, List.cons_append, List.nil_append,
        List.splitOnP_cons_eq_if_modifyHead, beq_iff_eq, parts, parts', List.modifyHead_cons]
      exact .cons ⟨w, blank, rfl⟩ rest

theorem map_trim_split_toCrlf (s : String) :
    (split '\n' (toCrlf s)).map trim = (split '\n' s).map trim := by
  rw [map_trim_split, map_trim_split, toCrlf, String.toList_ofList]
  congr 1
  rw [← List.forall₂_eq_eq_eq, List.forall₂_map_left_iff, List.forall₂_map_right_iff]
  refine (splitOnP_toCrlf s.toList).imp fun long short longer => ?_
  obtain ⟨w, blank, rfl⟩ := longer
  exact trimChars_append_blank short blank

end FerroWg.Lib.Text
