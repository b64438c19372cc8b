import Mathlib.Data.List.DropRight
import Mathlib.Data.List.Nodup

/-!
# The newest elements

A queue that drops its oldest element to make room for another holds the newest of what was pushed
on it.
-/

namespace FerroWg.Lib.Newest

variable {α : Type} {bound : Nat}

/-- A full queue drops its oldest element first. -/
def push (bound : Nat) (kept : List α) (a : α) : List α :=
  (if kept.length = bound then kept.tail else kept) ++ [a]

theorem length_rtake (l : List α) (bound : Nat) : (l.rtake bound).length = min bound l.length := by
  rw [List.rtake, List.length_drop]
  omega

theorem rtake_suffix (l : List α) (bound : Nat) : l.rtake bound <:+ l := List.drop_suffix _ _

theorem rtake_of_length_le {l : List α} (short : l.length ≤ bound) : l.rtake bound = l := by
  rw [List.rtake, Nat.sub_eq_zero_of_le short, List.drop_zero]

/-- The push that a queue of the newest elements takes. -/
theorem push_rtake (positive : 0 < bound) (l : List α) (a : α) :
    push bound (l.rtake bound) a = (l ++ [a]).rtake bound := by
  obtain ⟨room, rfl⟩ := Nat.exists_eq_succ_of_ne_zero (Nat.ne_of_gt positive)
  rw [push, length_rtake, List.rtake_concat_succ]
  congr 1
  split
  case isTrue full =>
    rw [List.rtake, List.tail_drop, List.rtake]
    congr 1
    omega
  case isFalse notFull =>
    rw [rtake_of_length_le (by omega), rtake_of_length_le (by omega)]

/-- The pushes of a run. -/
theorem foldl_push_rtake (positive : 0 < bound) (l more : List α) :
    more.foldl (push bound) (l.rtake bound) = (l ++ more).rtake bound := by
  induction more generalizing l with
  | nil => rw [List.foldl_nil, List.append_nil]
  | cons a rest ih =>
    rw [List.foldl_cons, push_rtake positive, ih, List.append_assoc, List.singleton_append]

theorem foldl_push (positive : 0 < bound) {kept : List α} (short : kept.length ≤ bound)
    (more : List α) : more.foldl (push bound) kept = (kept ++ more).rtake bound := by
  rw [← foldl_push_rtake positive, rtake_of_length_le short]

/-! ## Pushes that trim -/

/-- What is over the bound is dropped after the push, however much that is. -/
def pushTrim (bound : Nat) (kept : List α) (a : α) : List α := (kept ++ [a]).rtake bound

/-- What was dropped before would be dropped now. -/
theorem rtake_append_rtake (bound : Nat) (l more : List α) :
    (l.rtake bound ++ more).rtake bound = (l ++ more).rtake bound := by
  unfold List.rtake
  rw [← List.drop_append_of_le_length (Nat.sub_le _ _), List.drop_drop]
  congr 1
  simp only [List.length_drop, List.length_append]
  omega

theorem rtake_idempotent (bound : Nat) (l : List α) :
    (l.rtake bound).rtake bound = l.rtake bound := by
  simpa using rtake_append_rtake bound l []

/-- A list that is over the bound at first is within it from the first push on. -/
theorem foldl_pushTrim {more : List α} (any : more ≠ []) (bound : Nat) (l : List α) :
    more.foldl (pushTrim bound) l = (l ++ more).rtake bound := by
  induction more generalizing l with
  | nil => exact absurd rfl any
  | cons a rest ih =>
    rw [List.foldl_cons, pushTrim]
    cases rest with
    | nil => rfl
    | cons b later =>
      rw [ih (List.cons_ne_nil b later), rtake_append_rtake, List.append_assoc,
        List.singleton_append]

/-! ## What a place denotes when the front is gone -/

variable {dropped rest : List α} {place : Nat} {a : α}

/-- Of different elements, the one at a place is at that place still when those in front of it are
dropped, or the first that is left is there, only if the place is the first one, or nothing was
dropped, or nothing is left. -/
theorem stays_iff [Decidable (a ∈ rest)] (distinct : (dropped ++ rest).Nodup)
    (found : (dropped ++ rest)[place]? = some a) :
    rest[place]? = (if a ∈ rest then some a else rest.head?) ↔
      place = 0 ∨ dropped = [] ∨ rest = [] := by
  have distinctRest : rest.Nodup := distinct.of_append_right
  rcases Nat.lt_or_ge place dropped.length with gone | kept
  · rw [List.getElem?_append_left gone] at found
    have absent : a ∉ rest := fun member =>
      List.disjoint_of_nodup_append distinct (List.mem_of_getElem? found) member
    have some_dropped : dropped ≠ [] := List.ne_nil_of_length_pos (by omega)
    rw [if_neg absent, List.head?_eq_getElem?]
    by_cases empty : rest = []
    · simp [empty]
    · rw [eq_comm, List.getElem?_inj (List.length_pos_of_ne_nil empty) distinctRest]
      simp [some_dropped, empty, eq_comm]
  · rw [List.getElem?_append_right kept] at found
    have member : a ∈ rest := List.mem_of_getElem? found
    have inside := (List.getElem?_eq_some_iff.mp found).1
    rw [if_pos member, ← found, eq_comm, List.getElem?_inj inside distinctRest]
    have some_left : rest ≠ [] := List.ne_nil_of_mem member
    simp only [some_left, or_false, ← List.length_eq_zero_iff]
    omega

end FerroWg.Lib.Newest
