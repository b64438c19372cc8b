import Mathlib.Data.List.Zip
import Mathlib.Order.Bounds.Basic

/-!
# Common subsequences

The greatest length of a common subsequence of two lists, and the number of positions at which
they agree, which is at most that.
-/

namespace FerroWg.Lib

variable {α : Type*} [DecidableEq α]

/-- One more element in front of the first list; `row` has the lengths without it. -/
def lcsRow (a : α) (row : List α → Nat) : List α → Nat
  | [] => 0
  | b :: bs => if a = b then row bs + 1 else max (row (b :: bs)) (lcsRow a row bs)

def lcsLength : List α → List α → Nat
  | [] => fun _ => 0
  | a :: as => lcsRow a (lcsLength as)

@[simp] theorem lcsLength_nil_left (bs : List α) : lcsLength [] bs = 0 := rfl

@[simp] theorem lcsLength_nil_right (as : List α) : lcsLength as [] = 0 := by cases as <;> rfl

theorem lcsLength_cons_cons (a b : α) (as bs : List α) :
    lcsLength (a :: as) (b :: bs) =
      if a = b then lcsLength as bs + 1
      else max (lcsLength as (b :: bs)) (lcsLength (a :: as) bs) := rfl

omit [DecidableEq α] in
theorem sublist_of_cons_ne {a b : α} {l bs : List α} (apart : a ≠ b)
    (sub : (a :: l).Sublist (b :: bs)) : (a :: l).Sublist bs := by
  rcases List.sublist_cons_iff.mp sub with inside | ⟨rest, same, _⟩
  · exact inside
  · exact absurd (List.cons.inj same).1 apart

theorem length_le_lcsLength {as bs l : List α} (left : l.Sublist as) (right : l.Sublist bs) :
    l.length ≤ lcsLength as bs := by
  induction as generalizing bs l with
  | nil =>
    have empty := List.sublist_nil.mp left
    simp [empty]
  | cons a as ihA =>
    induction bs generalizing l with
    | nil =>
      have empty := List.sublist_nil.mp right
      simp [empty]
    | cons b bs ihB =>
      rw [lcsLength_cons_cons]
      split_ifs with same
      · -- whatever is matched first, the rest is common to the two tails
        have rest : l.tail.length ≤ lcsLength as bs := ihA left.tail right.tail
        rw [List.length_tail] at rest
        omega
      · rcases List.sublist_cons_iff.mp left with inside | ⟨rest, rfl, _⟩
        · exact (ihA inside right).trans (le_max_left _ _)
        · exact (ihB left (sublist_of_cons_ne same right)).trans (le_max_right _ _)

theorem exists_length_eq_lcsLength (as bs : List α) :
    ∃ l : List α, l.Sublist as ∧ l.Sublist bs ∧ l.length = lcsLength as bs := by
  induction as generalizing bs with
  | nil => exact ⟨[], List.nil_sublist _, List.nil_sublist _, rfl⟩
  | cons a as ihA =>
    induction bs with
    | nil => exact ⟨[], List.nil_sublist _, List.nil_sublist _, rfl⟩
    | cons b bs ihB =>
      rw [lcsLength_cons_cons]
      split_ifs with same
      · obtain ⟨l, left, right, length⟩ := ihA bs
        subst same
        exact ⟨a :: l, left.cons_cons a, right.cons_cons a, congrArg (· + 1) length⟩
      · rcases le_total (lcsLength (a :: as) bs) (lcsLength as (b :: bs)) with le | le
        · obtain ⟨l, left, right, length⟩ := ihA (b :: bs)
          exact ⟨l, left.cons a, right, by rw [max_eq_left le, length]⟩
        · obtain ⟨l, left, right, length⟩ := ihB
          exact ⟨l, left, right.cons b, by rw [max_eq_right le, length]⟩

/-- What the recursion computes. -/
theorem lcsLength_isGreatest (as bs : List α) :
    IsGreatest {n | ∃ l : List α, l.Sublist as ∧ l.Sublist bs ∧ l.length = n}
      (lcsLength as bs) := by
  refine ⟨exists_length_eq_lcsLength as bs, ?_⟩
  rintro n ⟨l, left, right, rfl⟩
  exact length_le_lcsLength left right

theorem lcsLength_le_left (as bs : List α) : lcsLength as bs ≤ as.length := by
  obtain ⟨l, left, _, length⟩ := (lcsLength_isGreatest as bs).1
  exact length ▸ left.length_le

theorem lcsLength_le_right (as bs : List α) : lcsLength as bs ≤ bs.length := by
  obtain ⟨l, _, right, length⟩ := (lcsLength_isGreatest as bs).1
  exact length ▸ right.length_le

/-! ## Position by position -/

/-- The number of positions at which two lists have the same element. -/
def agreements (as bs : List α) : Nat := (as.zip bs).countP fun (a, b) => a = b

@[simp] theorem agreements_nil_left (bs : List α) : agreements [] bs = 0 := rfl

@[simp] theorem agreements_nil_right (as : List α) : agreements as [] = 0 := by
  simp [agreements]

@[simp] theorem agreements_cons_cons (a b : α) (as bs : List α) :
    agreements (a :: as) (b :: bs) = agreements as bs + if a = b then 1 else 0 := by
  simp [agreements, List.countP_cons]

theorem agreements_comm (as bs : List α) : agreements as bs = agreements bs as := by
  induction as generalizing bs with
  | nil => simp
  | cons a as ih =>
    cases bs with
    | nil => simp
    | cons b bs => simp [ih, eq_comm]

theorem agreements_le_lcsLength (as bs : List α) : agreements as bs ≤ lcsLength as bs := by
  induction as generalizing bs with
  | nil => simp
  | cons a as ih =>
    cases bs with
    | nil => simp
    | cons b bs =>
      have rest := ih bs
      rw [agreements_cons_cons, lcsLength_cons_cons]
      split_ifs with same
      · omega
      · obtain ⟨l, left, right, length⟩ := (lcsLength_isGreatest as bs).1
        have longer := (lcsLength_isGreatest as (b :: bs)).2 ⟨l, left, right.cons b, length⟩
        omega

theorem agreements_le_length (as bs : List α) : agreements as bs ≤ as.length :=
  List.countP_le_length.trans (by simp)

/-- A list agrees all along with its own shift by an element when it repeats this element. -/
theorem agreements_shifted_iff (a : α) (as : List α) :
    agreements as (a :: as) = as.length ↔ ∀ b ∈ as, b = a := by
  induction as generalizing a with
  | nil => simp
  | cons b as ih =>
    have bound := agreements_le_length as (b :: as)
    rw [agreements_cons_cons, List.length_cons, List.forall_mem_cons]
    constructor
    · intro full
      split_ifs at full with same
      · subst same
        exact ⟨rfl, (ih b).mp (by omega)⟩
      · omega
    · rintro ⟨rfl, rest⟩
      rw [if_pos rfl, (ih b).mpr rest]

end FerroWg.Lib
