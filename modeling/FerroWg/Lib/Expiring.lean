import FerroWg.Lib.Newest
import Mathlib.Order.Lattice
import Mathlib.Order.Monotone.Defs

/-!
# A queue of elements that expire

Elements are pushed in the order in which they fall due, and a queue that is full drops its oldest.
Only the front is looked at for what has expired, each look with a reading of the clock of its own.
Readings are numbered; a clock that never goes back is monotone in them.
-/

namespace FerroWg.Lib.Expiring

variable {α T : Type} [LinearOrder T] (due : α → T) (clock : Nat → T)

/-- Drops from the front what has expired; the count of readings goes with it. -/
def clear (n : Nat) : List α → List α × Nat
  | [] => ([], n)
  | a :: rest => if due a ≤ clock n then clear (n + 1) rest else (a :: rest, n + 1)

variable {due clock} {n : Nat}

theorem le_clear (l : List α) : n ≤ (clear due clock n l).2 := by
  induction l generalizing n with
  | nil => exact Nat.le_refl n
  | cons a rest ih =>
    rw [clear]
    split
    · exact (Nat.le_succ n).trans ih
    · exact Nat.le_succ n

/-- What is dropped has expired at the last reading. -/
theorem clear_dropped (monotone : Monotone clock) (l : List α) :
    ∃ gone, l = gone ++ (clear due clock n l).1 ∧
      ∀ a ∈ gone, due a ≤ clock ((clear due clock n l).2 - 1) := by
  induction l generalizing n with
  | nil => exact ⟨[], rfl, fun _ member => absurd member List.not_mem_nil⟩
  | cons a rest ih =>
    rw [clear]
    split
    case isFalse => exact ⟨[], rfl, fun _ member => absurd member List.not_mem_nil⟩
    case isTrue expired =>
      obtain ⟨gone, split, all⟩ := ih (n := n + 1)
      refine ⟨a :: gone, by rw [List.cons_append, ← split], ?_⟩
      rw [List.forall_mem_cons]
      refine ⟨expired.trans (monotone ?_), all⟩
      have more : n + 1 ≤ (clear due clock (n + 1) rest).2 := le_clear rest
      omega

/-- What is kept had not, if the order is that of falling due. -/
theorem clear_kept {l : List α} (sorted : l.Pairwise fun a b => due a ≤ due b) :
    ∀ a ∈ (clear due clock n l).1, clock ((clear due clock n l).2 - 1) < due a := by
  induction l generalizing n with
  | nil => exact fun _ member => absurd member List.not_mem_nil
  | cons a rest ih =>
    rw [List.pairwise_cons] at sorted
    rw [clear]
    split
    case isTrue => exact ih sorted.2
    case isFalse valid =>
      have valid := lt_of_not_ge valid
      rw [List.forall_mem_cons]
      exact ⟨valid, fun b member => valid.trans_le (sorted.1 b member)⟩

/-- While the clock stands still, it is the front that has expired. -/
theorem clear_still {now : T} (still : ∀ m, n ≤ m → clock m = now) (l : List α) :
    (clear due clock n l).1 = l.dropWhile fun a => due a ≤ now := by
  induction l generalizing n with
  | nil => rfl
  | cons a rest ih =>
    rw [clear, still n (Nat.le_refl n), List.dropWhile_cons]
    simp only [decide_eq_true_eq]
    split
    · exact ih fun m more => still m (by omega)
    · rfl

variable (due clock) in
/-- A queue has the newest of the elements that were pushed, but for some at its front that have
expired. -/
structure Holds (bound : Nat) (pushed queue : List α) (n : Nat) : Prop where
  sorted : pushed.Pairwise fun a b => due a ≤ due b
  split : ∃ gone, pushed.rtake bound = gone ++ queue ∧ ∀ a ∈ gone, due a ≤ clock (n - 1)

namespace Holds

variable {bound : Nat} {pushed queue : List α}

theorem empty : Holds due clock bound [] [] n :=
  ⟨List.Pairwise.nil, [], List.rtake_nil _, fun _ member => absurd member List.not_mem_nil⟩

theorem suffix (holds : Holds due clock bound pushed queue n) : queue <:+ pushed := by
  obtain ⟨gone, newest, _⟩ := holds.split
  exact List.IsSuffix.trans ⟨gone, newest.symm⟩ (Newest.rtake_suffix _ _)

theorem sorted_queue (holds : Holds due clock bound pushed queue n) :
    queue.Pairwise fun a b => due a ≤ due b :=
  holds.sorted.sublist holds.suffix.sublist

theorem length_le (holds : Holds due clock bound pushed queue n) : queue.length ≤ bound := by
  obtain ⟨gone, newest, _⟩ := holds.split
  have count := congrArg List.length newest
  rw [Newest.length_rtake, List.length_append] at count
  omega

theorem later (monotone : Monotone clock) (holds : Holds due clock bound pushed queue n) {m : Nat}
    (more : n ≤ m) : Holds due clock bound pushed queue m := by
  obtain ⟨gone, newest, expired⟩ := holds.split
  refine ⟨holds.sorted, gone, newest, fun a member => (expired a member).trans (monotone ?_)⟩
  omega

/-- An element that is due last is pushed; only a queue that is full drops its first. -/
theorem push (holds : Holds due clock bound pushed queue n) (positive : 0 < bound) {a : α}
    (last : ∀ b ∈ pushed, due b ≤ due a) :
    Holds due clock bound (pushed ++ [a]) (Newest.push bound queue a) n where
  sorted := by
    refine List.pairwise_append.mpr ⟨holds.sorted, List.pairwise_singleton _ _, ?_⟩
    intro b member c same
    rw [List.mem_singleton.mp same]
    exact last b member
  split := by
    obtain ⟨gone, newest, expired⟩ := holds.split
    rw [← Newest.push_rtake positive, newest]
    cases gone with
    | nil => exact ⟨[], rfl, expired⟩
    | cons g rest =>
      have count := congrArg List.length newest
      rw [Newest.length_rtake, List.length_append, List.length_cons] at count
      have room : queue.length ≠ bound := by omega
      rw [Newest.push, Newest.push, if_neg room]
      split
      case isTrue =>
        refine ⟨rest, by simp, fun b member => expired b (List.mem_cons_of_mem _ member)⟩
      case isFalse => exact ⟨g :: rest, List.append_assoc _ _ _, expired⟩

theorem clear (holds : Holds due clock bound pushed queue n) (monotone : Monotone clock) :
    Holds due clock bound pushed (Expiring.clear due clock n queue).1
      (Expiring.clear due clock n queue).2 := by
  have more : n ≤ (Expiring.clear due clock n queue).2 := le_clear queue
  obtain ⟨gone, newest, expired⟩ := (holds.later monotone more).split
  obtain ⟨next, split, expiredNow⟩ := clear_dropped (n := n) monotone queue
  refine ⟨holds.sorted, gone ++ next, ?_, ?_⟩
  · rw [newest, List.append_assoc, ← split]
  · intro a member
    exact (List.mem_append.mp member).elim (expired a) (expiredNow a)

/-- Cleared, it is what has not expired of the newest. -/
theorem clear_eq_filter (holds : Holds due clock bound pushed queue n) (monotone : Monotone clock) :
    (Expiring.clear due clock n queue).1 = (pushed.rtake bound).filter fun a =>
      clock ((Expiring.clear due clock n queue).2 - 1) < due a := by
  obtain ⟨gone, newest, expired⟩ := (holds.clear monotone).split
  have kept : ∀ a ∈ (Expiring.clear due clock n queue).1,
      clock ((Expiring.clear due clock n queue).2 - 1) < due a := clear_kept holds.sorted_queue
  rw [newest, List.filter_append, List.filter_eq_nil_iff.mpr, List.nil_append]
  · symm
    apply List.filter_eq_self.mpr
    intro a member
    exact decide_eq_true (kept a member)
  · intro a member
    rw [decide_eq_true_eq, not_lt]
    exact expired a member

end Holds

end FerroWg.Lib.Expiring
