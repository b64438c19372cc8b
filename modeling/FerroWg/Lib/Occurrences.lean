import Mathlib.Data.List.Infix

/-!
# Occurrences of a word

Where a word stands in a list, the first place where it does, and the places that a scan from the
left takes without overlap.
-/

namespace FerroWg.Lib

section

variable {α : Type*} {word l : List α}

def OccursAt (word l : List α) (p : Nat) : Prop := word <+: l.drop p

theorem occursAt_drop {k p : Nat} : OccursAt word (l.drop k) p ↔ OccursAt word l (k + p) := by
  rw [OccursAt, OccursAt, List.drop_drop]

theorem exists_occursAt_iff : (∃ p, OccursAt word l p) ↔ word <:+: l := by
  constructor
  · rintro ⟨p, here⟩
    exact here.isInfix.trans (List.drop_suffix p l).isInfix
  · rintro ⟨front, back, rfl⟩
    refine ⟨front.length, back, ?_⟩
    simp

/-- The positions that a scan takes from a given one on: the next occurrence, and then the next
one behind its end. -/
inductive Leftmost (word l : List α) : Nat → List Nat → Prop
  | stop {start : Nat} (ended : ∀ p, start ≤ p → ¬OccursAt word l p) : Leftmost word l start []
  | next {start p : Nat} {later : List Nat} (reached : start ≤ p) (here : OccursAt word l p)
      (first : ∀ q, start ≤ q → q < p → ¬OccursAt word l q)
      (rest : Leftmost word l (p + word.length) later) : Leftmost word l start (p :: later)

theorem Leftmost.occurs {start : Nat} {ps : List Nat} (scan : Leftmost word l start ps) :
    ∀ p ∈ ps, start ≤ p ∧ OccursAt word l p := by
  induction scan with
  | stop _ => simp
  | next reached here _ _ ih =>
    rw [List.forall_mem_cons]
    exact ⟨⟨reached, here⟩, fun p mem => ⟨by have := (ih p mem).1; omega, (ih p mem).2⟩⟩

/-- No two of them overlap. -/
theorem Leftmost.apart {start : Nat} {ps : List Nat} (scan : Leftmost word l start ps) :
    ps.Pairwise fun p q => p + word.length ≤ q := by
  induction scan with
  | stop _ => exact .nil
  | next _ _ _ rest ih => exact .cons (fun q mem => (rest.occurs q mem).1) ih

/-- There is one scan. -/
theorem Leftmost.unique {start : Nat} {ps qs : List Nat} (left : Leftmost word l start ps)
    (right : Leftmost word l start qs) : ps = qs := by
  induction left generalizing qs with
  | stop ended =>
    cases right with
    | stop _ => rfl
    | next reached here _ _ => exact absurd here (ended _ reached)
  | @next _ p _ reached here first _ ih =>
    cases right with
    | stop ended => exact absurd here (ended _ reached)
    | @next _ q _ reached' here' first' rest' =>
      rcases Nat.lt_trichotomy p q with before | rfl | after
      · exact absurd here (first' _ reached before)
      · rw [ih rest']
      · exact absurd here' (first _ reached' after)

/-- A scan that takes nothing has nothing to take. -/
theorem Leftmost.eq_nil_iff {ps : List Nat} (scan : Leftmost word l 0 ps) :
    ps = [] ↔ ¬word <:+: l := by
  rw [← exists_occursAt_iff]
  cases scan with
  | stop ended => simpa using fun p => ended p (Nat.zero_le p)
  | next _ here _ _ => simpa using ⟨_, here⟩

end

variable {α : Type*} [DecidableEq α] {word l : List α}

def firstOccurrence (word l : List α) : Option Nat :=
  l.tails.findIdx? fun rest => decide (word <+: rest)

theorem firstOccurrence_eq_some {p : Nat} (found : firstOccurrence word l = some p) :
    OccursAt word l p ∧ p ≤ l.length ∧ ∀ q < p, ¬OccursAt word l q := by
  rw [firstOccurrence, List.findIdx?_eq_some_iff_getElem] at found
  obtain ⟨bound, here, first⟩ := found
  rw [List.length_tails] at bound
  simp only [List.getElem_tails, decide_eq_true_eq] at here first
  exact ⟨here, by omega, fun q before => first q before⟩

theorem firstOccurrence_eq_none (missing : firstOccurrence word l = none) (p : Nat) :
    ¬OccursAt word l p := by
  rw [firstOccurrence, List.findIdx?_eq_none_iff] at missing
  have absent := missing (l.drop p) ((List.mem_tails _ _).mpr (List.drop_suffix p l))
  rw [decide_eq_false_iff_not] at absent
  exact absent

end FerroWg.Lib
