import Mathlib.Data.Finset.Image
import Mathlib.Data.Finset.Range

/-!
# Positions in a list

Where the elements with a property stand, and how the positions move when the list does.
-/

namespace FerroWg.Lib

variable {α : Type} (p : α → Prop) [DecidablePred p]

def positions (l : List α) : Finset Nat :=
  (Finset.range l.length).filter fun i => ∃ a ∈ l[i]?, p a

variable {p} {l : List α} {i j : Nat}

theorem mem_positions : i ∈ positions p l ↔ ∃ a, l[i]? = some a ∧ p a := by
  simp only [positions, Finset.mem_filter, Finset.mem_range, Option.mem_def]
  constructor
  · exact And.right
  · rintro ⟨a, there, holds⟩
    exact ⟨(List.getElem?_eq_some_iff.mp there).1, a, there, holds⟩

theorem lt_of_mem_positions (member : i ∈ positions p l) : i < l.length := by
  obtain ⟨a, there, _⟩ := mem_positions.mp member
  exact (List.getElem?_eq_some_iff.mp there).1

theorem positions_eq_empty : positions p l = ∅ ↔ ∀ a ∈ l, ¬ p a := by
  simp only [Finset.eq_empty_iff_forall_notMem, mem_positions, not_exists, not_and]
  constructor
  · intro none a member
    obtain ⟨i, there⟩ := List.mem_iff_getElem?.mp member
    exact none i a there
  · intro none i a there
    exact none a (List.mem_of_getElem? there)

theorem positions_of_none (none : ∀ a ∈ l, ¬ p a) : positions p l = ∅ := positions_eq_empty.mpr none

theorem positions_append (a : α) (holds : p a) :
    positions p (l ++ [a]) = insert l.length (positions p l) := by
  ext i
  rw [Finset.mem_insert, mem_positions, mem_positions]
  rcases Nat.lt_trichotomy i l.length with before | rfl | after
  · simp [List.getElem?_append_left before, before.ne]
  · simp [holds]
  · simp [List.getElem?_append_right after.le, after.ne', show i - l.length ≠ 0 by omega,
      List.getElem?_eq_none after.le]

theorem mem_positions_eraseIdx :
    j ∈ positions p (l.eraseIdx i) ↔ (if j < i then j else j + 1) ∈ positions p l := by
  rw [mem_positions, mem_positions, List.getElem?_eraseIdx]
  split <;> rfl

/-- A change after which the element at `i` no longer counts, and that is all it changes. -/
theorem positions_modify {f : α → α} (cleared : ∀ a, ¬ p (f a)) :
    positions p (l.modify i f) = (positions p l).erase i := by
  ext j
  rw [Finset.mem_erase, mem_positions, mem_positions, List.getElem?_modify]
  by_cases same : i = j
  · subst same
    simp only [if_true, ne_eq, not_true_eq_false, false_and, iff_false, not_exists, not_and]
    rintro a there
    obtain ⟨b, _, rfl⟩ := Option.map_eq_some_iff.mp there
    exact cleared b
  · simp [same, Ne.symm same]

/-- A modification that an observation does not see. -/
theorem map_modify_of_same {β : Type} {f : α → α} {g : α → β} (same : ∀ a, g (f a) = g a)
    (l : List α) (i : Nat) : (l.modify i f).map g = l.map g := by
  apply List.ext_getElem?
  intro j
  rw [List.getElem?_map, List.getElem?_map, List.getElem?_modify]
  cases l[j]? with
  | none => rfl
  | some a =>
    by_cases at' : i = j
    · simp [at', same]
    · simp [at']

end FerroWg.Lib
