import Mathlib.Data.List.TakeWhile

/-!
# A numbered pipe and its reader

Items are numbered as they enter a pipe. A reader may begin with a copy of items that are still
inside; an item that was in the pipe by then, of a smaller number than the mark of that copy, is
one that the reader must not be given again.
-/

namespace FerroWg.Lib.Numbered

variable {α : Type} (number : α → Nat)

abbrev Increasing (l : List α) : Prop := l.Pairwise fun a b => number a < number b

/-- The items in the pipe, those that the reader has or is bound to get before any of them, how
many there were, and the mark. -/
structure Ordered (pipe due : List α) (added mark : Nat) : Prop where
  increasing : Increasing number pipe
  pipeOld : ∀ a ∈ pipe, number a < added
  dueIncreasing : Increasing number due
  dueOld : ∀ a ∈ due, number a < added
  after : ∀ a ∈ pipe, mark ≤ number a → ∀ d ∈ due, number d < number a
  marked : 0 < mark → ∃ d ∈ due, number d + 1 = mark

variable {number} {pipe due : List α} {added mark : Nat} {a : α}

namespace Ordered

theorem nil : Ordered number [] [] 0 0 := by
  constructor <;> simp

theorem sublist (ordered : Ordered number pipe due added mark) {rest : List α}
    (sub : rest.Sublist pipe) : Ordered number rest due added mark where
  increasing := ordered.increasing.sublist sub
  pipeOld a member := ordered.pipeOld a (sub.subset member)
  dueIncreasing := ordered.dueIncreasing
  dueOld := ordered.dueOld
  after a member := ordered.after a (sub.subset member)
  marked := ordered.marked

/-- The next item enters. -/
theorem push (ordered : Ordered number pipe due added mark) (next : number a = added) :
    Ordered number (pipe ++ [a]) due (added + 1) mark where
  increasing := by
    refine List.pairwise_append.mpr ⟨ordered.increasing, List.pairwise_singleton _ _, fun b member c last => ?_⟩
    rw [List.mem_singleton.mp last, next]
    exact ordered.pipeOld b member
  pipeOld b member := by
    rcases List.mem_append.mp member with member | last
    · exact Nat.lt_succ_of_lt (ordered.pipeOld b member)
    · rw [List.mem_singleton.mp last, next]
      exact Nat.lt_succ_self added
  dueIncreasing := ordered.dueIncreasing
  dueOld d member := Nat.lt_succ_of_lt (ordered.dueOld d member)
  after b member newer d due := by
    rcases List.mem_append.mp member with member | last
    · exact ordered.after b member newer d due
    · rw [List.mem_singleton.mp last, next]
      exact ordered.dueOld d due
  marked := ordered.marked

/-- A reader begins with a copy: it has the item that entered last, unless it has none. -/
theorem begin (ordered : Ordered number pipe [] added 0) {copy : List α} (sub : copy.Sublist pipe)
    (last : copy ≠ [] → ∃ a ∈ copy, number a + 1 = added) :
    Ordered number pipe copy added (if copy.isEmpty then 0 else added) where
  increasing := ordered.increasing
  pipeOld := ordered.pipeOld
  dueIncreasing := ordered.increasing.sublist sub
  dueOld a member := ordered.pipeOld a (sub.subset member)
  after a member newer d due := by
    have held : copy.isEmpty = false := by
      cases copy with
      | nil => cases due
      | cons => rfl
    rw [held] at newer
    exact absurd (ordered.pipeOld a member) (Nat.not_lt.mpr newer)
  marked positive := by
    cases copy with
    | nil => exact absurd positive (Nat.lt_irrefl 0)
    | cons b rest => exact last nofun

/-- What comes out of the pipe goes on in order exactly when it is not below the mark. -/
theorem increasing_iff (ordered : Ordered number (a :: pipe) due added mark) :
    Increasing number (due ++ [a]) ↔ mark ≤ number a := by
  constructor
  · intro increasing
    by_contra below
    obtain ⟨d, member, same⟩ := ordered.marked (by omega)
    have before := (List.pairwise_append.mp increasing).2.2 d member a (List.mem_singleton.mpr rfl)
    omega
  · intro newer
    refine List.pairwise_append.mpr ⟨ordered.dueIncreasing, List.pairwise_singleton _ _, fun d member b last => ?_⟩
    rw [List.mem_singleton.mp last]
    exact ordered.after a List.mem_cons_self newer d member

theorem pop (ordered : Ordered number (a :: pipe) due added mark) (newer : mark ≤ number a) :
    Ordered number pipe (due ++ [a]) added mark where
  increasing := ordered.increasing.tail
  pipeOld b member := ordered.pipeOld b (List.mem_cons_of_mem a member)
  dueIncreasing := ordered.increasing_iff.mpr newer
  dueOld d member := by
    rcases List.mem_append.mp member with member | last
    · exact ordered.dueOld d member
    · rw [List.mem_singleton.mp last]
      exact ordered.pipeOld a List.mem_cons_self
  after b member newer' d due := by
    rcases List.mem_append.mp due with due | last
    · exact ordered.after b (List.mem_cons_of_mem a member) newer' d due
    · rw [List.mem_singleton.mp last]
      exact List.rel_of_pairwise_cons ordered.increasing member
  marked positive := by
    obtain ⟨d, member, same⟩ := ordered.marked positive
    exact ⟨d, List.mem_append_left _ member, same⟩

end Ordered

/-! ## Up to the first of a kind -/

variable {p : α → Bool} {l m : List α}

theorem takeWhile_append_closed (closed : ∃ a ∈ l, p a = false) :
    (l ++ m).takeWhile p = l.takeWhile p := by
  obtain ⟨a, member, fails⟩ := closed
  induction l with
  | nil => cases member
  | cons b rest ih =>
    rw [List.cons_append, List.takeWhile_cons, List.takeWhile_cons]
    rcases List.mem_cons.mp member with rfl | member
    · simp [fails]
    · rw [ih member]

/-- Nothing of the kind is added. -/
theorem takeWhile_append_other (other : ∀ a ∈ m, p a = false) :
    (l ++ m).takeWhile p = l.takeWhile p := by
  by_cases closed : ∃ a ∈ l, p a = false
  · exact takeWhile_append_closed closed
  · have all : ∀ a ∈ l, p a = true := by simpa using closed
    have none : m.takeWhile p = [] := by
      cases m with
      | nil => rfl
      | cons b rest => exact List.takeWhile_cons_of_neg (by simp [other b List.mem_cons_self])
    rw [List.takeWhile_append_of_pos all, none, List.append_nil]
    exact (List.takeWhile_eq_self_iff.mpr all).symm

theorem takeWhile_prefix_append : l.takeWhile p <+: (l ++ m).takeWhile p := by
  by_cases closed : ∃ a ∈ l, p a = false
  · exact (takeWhile_append_closed closed).symm ▸ List.prefix_rfl
  · have all : ∀ a ∈ l, p a = true := by simpa using closed
    rw [List.takeWhile_append_of_pos all, List.takeWhile_eq_self_iff.mpr all]
    exact List.prefix_append _ _

end FerroWg.Lib.Numbered
