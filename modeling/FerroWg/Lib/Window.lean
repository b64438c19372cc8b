import Mathlib.Algebra.Order.BigOperators.Group.List

/-!
# Windows around a position

A range of neighbouring entries of a list of weights that holds a given position. A window grows
by a neighbour at either end; one that no neighbour fits is the heaviest of all wider ones.
-/

namespace FerroWg.Lib

variable {W : Type} {weights : List W} {focus : Nat}

/-- Both ends are inclusive. -/
structure Window (weights : List W) (focus : Nat) where
  start : Nat
  stop : Nat
  start_le : start ≤ focus
  le_stop : focus ≤ stop
  stop_lt : stop < weights.length

namespace Window

def single (inside : focus < weights.length) : Window weights focus :=
  ⟨focus, focus, le_rfl, le_rfl, inside⟩

def whole (inside : focus < weights.length) : Window weights focus :=
  ⟨0, weights.length - 1, focus.zero_le, Nat.le_sub_one_of_lt inside,
    Nat.sub_one_lt_of_lt inside⟩

variable (w : Window weights focus)

theorem start_lt : w.start < weights.length :=
  lt_of_le_of_lt (w.start_le.trans w.le_stop) w.stop_lt

/-- The neighbour in front of the window; a window that starts the list is never asked. -/
def before : W := weights.get ⟨w.start - 1, lt_of_le_of_lt (Nat.sub_le _ _) w.start_lt⟩

/-- The neighbour behind the window. -/
def after (more : w.stop + 1 < weights.length) : W := weights.get ⟨w.stop + 1, more⟩

def left : Window weights focus :=
  ⟨w.start - 1, w.stop, (Nat.sub_le _ _).trans w.start_le, w.le_stop, w.stop_lt⟩

def right (more : w.stop + 1 < weights.length) : Window weights focus :=
  ⟨w.start, w.stop + 1, w.start_le, w.le_stop.trans (Nat.le_succ _), more⟩

/-- What a window shows of a list as long as its weights. -/
def slice {α : Type} (l : List α) : List α := (l.take (w.stop + 1)).drop w.start

variable {w}

theorem slice_single {inside : focus < weights.length} :
    (single inside).slice weights = [weights.get ⟨focus, inside⟩] := by
  rw [slice, single, List.drop_take, Nat.add_sub_cancel_left, List.drop_eq_getElem_cons inside]
  rfl

theorem slice_whole {inside : focus < weights.length} {α : Type} {l : List α}
    (long : l.length = weights.length) : (whole inside).slice l = l := by
  have last : weights.length - 1 + 1 = l.length := by omega
  rw [slice, whole, last, List.take_length, List.drop_zero]

theorem slice_left (more : 0 < w.start) : w.left.slice weights = w.before :: w.slice weights := by
  have bound : w.start - 1 < (weights.take (w.stop + 1)).length := by
    have stop := w.stop_lt
    have start := w.start_le.trans w.le_stop
    rw [List.length_take]
    omega
  have next : w.start - 1 + 1 = w.start := Nat.sub_add_cancel more
  rw [slice, left, List.drop_eq_getElem_cons bound, next, List.getElem_take]
  rfl

theorem slice_right {more : w.stop + 1 < weights.length} :
    (w.right more).slice weights = w.slice weights ++ [w.after more] := by
  have start : w.start ≤ (weights.take (w.stop + 1)).length := by
    have order := w.start_le.trans w.le_stop
    rw [List.length_take]
    omega
  rw [slice, right, List.take_add_one, List.getElem?_eq_getElem more,
    List.drop_append_of_le_length start]
  rfl

@[simp] theorem slice_map {α β : Type} (f : α → β) (l : List α) :
    w.slice (l.map f) = (w.slice l).map f := by
  rw [slice, slice, ← List.map_take, ← List.map_drop]

theorem slice_sublist {v : Window weights focus} (start : v.start ≤ w.start)
    (stop : w.stop ≤ v.stop) {α : Type} (l : List α) : (w.slice l).Sublist (v.slice l) := by
  have shorter : (l.take (w.stop + 1)).Sublist (l.take (v.stop + 1)) :=
    List.take_sublist_take_left (Nat.succ_le_succ stop)
  calc ((l.take (w.stop + 1)).drop w.start).Sublist ((l.take (v.stop + 1)).drop w.start) :=
        shorter.drop w.start
    List.Sublist _ ((l.take (v.stop + 1)).drop v.start) := List.drop_sublist_drop_left _ start

/-! ## Weights -/

variable [AddCommMonoid W]

variable (w) in
def weight : W := (w.slice weights).sum

@[simp] theorem weight_single {inside : focus < weights.length} :
    (single inside).weight = weights.get ⟨focus, inside⟩ := by
  rw [weight, slice_single, List.sum_singleton]

@[simp] theorem weight_whole {inside : focus < weights.length} :
    (whole inside).weight = weights.sum := by
  rw [weight, slice_whole rfl]

theorem weight_left (more : 0 < w.start) : w.left.weight = w.weight + w.before := by
  rw [weight, slice_left more, List.sum_cons, add_comm, weight]

theorem weight_right {more : w.stop + 1 < weights.length} :
    (w.right more).weight = w.weight + w.after more := by
  rw [weight, slice_right, List.sum_append, List.sum_singleton, weight]

/-! ## Windows that cannot grow -/

variable [PartialOrder W]

variable (w) in
/-- Neither neighbour fits the budget beside what is shown. -/
structure Maximal (budget : W) : Prop where
  before : 0 < w.start → ¬ w.left.weight ≤ budget
  after : ∀ more : w.stop + 1 < weights.length, ¬ (w.right more).weight ≤ budget

theorem maximal_whole {inside : focus < weights.length} {budget : W} :
    (whole inside).Maximal budget := by
  constructor
  · intro more
    exact absurd more (lt_irrefl 0)
  · intro more
    have stop : weights.length - 1 + 1 < weights.length := more
    omega

variable [IsOrderedAddMonoid W] [CanonicallyOrderedAdd W]

theorem weight_le_of_wider {v : Window weights focus} (start : v.start ≤ w.start)
    (stop : w.stop ≤ v.stop) : w.weight ≤ v.weight :=
  (slice_sublist start stop weights).sum_le_sum fun _ _ => zero_le

/-- No wider window is within the budget, and not only the two that are wider by one. -/
theorem Maximal.widest {budget : W} (maximal : w.Maximal budget) {v : Window weights focus}
    (start : v.start ≤ w.start) (stop : w.stop ≤ v.stop) (fits : v.weight ≤ budget) :
    v.start = w.start ∧ v.stop = w.stop := by
  constructor
  · by_contra other
    have more : 0 < w.start := by omega
    have wider : v.start ≤ w.left.start := Nat.le_sub_one_of_lt (lt_of_le_of_ne start other)
    apply maximal.before more
    exact (weight_le_of_wider wider (show w.left.stop ≤ v.stop from stop)).trans fits
  · by_contra other
    have wider : w.stop + 1 ≤ v.stop := by omega
    have more : w.stop + 1 < weights.length := lt_of_le_of_lt wider v.stop_lt
    apply maximal.after more
    exact (weight_le_of_wider (show v.start ≤ (w.right more).start from start) wider).trans fits

end Window

end FerroWg.Lib
