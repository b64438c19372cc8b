import Mathlib.Data.List.Basic

/-!
# A ring buffer and its two slices

The elements stand in a ring of slots from a head on, and go on at the first slot when the last is
passed. Where the elements come to stand in a new allocation, or in an emptied one, is left to the
environment.
-/

namespace FerroWg.Lib

/-- Elements in at least as many slots, the first of them in the slot `head`. -/
structure RingBuffer (α : Type) where
  items : List α
  capacity : Nat
  head : Nat
  fits : items.length ≤ capacity
  inside : head = 0 ∨ head < capacity

/-- How many slots an allocation has beyond those that are needed, and where its elements begin. -/
structure Layout where
  extra : Nat
  offset : Nat
  deriving DecidableEq, Repr

namespace RingBuffer

variable {α : Type}

/-- A slot, or the first one behind the last. -/
def slot (capacity i : Nat) : Nat := if i < capacity then i else 0

theorem slot_inside (capacity i : Nat) : slot capacity i = 0 ∨ slot capacity i < capacity := by
  rw [slot]
  split
  case isTrue inside => exact .inr inside
  case isFalse => exact .inl rfl

def empty : RingBuffer α := ⟨[], 0, 0, Nat.le_refl _, .inl rfl⟩

/-- The elements up to the last slot, and those that go on at the first. -/
def asSlices (r : RingBuffer α) : List α × List α :=
  (r.items.take (r.capacity - r.head), r.items.drop (r.capacity - r.head))

def clear (layout : Layout) (r : RingBuffer α) : RingBuffer α :=
  ⟨[], r.capacity, slot r.capacity layout.offset, Nat.zero_le _, slot_inside _ _⟩

theorem tail_fits {items : List α} {capacity : Nat} (fits : items.length ≤ capacity) :
    items.tail.length ≤ capacity := by
  rw [List.length_tail]
  omega

def popFront (r : RingBuffer α) : RingBuffer α :=
  if r.items.isEmpty then r
  else ⟨r.items.tail, r.capacity, slot r.capacity (r.head + 1), tail_fits r.fits, slot_inside _ _⟩

theorem push_fits (items : List α) (a : α) (extra : Nat) :
    (items ++ [a]).length ≤ items.length + 1 + extra := by
  rw [List.length_append, List.length_singleton]
  exact Nat.le_add_right _ _

theorem push_fits_room {items : List α} {capacity : Nat} (room : items.length < capacity) (a : α) :
    (items ++ [a]).length ≤ capacity := by
  rw [List.length_append, List.length_singleton]
  exact room

/-- A full ring is allocated anew. -/
def pushBack (layout : Layout) (a : α) (r : RingBuffer α) : RingBuffer α :=
  if room : r.items.length < r.capacity then
    ⟨r.items ++ [a], r.capacity, r.head, push_fits_room room a, r.inside⟩
  else
    ⟨r.items ++ [a], r.items.length + 1 + layout.extra,
      slot (r.items.length + 1 + layout.extra) layout.offset, push_fits _ _ _, slot_inside _ _⟩

variable (r : RingBuffer α)

@[simp] theorem items_clear (layout : Layout) : (r.clear layout).items = [] := rfl

@[simp] theorem items_popFront : r.popFront.items = r.items.tail := by
  rw [popFront]
  split
  case isTrue none => rw [List.isEmpty_iff.mp none, List.tail_nil]
  case isFalse => rfl

@[simp] theorem items_pushBack (layout : Layout) (a : α) :
    (r.pushBack layout a).items = r.items ++ [a] := by
  rw [pushBack]
  split <;> rfl

/-- The two slices are the elements, in order. -/
theorem asSlices_append : r.asSlices.1 ++ r.asSlices.2 = r.items := List.take_append_drop _ _

/-- The elements do not go on at the first slot. -/
def Whole : Prop := r.head + r.items.length ≤ r.capacity

theorem asSlices_snd_eq_nil_iff : r.asSlices.2 = [] ↔ r.Whole := by
  rw [asSlices, List.drop_eq_nil_iff, Whole]
  have := r.inside
  omega

/-- The first slice is empty in an empty ring only. -/
theorem asSlices_fst_eq_nil_iff : r.asSlices.1 = [] ↔ r.items = [] := by
  rw [asSlices, List.take_eq_nil_iff, or_iff_right_iff_imp]
  intro none
  apply List.eq_nil_of_length_eq_zero
  have := r.inside
  have := r.fits
  omega

variable {r}

theorem whole_of_items (empty : r.items = []) : r.Whole := by
  rw [Whole, empty, List.length_nil]
  have := r.inside
  omega

/-- A slot is free behind the last element, or the new allocation puts the elements before its
end. -/
def RoomBehind (layout : Layout) (r : RingBuffer α) : Prop :=
  if r.items.length < r.capacity then r.head + r.items.length < r.capacity
  else slot (r.items.length + 1 + layout.extra) layout.offset ≤ layout.extra

theorem whole_pushBack_iff (layout : Layout) (a : α) :
    (r.pushBack layout a).Whole ↔ r.RoomBehind layout := by
  rw [Whole, items_pushBack, List.length_append, List.length_singleton, pushBack, RoomBehind]
  split
  case isTrue => exact Iff.rfl
  case isFalse =>
    change slot _ _ + _ ≤ _ + _ ↔ _
    omega

end RingBuffer

end FerroWg.Lib
