import FerroWg.Lib.Occurrences
import FerroWg.Lib.Text

/-!
# Byte offsets

Slices of a text at byte offsets, which panic off a character boundary, and the search that
answers with such an offset.
-/

namespace FerroWg.Lib.Text

open String (utf8Len)

/-- `&s[n..]`. -/
def dropBytes : List Char → Nat → Option (List Char)
  | cs, 0 => some cs
  | [], _ + 1 => none
  | c :: cs, n + 1 => if c.utf8Size ≤ n + 1 then dropBytes cs (n + 1 - c.utf8Size) else none

/-- `&s[..n]`. -/
def takeBytes : List Char → Nat → Option (List Char)
  | _, 0 => some []
  | [], _ + 1 => none
  | c :: cs, n + 1 =>
    if c.utf8Size ≤ n + 1 then (takeBytes cs (n + 1 - c.utf8Size)).map (c :: ·) else none

/-- `&s[start..stop]`. -/
def sliceBytes (cs : List Char) (start stop : Nat) : Option (List Char) :=
  if start ≤ stop then (dropBytes cs start).bind (takeBytes · (stop - start)) else none

/-- `str::find` of a text: the byte offset of the first occurrence. -/
def findBytes (word cs : List Char) : Option Nat :=
  (firstOccurrence word cs).map fun p => utf8Len (cs.take p)

/-- A character in front is at least a byte. -/
theorem utf8Len_cons_eq_succ (c : Char) (cs : List Char) :
    ∃ n, utf8Len (c :: cs) = n + 1 ∧ c.utf8Size ≤ n + 1 ∧ n + 1 - c.utf8Size = utf8Len cs := by
  have width := c.utf8Size_pos
  rw [String.utf8Len_cons]
  exact ⟨utf8Len cs + c.utf8Size - 1, by omega, by omega, by omega⟩

theorem dropBytes_append (front cs : List Char) :
    dropBytes (front ++ cs) (utf8Len front) = some cs := by
  induction front with
  | nil => cases cs <;> rfl
  | cons c front ih =>
    obtain ⟨n, size, inside, rest⟩ := utf8Len_cons_eq_succ c front
    rw [size, List.cons_append, dropBytes, if_pos inside, rest, ih]

theorem takeBytes_append (front cs : List Char) :
    takeBytes (front ++ cs) (utf8Len front) = some front := by
  induction front with
  | nil => cases cs <;> rfl
  | cons c front ih =>
    obtain ⟨n, size, inside, rest⟩ := utf8Len_cons_eq_succ c front
    rw [size, List.cons_append, takeBytes, if_pos inside, rest, ih]
    rfl

/-! ## Cuts between characters -/

section

variable (cs : List Char)

theorem utf8Len_take_add (i k : Nat) :
    utf8Len (cs.take (i + k)) = utf8Len (cs.take i) + utf8Len ((cs.drop i).take k) := by
  rw [List.take_add, String.utf8Len_append]

theorem dropBytes_take (i : Nat) : dropBytes cs (utf8Len (cs.take i)) = some (cs.drop i) := by
  have whole := dropBytes_append (cs.take i) (cs.drop i)
  rwa [List.take_append_drop] at whole

theorem sliceBytes_take (i k : Nat) :
    sliceBytes cs (utf8Len (cs.take i)) (utf8Len (cs.take (i + k))) =
      some ((cs.drop i).take k) := by
  have front := takeBytes_append ((cs.drop i).take k) ((cs.drop i).drop k)
  rw [List.take_append_drop] at front
  rw [sliceBytes, utf8Len_take_add, if_pos (Nat.le_add_right _ _), dropBytes_take,
    Nat.add_sub_cancel_left]
  exact front

variable {cs}

theorem utf8Len_take_lt_iff {i k : Nat} (inside : i + k ≤ cs.length) :
    utf8Len (cs.take i) < utf8Len (cs.take (i + k)) ↔ 0 < k := by
  rw [utf8Len_take_add, Nat.lt_add_right_iff_pos, Nat.pos_iff_ne_zero, Nat.pos_iff_ne_zero, ne_eq,
    String.utf8Len_eq_zero, ← List.length_eq_zero_iff, List.length_take, List.length_drop]
  omega

end

theorem le_utf8Len_of_dropBytes {cs rest : List Char} {n : Nat}
    (inside : dropBytes cs n = some rest) : n ≤ utf8Len cs := by
  induction cs generalizing n with
  | nil =>
    cases n with
    | zero => exact Nat.zero_le _
    | succ n => cases inside
  | cons c cs ih =>
    cases n with
    | zero => exact Nat.zero_le _
    | succ n =>
      rw [dropBytes] at inside
      split_ifs at inside with fits
      have tail := ih inside
      rw [String.utf8Len_cons]
      omega

theorem utf8Len_pos {word : List Char} (nonempty : word ≠ []) : 0 < utf8Len word :=
  Nat.pos_of_ne_zero fun zero => nonempty (String.utf8Len_eq_zero.mp zero)

/-! ## ASCII letters -/

theorem utf8Size_eq_one_of_lt {c : Char} (ascii : c.toNat < 128) : c.utf8Size = 1 := by
  rw [Char.utf8Size_eq_one_iff, UInt32.le_iff_toNat_le]
  exact Nat.le_of_lt_succ ascii

theorem utf8Size_asciiLower (c : Char) : (asciiLower c).utf8Size = c.utf8Size := by
  rw [asciiLower]
  split_ifs with upper
  · have high : c.toNat ≤ 90 := upper.2
    have valid : (c.toNat + 32).isValidChar := .inl (by omega)
    rw [utf8Size_eq_one_of_lt (c := c) (by omega), utf8Size_eq_one_of_lt]
    have value : (Char.ofNat (c.toNat + 32)).toNat = c.toNat + 32 := by
      rw [Char.ofNat, dif_pos valid]
      rfl
    omega
  · rfl

theorem utf8Len_map_asciiLower (cs : List Char) : utf8Len (cs.map asciiLower) = utf8Len cs := by
  induction cs with
  | nil => rfl
  | cons c cs ih => rw [List.map_cons, String.utf8Len_cons, String.utf8Len_cons, ih,
      utf8Size_asciiLower]

end FerroWg.Lib.Text
