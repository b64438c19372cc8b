import FerroWg.Lib.Lines

/-!
# Numerals

What a parser of unsigned numbers accepts, as a grammar, and why its type matters only for the
bound.
-/

namespace FerroWg.Lib.Text

/-- Decimal digits, at least one, of a given value. Zeros may lead. -/
structure Decimal (digits : List Char) (n : Nat) : Prop where
  nonempty : digits ≠ []
  decimal : ∀ c ∈ digits, c.isDigit = true
  value : Nat.ofDigitChars 10 digits 0 = n

/-- Digits, after a plus sign or none. -/
def Numeral (s : String) (n : Nat) : Prop :=
  ∃ digits, Decimal digits n ∧ (s.toList = digits ∨ s.toList = '+' :: digits)

theorem digit_eq_none_of_not_isDigit {c : Char} (other : ¬c.isDigit = true) : digit c = none := by
  rw [digit, if_neg]
  intro bounds
  exact other (by simpa [Char.isDigit, Char.le_def] using bounds)

theorem le_ofDigitChars (cs : List Char) (n : Nat) : n ≤ Nat.ofDigitChars 10 cs n := by
  rw [Nat.ofDigitChars_eq_ofDigitChars_zero]
  have grows := Nat.le_mul_of_pos_left n (Nat.pow_pos (n := cs.length) (by omega : 0 < 10))
  omega

/-- The running value never exceeds the last one, so only this is held against the maximum. -/
theorem parseDigits_ok_iff {max n m : Nat} {cs : List Char} (start : n ≤ max) :
    parseDigits max n cs = .ok m ↔
      (∀ c ∈ cs, c.isDigit = true) ∧ Nat.ofDigitChars 10 cs n = m ∧ m ≤ max := by
  induction cs generalizing n with
  | nil =>
    simp only [parseDigits, Except.ok.injEq, List.not_mem_nil, IsEmpty.forall_iff, implies_true,
      Nat.ofDigitChars_nil, true_and]
    omega
  | cons c cs ih =>
    rw [parseDigits, List.forall_mem_cons, Nat.ofDigitChars_cons]
    by_cases decimal : c.isDigit = true
    · simp only [digit_of_isDigit decimal]
      have grows := le_ofDigitChars cs (10 * n + (c.toNat - '0'.toNat))
      split_ifs with below
      · rw [ih below]
        simp [decimal]
      · simp only [false_iff]
        omega
    · simp [digit_eq_none_of_not_isDigit decimal, decimal]

theorem parseUint_ok_iff {max n : Nat} {s : String} :
    parseUint max s = .ok n ↔ Numeral s n ∧ n ≤ max := by
  have signed {sign : Char} {rest : List Char} (parts : s.toList = sign :: rest)
      (solid : sign.isDigit = false) : Numeral s n ↔ sign = '+' ∧ Decimal rest n := by
    constructor
    · rintro ⟨digits, number, plain | plus⟩
      · have first := number.decimal sign (by simp [← plain, parts])
        simp [solid] at first
      · obtain ⟨rfl, rfl⟩ := List.cons.inj (parts.symm.trans plus)
        exact ⟨rfl, number⟩
    · rintro ⟨rfl, number⟩
      exact ⟨rest, number, .inr parts⟩
  have lone {sign : Char} (parts : s.toList = [sign]) (solid : sign.isDigit = false) :
      ¬Numeral s n := fun number => ((signed parts solid).mp number).2.nonempty rfl
  rw [parseUint]
  split
  · rename_i empty
    simp only [reduceCtorEq, false_iff, not_and]
    rintro ⟨digits, number, plain | plus⟩
    · exact absurd (plain.symm.trans empty) number.nonempty
    · simp [empty] at plus
  · rename_i parts
    simp [lone parts (by decide)]
  · rename_i parts
    simp [lone parts (by decide)]
  · rename_i rest long parts
    have nonempty : rest ≠ [] := by simpa using long
    rw [parseDigits_ok_iff (Nat.zero_le max), signed parts (by decide)]
    constructor
    · rintro ⟨decimal, value, fits⟩
      exact ⟨⟨rfl, nonempty, decimal, value⟩, fits⟩
    · rintro ⟨⟨_, number⟩, fits⟩
      exact ⟨number.decimal, number.value, fits⟩
  · rename_i nonempty _ _ other
    rw [parseDigits_ok_iff (Nat.zero_le max)]
    constructor
    · rintro ⟨decimal, value, fits⟩
      exact ⟨⟨s.toList, ⟨nonempty, decimal, value⟩, .inl rfl⟩, fits⟩
    · rintro ⟨⟨digits, number, plain | plus⟩, fits⟩
      · exact plain ▸ ⟨number.decimal, number.value, fits⟩
      · exact absurd plus (other digits)

theorem Numeral.unique {s : String} {n m : Nat} (left : Numeral s n) (right : Numeral s m) :
    n = m := by
  have first := parseUint_ok_iff.mpr ⟨left, Nat.le_max_left n m⟩
  have second := parseUint_ok_iff.mpr ⟨right, Nat.le_max_right n m⟩
  exact Except.ok.inj (first.symm.trans second)

theorem Numeral.nonempty {s : String} {n : Nat} (number : Numeral s n) : s ≠ "" := by
  rintro rfl
  obtain ⟨digits, decimal, plain | plus⟩ := number
  · exact decimal.nonempty plain.symm
  · cases plus

/-- The parser of a type that holds the numbers up to a maximum. -/
theorem map_parseUint_ok_iff {N : Type*} {max : Nat} {ofNat : Nat → N} {toNat : N → Nat}
    (left : ∀ n, ofNat (toNat n) = n) (right : ∀ m ≤ max, toNat (ofNat m) = m)
    (bound : ∀ n, toNat n ≤ max) {s : String} {n : N} :
    (parseUint max s).map ofNat = .ok n ↔ Numeral s (toNat n) := by
  constructor
  · intro read
    cases parsed : parseUint max s with
    | error e =>
      rw [parsed] at read
      cases read
    | ok m =>
      obtain ⟨number, fits⟩ := parseUint_ok_iff.mp parsed
      rw [parsed] at read
      obtain rfl := Except.ok.inj read
      rwa [right m fits]
  · intro number
    rw [parseUint_ok_iff.mpr ⟨number, bound n⟩]
    exact congrArg Except.ok (left n)

theorem parseU8_ok_iff {s : String} {n : UInt8} : parseU8 s = .ok n ↔ Numeral s n.toNat :=
  map_parseUint_ok_iff (fun _ => UInt8.ofNat_toNat)
    (fun _ fits => UInt8.toNat_ofNat_of_lt' (Nat.lt_succ_of_le fits))
    fun n => Nat.le_of_lt_succ n.toNat_lt

theorem parseU16_ok_iff {s : String} {n : UInt16} : parseU16 s = .ok n ↔ Numeral s n.toNat :=
  map_parseUint_ok_iff (fun _ => UInt16.ofNat_toNat)
    (fun _ fits => UInt16.toNat_ofNat_of_lt' (Nat.lt_succ_of_le fits))
    fun n => Nat.le_of_lt_succ n.toNat_lt

theorem parseU32_ok_iff {s : String} {n : UInt32} : parseU32 s = .ok n ↔ Numeral s n.toNat :=
  map_parseUint_ok_iff (fun _ => UInt32.ofNat_toNat)
    (fun _ fits => UInt32.toNat_ofNat_of_lt' (Nat.lt_succ_of_le fits))
    fun n => Nat.le_of_lt_succ n.toNat_lt

/-- A number, as it is printed. -/
theorem numeral_toString (n : Nat) : Numeral (toString n) n :=
  (parseUint_ok_iff.mp (parseUint_toString le_rfl)).1

theorem decimal_toString (n : Nat) : Decimal (toString n).toList n := by
  obtain ⟨digits, number, plain | plus⟩ := numeral_toString n
  · exact plain ▸ number
  · have sign : '+' ∈ (toString n).toList := plus ▸ .head _
    exact absurd (isDigit_of_mem_toString sign) (by decide)

theorem getLast?_toString (n : Nat) :
    ∃ c, (toString n).toList.getLast? = some c ∧ c.isDigit = true := by
  have nonempty := (decimal_toString n).nonempty
  exact ⟨_, List.getLast?_eq_some_getLast nonempty,
    isDigit_of_mem_toString (List.getLast_mem nonempty)⟩

/-! ## Numbers of any size -/

def readNat (digits : List Char) : Option Nat :=
  if digits ≠ [] ∧ digits.all Char.isDigit = true then some (Nat.ofDigitChars 10 digits 0) else none

def readInt (s : List Char) : Option Int :=
  match s with
  | '-' :: digits => (readNat digits).map fun n => -Int.ofNat n
  | digits => (readNat digits).map Int.ofNat

theorem readNat_eq_some {digits : List Char} {n : Nat} (number : Decimal digits n) :
    readNat digits = some n := by
  rw [readNat, if_pos ⟨number.nonempty, List.all_eq_true.mpr number.decimal⟩, number.value]

theorem readNat_toString (n : Nat) : readNat (toString n).toList = some n :=
  readNat_eq_some (decimal_toString n)

theorem toList_toString_negSucc (n : Nat) :
    (toString (Int.negSucc n)).toList = '-' :: (toString (n + 1)).toList := by
  have parts : toString (Int.negSucc n) = "-" ++ toString (n + 1) := rfl
  rw [parts, String.toList_append]
  rfl

/-- An integer is printed in digits, after a minus sign or none. -/
theorem mem_toString_int {i : Int} {c : Char} (member : c ∈ (toString i).toList) :
    c = '-' ∨ c.isDigit = true := by
  cases i with
  | ofNat n => exact .inr (isDigit_of_mem_toString (n := n) member)
  | negSucc n =>
    rw [toList_toString_negSucc] at member
    exact (List.mem_cons.mp member).imp_right isDigit_of_mem_toString

theorem readInt_toString (i : Int) : readInt (toString i).toList = some i := by
  cases i with
  | ofNat n =>
    have text : toString (Int.ofNat n) = toString n := rfl
    have unsigned (digits : List Char) : (toString n).toList ≠ '-' :: digits := by
      intro minus
      have sign : '-' ∈ (toString n).toList := minus ▸ .head _
      exact absurd (isDigit_of_mem_toString sign) (by decide)
    rw [text, readInt, readNat_toString]
    · rfl
    · exact unsigned
  | negSucc n =>
    rw [toList_toString_negSucc, readInt, readNat_toString]
    rfl

end FerroWg.Lib.Text
