import Mathlib.Data.List.DropRight
import Mathlib.Data.List.Infix
import Mathlib.Data.String.Basic

/-!
# Rust string operations

`str` and `String` methods over Lean strings, each through the list of characters.
-/

namespace FerroWg.Lib.Text

/-- The Unicode `White_Space` property, which is `char::is_whitespace`. -/
def isWhitespace (c : Char) : Bool :=
  let n := c.toNat
  (9 ≤ n && n ≤ 13) || n == 0x20 || n == 0x85 || n == 0xA0 || n == 0x1680 ||
    (0x2000 ≤ n && n ≤ 0x200A) || n == 0x2028 || n == 0x2029 || n == 0x202F ||
    n == 0x205F || n == 0x3000

/-- `str::trim`. -/
def trim (s : String) : String :=
  .ofList ((s.toList.dropWhile isWhitespace).rdropWhile isWhitespace)

/-- `str::split` at a character: there is always at least one part. -/
def split (sep : Char) (s : String) : List String :=
  (s.toList.splitOnP (· == sep)).map .ofList

/-- `str::split_once` at a character. -/
def splitOnce (sep : Char) (s : String) : Option (String × String) :=
  match s.toList.span (· != sep) with
  | (_, []) => none
  | (before, _ :: after) => some (.ofList before, .ofList after)

/-- One `\r` at the end of a line that a `\n` ended. -/
def stripCarriageReturn (line : List Char) : List Char :=
  if line.getLast? = some '\r' then line.dropLast else line

/-- `str::lines`: `\n` and `\r\n` end a line, and the text after the last of them is a
line when it is not empty. -/
def lines (s : String) : List String :=
  let parts := s.toList.splitOnP (· == '\n')
  let last := parts.getLast?.getD []
  ((parts.dropLast.map stripCarriageReturn) ++ if last = [] then [] else [last]).map .ofList

theorem length_splitOnP {α : Type*} (p : α → Bool) (l : List α) :
    (l.splitOnP p).length = l.countP p + 1 := by
  induction l with
  | nil => rfl
  | cons a l ih =>
    rw [List.splitOnP_cons_eq_if_modifyHead, List.countP_cons]
    split_ifs <;> simp [ih]

/-- A text whose last line is ended has as many lines as it has line feeds. -/
theorem length_lines {s : String} (ended : s.toList.getLast? = some '\n') :
    (lines s).length = s.toList.count '\n' := by
  obtain ⟨body, text⟩ := List.getLast?_eq_some_iff.mp ended
  have parts : s.toList.splitOnP (· == '\n') = body.splitOnP (· == '\n') ++ [[]] := by
    rw [text, List.splitOnP_append_cons _ _ (by rfl), List.splitOnP_nil]
  simp only [lines, parts]
  simp [text, length_splitOnP, List.count]

/-- `String::pop`, without the character. -/
def pop (s : String) : String := .ofList s.toList.dropLast

def asciiLower (c : Char) : Char :=
  if 'A' ≤ c ∧ c ≤ 'Z' then Char.ofNat (c.toNat + 32) else c

def toAsciiLowercase (s : String) : String := .ofList (s.toList.map asciiLower)

def eqIgnoreAsciiCase (a b : String) : Bool := toAsciiLowercase a == toAsciiLowercase b

def startsWith (c : Char) (s : String) : Bool := s.toList.head? == some c

/-- `str::contains` of a string. -/
def contains (needle hay : String) : Bool := decide (needle.toList <:+: hay.toList)

/-- What is before and after the first occurrence of a string. -/
def splitOnceAt (needle : List Char) : List Char → Option (List Char × List Char)
  | [] => if needle = [] then some ([], []) else none
  | c :: rest =>
    if needle.isPrefixOf (c :: rest) then some ([], (c :: rest).drop needle.length)
    else (splitOnceAt needle rest).map fun (before, after) => (c :: before, after)

/-- The second part of `str::split` at a string: it ends at the next occurrence. -/
def splitSecond (needle s : String) : Option String :=
  (splitOnceAt needle.toList s.toList).map fun (_, after) =>
    match splitOnceAt needle.toList after with
    | some (part, _) => .ofList part
    | none => .ofList after

/-- `str::strip_prefix` of a string. -/
def stripPrefix (start s : String) : Option String :=
  if start.toList.isPrefixOf s.toList then some (.ofList (s.toList.drop start.toList.length))
  else none

/-- `str::trim_end_matches` of a character. -/
def trimEndMatches (c : Char) (s : String) : String := .ofList (s.toList.rdropWhile (· == c))

/-- `core::num::IntErrorKind`, as far as unsigned types report it. -/
inductive IntError where
  | empty
  | invalidDigit
  | posOverflow
  deriving DecidableEq, Repr

def IntError.display : IntError → String
  | .empty => "cannot parse integer from empty string"
  | .invalidDigit => "invalid digit found in string"
  | .posOverflow => "number too large to fit in target type"

def digit (c : Char) : Option Nat :=
  if '0' ≤ c ∧ c ≤ '9' then some (c.toNat - '0'.toNat) else none

/-- Digits are read from the left and the first offence is reported, so an overflow may
hide a bad digit behind it. -/
def parseDigits (max : Nat) : Nat → List Char → Except IntError Nat
  | n, [] => .ok n
  | n, c :: rest =>
    match digit c with
    | none => .error .invalidDigit
    | some d => if 10 * n + d ≤ max then parseDigits max (10 * n + d) rest else .error .posOverflow

/-- `str::parse` at an unsigned type with the given maximum. A leading `+` is accepted. -/
def parseUint (max : Nat) (s : String) : Except IntError Nat :=
  match s.toList with
  | [] => .error .empty
  | ['+'] | ['-'] => .error .invalidDigit
  | '+' :: rest => parseDigits max 0 rest
  | chars => parseDigits max 0 chars

def parseU8 (s : String) : Except IntError UInt8 := (parseUint 255 s).map .ofNat
def parseU16 (s : String) : Except IntError UInt16 := (parseUint 65535 s).map .ofNat
def parseU32 (s : String) : Except IntError UInt32 := (parseUint 4294967295 s).map .ofNat

/-- Text without blanks at either end is its own trimming. -/
theorem trim_of_no_whitespace (s : String) (none : ∀ c ∈ s.toList, isWhitespace c = false) :
    trim s = s := by
  have left : s.toList.dropWhile isWhitespace = s.toList := by
    rw [List.dropWhile_eq_self_iff]
    intro nonempty
    simp [none _ (List.getElem_mem nonempty)]
  have right : s.toList.rdropWhile isWhitespace = s.toList := by
    rw [List.rdropWhile_eq_self_iff]
    intro nonempty
    simp [none _ (List.getLast_mem nonempty)]
  rw [trim, left, right, String.ofList_toList]

example : lines "a\r\n\nb\r" = ["a", "", "b\r"] := by decide
example : parseU16 "+080" = .ok 80 ∧ parseU16 "99999x" = .error .posOverflow := by decide

end FerroWg.Lib.Text
