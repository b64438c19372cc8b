import FerroWg.Lib.Framing
import FerroWg.Lib.Lines

/-!
# Texts on a byte stream

Lines of text between two programs: each is encoded in UTF-8 and ends with a line feed, and the
reader trims it before it decodes.
-/

namespace FerroWg.Lib.Text

variable {α : Type}

def utf8 (s : String) : List UInt8 := s.toList.flatMap String.utf8EncodeChar

/-- `read_line` takes no bytes but those of a text. -/
def fromUtf8 (bytes : List UInt8) : Option String := String.fromUTF8? ⟨bytes.toArray⟩

theorem toByteArray_eq (s : String) : s.toByteArray = ⟨(utf8 s).toArray⟩ := by
  rw [← String.utf8Encode_toList, List.utf8Encode, utf8]
  apply ByteArray.ext
  simp

theorem fromUtf8_eq_some {bytes : List UInt8} {s : String} :
    fromUtf8 bytes = some s ↔ utf8 s = bytes := by
  rw [fromUtf8, String.fromUTF8?]
  constructor
  · intro read
    split at read
    · cases read
      have same := toByteArray_eq (String.fromUTF8 ⟨bytes.toArray⟩ ‹_›)
      simpa [String.fromUTF8, eq_comm] using same
    · cases read
  · rintro rfl
    have valid : ByteArray.IsValidUTF8 ⟨(utf8 s).toArray⟩ := toByteArray_eq s ▸ s.isValidUTF8
    rw [dif_pos valid, Option.some.injEq, ← String.toByteArray_inj]
    exact (toByteArray_eq s).symm

theorem fromUtf8_utf8 (s : String) : fromUtf8 (utf8 s) = some s := fromUtf8_eq_some.mpr rfl

theorem utf8_eq_nil {s : String} : utf8 s = [] ↔ s = "" := by
  constructor
  · intro nothing
    have none : fromUtf8 [] = some s := fromUtf8_eq_some.mpr nothing
    rw [show ([] : List UInt8) = utf8 "" from rfl, fromUtf8_utf8] at none
    exact (Option.some.inj none).symm
  · rintro rfl
    rfl

theorem utf8_append (s t : String) : utf8 (s ++ t) = utf8 s ++ utf8 t := by
  simp [utf8]

theorem utf8_newline (s : String) : utf8 (s ++ "\n") = utf8 s ++ [10] := by
  rw [utf8_append]
  rfl

/-- A byte of a character is above the ASCII range, or it is all of the character. -/
theorem mem_utf8EncodeChar {c : Char} {b : UInt8} (member : b ∈ String.utf8EncodeChar c) :
    b.toNat = c.toNat ∨ 128 ≤ b.toNat := by
  have value : c.val.toNat = c.toNat := rfl
  rw [String.utf8EncodeChar] at member
  split_ifs at member with one two three
  · obtain rfl := List.mem_singleton.mp member
    exact .inl (UInt8.toNat_ofNat_of_lt' (Nat.lt_of_le_of_lt one (by decide)))
  all_goals
    simp only [List.mem_cons, List.not_mem_nil, or_false] at member
    rcases member with rfl | rfl | rfl | rfl
  all_goals
    rw [UInt8.toNat_ofNat']
    omega

/-- The byte that ends a line is that of a line feed. -/
theorem newline_mem_utf8 {s : String} : 10 ∈ utf8 s ↔ '\n' ∈ s.toList := by
  rw [utf8, List.mem_flatMap]
  constructor
  · rintro ⟨c, inside, member⟩
    rcases mem_utf8EncodeChar member with same | high
    · rwa [← Char.ofNat_toNat c, ← same] at inside
    · exact absurd high (by decide)
  · intro inside
    exact ⟨'\n', inside, by decide⟩

/-- What is cut off a text and is one still, is its front. -/
theorem prefix_of_utf8 {s t : String} (cut : utf8 t <+: utf8 s) : t.toList <+: s.toList := by
  obtain ⟨rest, whole⟩ := cut
  apply List.isPrefix_of_utf8Encode_append_eq_utf8Encode ⟨rest.toArray⟩
  apply ByteArray.ext
  simpa [List.utf8Encode, utf8] using whole

/-- A message that is written on one line, and that its decoder knows from the trimmed line, ended
or not, but not from less of it. -/
structure OnLine (decode : String → Option α) (text : String) (message : α) : Prop where
  nonempty : text ≠ ""
  single : '\n' ∉ text.toList
  ended : decode (trim (text ++ "\n")) = some message
  whole : decode (trim text) = some message
  cut : ∀ part : String, part.toList <+: text.toList → part ≠ text → decode (trim part) = none

/-- The fronts of a given text are few. -/
theorem OnLine.of_inits {decode : String → Option α} {text : String} {message : α}
    (nonempty : text ≠ "") (single : '\n' ∉ text.toList)
    (ended : decode (trim (text ++ "\n")) = some message)
    (whole : decode (trim text) = some message)
    (cut : ∀ front ∈ text.toList.inits, front = text.toList ∨
      (decode (trim (.ofList front))).isNone) : OnLine decode text message where
  nonempty := nonempty
  single := single
  ended := ended
  whole := whole
  cut part inside short := by
    rcases cut part.toList ((List.mem_inits _ _).mpr inside) with same | lost
    · exact absurd (String.toList_inj.mp same) short
    · rwa [String.ofList_toList, Option.isNone_iff_eq_none] at lost

/-- A decoder that knows one text, which has no blanks around it. -/
theorem OnLine.of_only {decode : String → Option α} {text : String} {message : α}
    (nonempty : text ≠ "") (single : '\n' ∉ text.toList) (trimmed : trim text = text)
    (reads : decode text = some message) (only : ∀ s, s ≠ text → decode s = none) :
    OnLine decode text message where
  nonempty := nonempty
  single := single
  ended := by
    have newline : Blank "\n".toList := List.forall_mem_singleton.mpr rfl
    rw [trim_eq, String.toList_append, trimChars_append_blank _ newline, ← trim_eq, trimmed, reads]
  whole := by rw [trimmed, reads]
  cut part inside short := by
    apply only
    rintro same
    obtain ⟨left, right, _, _, whole⟩ := trimChars_spec part.toList
    rw [← toList_trim, same] at whole
    have long : text.toList.length ≤ part.toList.length := by
      rw [whole]
      simp only [List.length_append]
      omega
    exact short (String.toList_inj.mp (inside.eq_of_length_le long))

/-- What a reader of lines makes of one: nothing can be read after bytes that are no text. -/
def takeText (decode : String → Option α) (line : List UInt8) : Option (Option α) :=
  (fromUtf8 line).map fun text => decode (trim text)

theorem takeText_utf8 (decode : String → Option α) (s : String) :
    takeText decode (utf8 s) = some (decode (trim s)) := by
  rw [takeText, fromUtf8_utf8, Option.map_some]

theorem OnLine.carries {decode : String → Option α} {text : String} {message : α}
    (line : OnLine decode text message) :
    Framing.Carries 10 (takeText decode) (utf8 text) message where
  free := fun member => line.single (newline_mem_utf8.mp member)
  ended := by rw [← utf8_newline, takeText_utf8, line.ended]
  whole := by rw [takeText_utf8, line.whole]
  cut part inside short := by
    rw [takeText]
    cases read : fromUtf8 part with
    | none => rfl
    | some t =>
      obtain rfl := fromUtf8_eq_some.mp read
      have other : t ≠ text := fun same => short (congrArg utf8 same)
      simp [line.cut t (prefix_of_utf8 inside) other]

end FerroWg.Lib.Text
