import FerroWg.Lib.Lines

/-!
# Tables of delimited fields

A table is written a row a line, with a separator between its fields and no quoting. It can be read
back exactly when no field holds a separator or a line feed.
-/

namespace FerroWg.Lib.Delimited

open Text

variable {sep : Char}

/-- A field that can stand without quotes. -/
def Plain (sep : Char) (field : String) : Prop := sep ∉ field.toList ∧ '\n' ∉ field.toList

instance (field : String) : Decidable (Plain sep field) := inferInstanceAs (Decidable (_ ∧ _))

def row (sep : Char) (fields : List String) : String := (String.singleton sep).intercalate fields

def table (sep : Char) (rows : List (List String)) : String := unlines (rows.map (row sep))

/-- The lines of a text, each split at the separators. -/
def cells (sep : Char) (text : String) : List (List String) := (lines text).map (split sep)

theorem toList_row (fields : List String) :
    (row sep fields).toList = [sep].intercalate (fields.map String.toList) := by
  rw [row, String.toList_intercalate, String.toList_singleton]

theorem split_row {fields : List String} (nonempty : fields ≠ [])
    (plain : ∀ field ∈ fields, sep ∉ field.toList) : split sep (row sep fields) = fields := by
  have free : ∀ l ∈ fields.map String.toList, sep ∉ l := by
    simpa only [List.forall_mem_map] using plain
  have parts := List.splitOn_intercalate sep free (by simpa using nonempty)
  rw [List.splitOn_eq_splitOnP] at parts
  rw [split, toList_row, parts, List.map_map]
  simp [Function.comp_def]

theorem mem_intercalate {α : Type} {a b : α} {ls : List (List α)}
    (member : b ∈ [a].intercalate ls) : b = a ∨ ∃ l ∈ ls, b ∈ l := by
  induction ls with
  | nil => cases member
  | cons l rest ih =>
    cases rest with
    | nil =>
      rw [List.intercalate_singleton] at member
      exact .inr ⟨l, .head _, member⟩
    | cons l' rest =>
      rw [List.intercalate_cons_cons, List.append_assoc, List.mem_append, List.mem_append] at member
      rcases member with here | between | later
      · exact .inr ⟨l, .head _, here⟩
      · exact .inl (List.mem_singleton.mp between)
      · exact (ih later).imp_right fun ⟨other, inside, there⟩ => ⟨other, .tail _ inside, there⟩

theorem row_whole (solid : sep ≠ '\n') {fields : List String}
    (plain : ∀ field ∈ fields, Plain sep field) : '\n' ∉ (row sep fields).toList := by
  rw [toList_row]
  intro member
  rcases mem_intercalate member with same | ⟨l, inside, there⟩
  · exact solid same.symm
  · obtain ⟨field, listed, rfl⟩ := List.mem_map.mp inside
    exact (plain field listed).2 there

/-- A row ends as its last field does. -/
theorem getLast?_row {fields : List String} {last : String} (final : fields.getLast? = some last)
    {c : Char} (ends : last.toList.getLast? = some c) :
    (row sep fields).toList.getLast? = some c := by
  rw [toList_row]
  induction fields with
  | nil => cases final
  | cons field rest ih =>
    cases rest with
    | nil =>
      cases final
      rw [List.map_singleton, List.intercalate_singleton]
      exact ends
    | cons next rest =>
      rw [List.getLast?_cons_cons] at final
      rw [List.map_cons, List.map_cons, List.intercalate_cons_cons, List.getLast?_append]
      rw [List.map_cons] at ih
      rw [ih final, Option.some_or]

theorem mem_stripCarriageReturn {line : List Char} {c : Char}
    (member : c ∈ stripCarriageReturn line) : c ∈ line := by
  rw [stripCarriageReturn] at member
  split at member
  · exact List.mem_of_mem_dropLast member
  · exact member

/-- A line of a text holds no line feed. -/
theorem lines_line {text line : String} (member : line ∈ lines text) : '\n' ∉ line.toList := by
  have part {cs : List Char} (there : cs ∈ text.toList.splitOnP (· == '\n')) : '\n' ∉ cs := by
    intro inside
    have other := (splitOnP_part cs there _ inside).1
    simp at other
  obtain ⟨cs, listed, rfl⟩ := List.mem_map.mp member
  rw [String.toList_ofList]
  rcases List.mem_append.mp listed with ended | last
  · obtain ⟨before, there, rfl⟩ := List.mem_map.mp ended
    exact fun inside => part (List.mem_of_mem_dropLast there) (mem_stripCarriageReturn inside)
  · split at last
    · cases last
    · obtain rfl := List.mem_singleton.mp last
      apply part
      rw [List.getLast?_eq_some_getLast (List.splitOnP_ne_nil _ _), Option.getD_some]
      exact List.getLast_mem _

theorem lines_unlines {ls : List String} (whole : ∀ l ∈ ls, '\n' ∉ l.toList)
    (ended : ∀ l ∈ ls, l.toList.getLast? ≠ some '\r') : lines (unlines ls) = ls := by
  have kept : ∀ l ∈ ls, stripCarriageReturn l.toList = l.toList := fun l member =>
    if_neg (ended l member)
  have parts := splitOnP_unlines whole
  rw [lines, parts]
  simp only [List.dropLast_concat, List.getLast?_concat, Option.getD_some, if_true, List.append_nil,
    List.map_map]
  conv_rhs => rw [← List.map_id ls]
  apply List.map_congr_left
  intro l member
  simp [kept l member]

/-! ## Tables -/

/-- Whatever a text is, what is read from it can stand without quotes. -/
theorem plain_of_cells {text : String} {fields : List String} (read : fields ∈ cells sep text)
    {field : String} (member : field ∈ fields) : Plain sep field := by
  obtain ⟨line, listed, rfl⟩ := List.mem_map.mp read
  obtain ⟨free, part⟩ := split_part member
  exact ⟨free, fun inside => lines_line listed (part _ inside)⟩

/-- A table is read back as it was, provided that no line ends in `\r`. -/
theorem cells_table (solid : sep ≠ '\n') {rows : List (List String)}
    (nonempty : ∀ fields ∈ rows, fields ≠ [])
    (ended : ∀ fields ∈ rows, (row sep fields).toList.getLast? ≠ some '\r')
    (plain : ∀ fields ∈ rows, ∀ field ∈ fields, Plain sep field) :
    cells sep (table sep rows) = rows := by
  have text : lines (table sep rows) = rows.map (row sep) := by
    apply lines_unlines
    · simpa only [List.forall_mem_map] using fun fields member => row_whole solid (plain fields member)
    · simpa only [List.forall_mem_map] using ended
  rw [cells, text, List.map_map]
  conv_rhs => rw [← List.map_id rows]
  apply List.map_congr_left
  intro fields member
  exact split_row (nonempty fields member) fun field inside => (plain fields member field inside).1

end FerroWg.Lib.Delimited
