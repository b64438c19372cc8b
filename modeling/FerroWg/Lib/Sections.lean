import Mathlib.Data.List.Basic

/-!
# Sectioned documents

A document is a list of lines. A line is a header, an entry of the section it stands in, or neither.
A reader takes the lines one at a time; what it has read is compared with the segments between the
headers.
-/

namespace FerroWg.Lib.Sections

variable {S E α σ ε : Type*}

inductive Item (S E : Type*) where
  | header (sect : S)
  | entry (e : E)
  deriving DecidableEq

structure Segment (S E : Type*) where
  sect : S
  entries : List E

/-- The entries before the first header. -/
def lead : List (Item S E) → List E
  | .entry e :: rest => e :: lead rest
  | _ => []

/-- Each header with the entries up to the next. -/
def segments : List (Item S E) → List (Segment S E)
  | [] => []
  | .header s :: rest => ⟨s, lead rest⟩ :: segments rest
  | .entry _ :: rest => segments rest

/-- The first line that does not belong where it stands. -/
def firstBad (item : α → Option (Item S E)) (good : S → E → Bool) : S → List α → Option α
  | _, [] => none
  | s, line :: rest =>
    match item line with
    | some (.header s) => firstBad item good s rest
    | some (.entry e) => if good s e then firstBad item good s rest else some line
    | none => some line

@[simp] theorem lead_entries (es : List E) (rest : List (Item S E)) :
    lead (es.map .entry ++ rest) = es ++ lead rest := by
  induction es with
  | nil => rfl
  | cons e es ih => simp [lead, ih]

@[simp] theorem segments_entries (es : List E) (rest : List (Item S E)) :
    segments (es.map .entry ++ rest) = segments rest := by
  induction es with
  | nil => rfl
  | cons e es ih => simp [segments, ih]

/-- A segment as it is written. -/
def Segment.items (seg : Segment S E) : List (Item S E) := .header seg.sect :: seg.entries.map .entry

theorem lead_items (segs : List (Segment S E)) : lead (segs.flatMap Segment.items) = [] := by
  cases segs <;> rfl

/-- Segments are read as they were written. -/
theorem segments_items (segs : List (Segment S E)) : segments (segs.flatMap Segment.items) = segs := by
  induction segs with
  | nil => rfl
  | cons seg rest ih => simp [Segment.items, segments, lead_items, ih]

theorem entry_mem_of_lead {items : List (Item S E)} {e : E} (member : e ∈ lead items) :
    .entry e ∈ items := by
  induction items with
  | nil => simp [lead] at member
  | cons it rest ih =>
    cases it with
    | header s => simp [lead] at member
    | entry e' =>
      rcases List.mem_cons.mp member with rfl | later
      · exact .head _
      · exact .tail _ (ih later)

theorem entry_mem_of_segments {items : List (Item S E)} {seg : Segment S E} {e : E}
    (listed : seg ∈ segments items) (member : e ∈ seg.entries) : .entry e ∈ items := by
  induction items with
  | nil => simp [segments] at listed
  | cons it rest ih =>
    cases it with
    | header s =>
      rcases List.mem_cons.mp listed with rfl | later
      · exact .tail _ (entry_mem_of_lead member)
      · exact .tail _ (ih later)
    | entry e' => exact .tail _ (ih listed)

/-- Nothing is out of place when every line is a header or an entry that its section takes. -/
theorem firstBad_eq_none_iff {item : α → Option (Item S E)} {good : S → E → Bool} {s : S}
    {doc : List α} :
    firstBad item good s doc = none ↔
      (∀ line ∈ doc, (item line).isSome) ∧ (∀ e ∈ lead (doc.filterMap item), good s e) ∧
        ∀ seg ∈ segments (doc.filterMap item), ∀ e ∈ seg.entries, good seg.sect e := by
  induction doc generalizing s with
  | nil => simp [firstBad, lead, segments]
  | cons line rest ih =>
    cases kind : item line with
    | none => simp [firstBad, kind]
    | some it =>
      cases it with
      | header s' => simp [firstBad, kind, ih, lead, segments]
      | entry e =>
        by_cases fits : good s e
        · simp [firstBad, kind, fits, ih, lead, segments]
        · simp [firstBad, kind, fits, lead]

/-- What a reader does with each kind of line. `Holds` says what it keeps of the segments before
the current one and of that. -/
structure Reads (item : α → Option (Item S E)) (good : S → E → Bool) (read : σ → α → Except ε σ)
    (rejects : α → ε → Prop) (Holds : σ → List (Segment S E) → Segment S E → Prop) : Prop where
  header : ∀ st before current line s, Holds st before current → item line = some (.header s) →
    ∃ st', read st line = .ok st' ∧ Holds st' (before ++ [current]) ⟨s, []⟩
  entry : ∀ st before current line e, Holds st before current → item line = some (.entry e) →
    good current.sect e = true →
      ∃ st', read st line = .ok st' ∧ Holds st' before ⟨current.sect, current.entries ++ [e]⟩
  misplaced : ∀ st before current line e, Holds st before current →
    item line = some (.entry e) → good current.sect e = false →
      ∃ err, read st line = .error err ∧ rejects line err
  other : ∀ st before current line, Holds st before current → item line = none →
    ∃ err, read st line = .error err ∧ rejects line err

variable {item : α → Option (Item S E)} {good : S → E → Bool} {read : σ → α → Except ε σ}
  {rejects : α → ε → Prop} {Holds : σ → List (Segment S E) → Segment S E → Prop}

/-- The first line out of place is the one that stops the reader. -/
theorem Reads.run_bad (reads : Reads item good read rejects Holds) {st : σ}
    {before : List (Segment S E)} {current : Segment S E} (holds : Holds st before current)
    {doc : List α} {line : α} (bad : firstBad item good current.sect doc = some line) :
    ∃ err, doc.foldlM read st = .error err ∧ rejects line err := by
  induction doc generalizing st before current with
  | nil => cases bad
  | cons first rest ih =>
    rw [List.foldlM_cons]
    cases kind : item first with
    | none =>
      obtain ⟨err, stopped, why⟩ := reads.other st before current first holds kind
      simp only [firstBad, kind, Option.some.injEq] at bad
      exact ⟨err, by rw [stopped]; rfl, bad ▸ why⟩
    | some it =>
      cases it with
      | header s =>
        obtain ⟨st', done, holds'⟩ := reads.header st before current first s holds kind
        simp only [firstBad, kind] at bad
        rw [done]
        exact ih holds' bad
      | entry e =>
        by_cases fits : good current.sect e
        · obtain ⟨st', done, holds'⟩ := reads.entry st before current first e holds kind fits
          simp only [firstBad, kind, fits, ↓reduceIte] at bad
          rw [done]
          exact ih holds' bad
        · obtain ⟨err, stopped, why⟩ :=
            reads.misplaced st before current first e holds kind (by simpa using fits)
          simp only [firstBad, kind, fits, Bool.false_eq_true, ↓reduceIte, Option.some.injEq] at bad
          exact ⟨err, by rw [stopped]; rfl, bad ▸ why⟩

/-- With every line in place, the reader ends with all segments. -/
theorem Reads.run_good (reads : Reads item good read rejects Holds) {st : σ}
    {before : List (Segment S E)} {current : Segment S E} (holds : Holds st before current)
    {doc : List α} (clean : firstBad item good current.sect doc = none) :
    ∃ st' before' current', doc.foldlM read st = .ok st' ∧ Holds st' before' current' ∧
      before' ++ [current'] = before ++
        ⟨current.sect, current.entries ++ lead (doc.filterMap item)⟩ ::
          segments (doc.filterMap item) := by
  induction doc generalizing st before current with
  | nil => exact ⟨st, before, current, rfl, holds, by simp [lead, segments]⟩
  | cons first rest ih =>
    rw [List.foldlM_cons]
    cases kind : item first with
    | none => simp [firstBad, kind] at clean
    | some it =>
      cases it with
      | header s =>
        obtain ⟨st', done, holds'⟩ := reads.header st before current first s holds kind
        simp only [firstBad, kind] at clean
        obtain ⟨last, before', current', ran, holds'', whole⟩ := ih holds' clean
        refine ⟨last, before', current', by rw [done]; exact ran, holds'', ?_⟩
        simpa [kind, lead, segments] using whole
      | entry e =>
        by_cases fits : good current.sect e
        · obtain ⟨st', done, holds'⟩ := reads.entry st before current first e holds kind fits
          simp only [firstBad, kind, fits, ↓reduceIte] at clean
          obtain ⟨last, before', current', ran, holds'', whole⟩ := ih holds' clean
          refine ⟨last, before', current', by rw [done]; exact ran, holds'', ?_⟩
          simpa [kind, lead, segments] using whole
        · simp [firstBad, kind, fits] at clean

end FerroWg.Lib.Sections
