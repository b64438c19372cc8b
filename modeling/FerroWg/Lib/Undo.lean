import Mathlib.Logic.Function.Basic

/-!
# Undo records over a shared setting

Several owners change one setting in turn. Each takes down the value it found, and gives it back
only when it is the last to hold a record; before that a record is dropped unused. A history of
the changes since the setting was last free tells whether what comes back is the original.
-/

namespace FerroWg.Lib.Undo

variable {N V : Type} [DecidableEq N]

/-- A setting, and the holders of records with the value each would write back. The record of a
holder that left the setting alone is empty. -/
@[ext] structure Ledger (N V : Type) where
  value : V
  records : N → Option (Option V)

inductive Op (N V : Type) where
  | keep
  | acquire (n : N) (change : Option (V → V))
  | release (n : N)
  | stray (change : Option (V → V))

/-- The newest change first, with its owner; a stray change has none. -/
abbrev History (N V : Type) := List (Option N × Option (V → V))

def applied (change : Option (V → V)) (v : V) : V := change.elim v fun f => f v

/-- The value that a history of changes leaves of an original. -/
def shown (history : History N V) (original : V) : V :=
  history.foldr (fun entry v => applied entry.2 v) original

def Ledger.Free (l : Ledger N V) : Prop := ∀ n, l.records n = none

def Ledger.without (l : Ledger N V) (n : N) : Ledger N V :=
  { l with records := Function.update l.records n none }

open Classical in
/-- `read` is what of a value a record can take down. -/
noncomputable def Ledger.step (read : V → V) (l : Ledger N V) : Op N V → Ledger N V
  | .keep => l
  | .acquire n change =>
    ⟨applied change l.value, Function.update l.records n (some (change.map fun _ => read l.value))⟩
  | .release n =>
    { l.without n with
      value := if (l.without n).Free then (l.records n).join.getD l.value else l.value }
  | .stray change => { l with value := applied change l.value }

open Classical in
noncomputable def note (l : Ledger N V) (op : Op N V) (history : History N V) : History N V :=
  match op with
  | .keep => history
  | .acquire n change => (some n, change) :: history
  | .release n => if l.records n ≠ none ∧ (l.without n).Free then [] else history
  | .stray change => (none, change) :: history

/-- The record of `n` leads back to the original: what was shown when `n` made its change, or
what is shown now when it made none. -/
def Unwinds (read : V → V) (original : V) (n : N) (history : History N V) : Prop :=
  match history.dropWhile fun entry => entry.1 ≠ some n with
  | [] => True
  | (_, some _) :: older => read (shown older original) = original
  | (_, none) :: _ => shown history original = original

/-- What an operation has to meet for the original to come back. -/
def Sound (read : V → V) (original : V) (l : Ledger N V) (history : History N V) : Op N V → Prop
  | .keep | .acquire .. => True
  | .release n => l.records n ≠ none → (l.without n).Free → Unwinds read original n history
  | .stray change => l.Free → applied change original = original

def Restored (original : V) (l : Ledger N V) : Prop := l.Free → l.value = original

/-- A record stems from the newest change of its owner. -/
def Stems (read : V → V) (original : V) (history : History N V) (n : N) (record : Option V) : Prop :=
  ∃ newer change older, history = newer ++ (some n, change) :: older ∧
    (∀ entry ∈ newer, entry.1 ≠ some n) ∧ record = change.map fun _ => read (shown older original)

structure Traced (read : V → V) (original : V) (l : Ledger N V) (history : History N V) : Prop where
  value : l.value = shown history original
  records : ∀ n record, l.records n = some record → Stems read original history n record

variable {read : V → V} {original : V} {l : Ledger N V} {history : History N V} {n : N}

omit [DecidableEq N] in
theorem Stems.cons {record : Option V} (stems : Stems read original history n record)
    {entry : Option N × Option (V → V)} (other : entry.1 ≠ some n) :
    Stems read original (entry :: history) n record := by
  obtain ⟨newer, change, older, rfl, newest, same⟩ := stems
  refine ⟨entry :: newer, change, older, rfl, fun e member => ?_, same⟩
  rcases List.mem_cons.mp member with rfl | member
  · exact other
  · exact newest e member

theorem Stems.unwinds {record : Option V} (stems : Stems read original history n record) :
    Unwinds read original n history ↔ record.getD (shown history original) = original := by
  obtain ⟨newer, change, older, rfl, newest, rfl⟩ := stems
  have found : (newer ++ (some n, change) :: older).dropWhile (fun entry => entry.1 ≠ some n) =
      (some n, change) :: older := by
    rw [List.dropWhile_append_of_pos (by simpa using newest), List.dropWhile_cons_of_neg (by simp)]
  rw [Unwinds]
  rw [found]
  cases change <;> rfl

omit [DecidableEq N] in
theorem Traced.initial (read : V → V) (free : l.Free) : Traced read l.value l [] :=
  ⟨rfl, fun n record there => by rw [free n] at there; cases there⟩

theorem Ledger.without_of_none (none : l.records n = none) : l.without n = l := by
  rw [Ledger.without, ← none, Function.update_eq_self]

theorem step_release_of_none (none : l.records n = none) : l.step read (.release n) = l := by
  simp [Ledger.step, Ledger.without_of_none none, none]

/-- One operation brings the original back exactly when it is sound. -/
theorem restored_step_iff (traced : Traced read original l history) (restored : Restored original l)
    (op : Op N V) : Restored original (l.step read op) ↔ Sound read original l history op := by
  cases op with
  | keep => exact iff_of_true restored trivial
  | acquire n change =>
    refine iff_of_true (fun free => ?_) trivial
    have held := free n
    simp [Ledger.step] at held
  | stray change =>
    constructor
    · intro still free
      have changed : applied change l.value = original := still free
      rwa [restored free] at changed
    · intro sound free
      have back : l.value = original := restored free
      exact (congrArg (applied change) back).trans (sound free)
  | release n =>
    cases record : l.records n with
    | none =>
      rw [step_release_of_none record]
      exact iff_of_true restored fun held => absurd record held
    | some record' =>
      have stems := traced.records n record' record
      simp only [Restored, Sound, record, ne_eq, reduceCtorEq, not_false_eq_true, true_imp_iff]
      refine imp_congr_right fun free => ?_
      have last : (l.without n).Free := free
      rw [stems.unwinds, ← traced.value]
      simp [Ledger.step, last, record]

/-- As long as the original came back every time, the history accounts for the setting. -/
theorem traced_step (traced : Traced read original l history) (op : Op N V)
    (restored : Restored original (l.step read op)) :
    Traced read original (l.step read op) (note l op history) := by
  cases op with
  | keep => exact traced
  | acquire n change =>
    refine ⟨congrArg (applied change) traced.value, fun m record there => ?_⟩
    by_cases same : m = n
    · subst same
      simp only [Ledger.step, Function.update_self, Option.some.injEq] at there
      exact ⟨[], change, history, rfl, nofun, by rw [← there, traced.value]⟩
    · simp only [Ledger.step, Function.update_of_ne same] at there
      exact (traced.records m record there).cons (by simpa using Ne.symm same)
  | stray change =>
    exact ⟨congrArg (applied change) traced.value,
      fun m record there => (traced.records m record there).cons nofun⟩
  | release n =>
    have kept (m : N) (record : Option V) (there : (l.without n).records m = some record) :
        Stems read original history m record := by
      by_cases same : m = n
      · simp [Ledger.without, same] at there
      · simp only [Ledger.without, Function.update_of_ne same] at there
        exact traced.records m record there
    by_cases last : (l.without n).Free
    · by_cases held : l.records n = none
      · rw [step_release_of_none held]
        simpa [note, held] using traced
      · simp only [note, ne_eq, held, not_false_eq_true, last, and_self, if_true]
        exact ⟨restored last, fun m record there => by
          have none : (l.without n).records m = none := last m
          exact absurd there (by simp [Ledger.step, none])⟩
    · simp only [note, last, and_false, if_false]
      refine ⟨?_, kept⟩
      simpa [Ledger.step, last] using traced.value

/-- After one operation on a free setting, any record leads back to an original that reads as
itself. -/
theorem unwinds_note_nil (reads : read original = original) (op : Op N V) :
    Unwinds read original n (note l op []) := by
  cases op with
  | keep | stray => simp [note, Unwinds]
  | release m => simp [note, Unwinds]
  | acquire m change =>
    rcases eq_or_ne m n with rfl | other
    · cases change with
      | none => simp [note, Unwinds, shown, applied]
      | some f => simpa [note, Unwinds, shown] using reads
    · simp [note, Unwinds, other]

end FerroWg.Lib.Undo
