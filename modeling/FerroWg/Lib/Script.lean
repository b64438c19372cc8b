import FerroWg.Lib.Run
import Mathlib.Logic.Function.Basic

/-!
# Programs of atomic steps

A step reads the state and changes it at once, and its label says which step it is. A program
alone is judged by every state it can be stopped in; several over one state take turns.
-/

namespace FerroWg.Lib

/-- What comes after a step depends on the state the step found. -/
inductive Script (L S R : Type) where
  | done (result : R)
  | step (label : L) (change : S → S) (rest : S → Script L S R)

namespace Script

variable {L S R T : Type}

def bind : Script L S R → (R → Script L S T) → Script L S T
  | done result, next => next result
  | step label change rest, next => step label change fun s => (rest s).bind next

def run : Script L S R → S → S × R
  | done result, s => (s, result)
  | step _ change rest, s => (rest s).run (change s)

/-- The states before the first step, between any two, and after the last. -/
def stops : Script L S R → S → List S
  | done _, s => [s]
  | step _ change rest, s => s :: (rest s).stops (change s)

theorem run_bind (program : Script L S R) (next : R → Script L S T) (s : S) :
    (program.bind next).run s = (next (program.run s).2).run (program.run s).1 := by
  induction program generalizing s with
  | done result => rfl
  | step label change rest ih => exact ih s (change s)

theorem bind_assoc {U : Type} (program : Script L S R) (next : R → Script L S T)
    (last : T → Script L S U) :
    (program.bind next).bind last = program.bind fun result => (next result).bind last := by
  induction program with
  | done result => rfl
  | step label change rest ih => exact congrArg (step label change) (funext ih)

/-- From `s`, every state on the way satisfies `crash` and the end satisfies `post`. -/
def Safely (crash : S → Prop) (post : S → R → Prop) : Script L S R → S → Prop
  | done result, s => crash s ∧ post s result
  | step _ change rest, s => crash s ∧ (rest s).Safely crash post (change s)

theorem safely_iff {crash : S → Prop} {post : S → R → Prop} {program : Script L S R} {s : S} :
    program.Safely crash post s ↔
      (∀ t ∈ program.stops s, crash t) ∧ post (program.run s).1 (program.run s).2 := by
  induction program generalizing s with
  | done result => simp [Safely, stops, run]
  | step label change rest ih => simp [Safely, stops, run, ih, and_assoc]

/-- The rule for two programs in a row. -/
theorem Safely.bind {crash : S → Prop} {middle : S → R → Prop} {post : S → T → Prop}
    {program : Script L S R} {next : R → Script L S T} {s : S}
    (first : program.Safely crash middle s)
    (second : ∀ t result, middle t result → (next result).Safely crash post t) :
    (program.bind next).Safely crash post s := by
  induction program generalizing s with
  | done result => exact second s result first.2
  | step label change rest ih => exact ⟨first.1, ih s first.2⟩

theorem Safely.mono {crash weaker : S → Prop} {post after : S → R → Prop}
    {program : Script L S R} {s : S} (safely : program.Safely crash post s)
    (states : ∀ t, crash t → weaker t) (results : ∀ t result, post t result → after t result) :
    program.Safely weaker after s := by
  rw [safely_iff] at safely ⊢
  exact ⟨fun t stop => states t (safely.1 t stop), results _ _ safely.2⟩

/-- Nothing the program can still find makes it succeed. -/
def Fails {E : Type} : Script L S (Except E R) → Prop
  | done result => ∀ value, result ≠ .ok value
  | step _ _ rest => ∀ s, (rest s).Fails

/-- In a bad state the program cannot succeed, and it leaves the state bad. -/
def StuckIn {E : Type} (bad : S → Prop) : Script L S (Except E R) → Prop
  | done result => ∀ value, result ≠ .ok value
  | step _ change rest => ∀ s, bad s → bad (change s) ∧ (rest s).StuckIn bad

end Script

/-- Several programs over one state, and the steps they have taken so far. -/
structure Shared (P L S R : Type) where
  state : S
  programs : P → Script L S R
  trace : List (P × L)

namespace Shared

variable {P L S R : Type} [DecidableEq P]

/-- Whose turn it is decides the step. -/
def advance (shared : Shared P L S R) (party : P) : Option (Shared P L S R) :=
  match shared.programs party with
  | .done _ => none
  | .step label change rest => some {
      state := change shared.state
      programs := Function.update shared.programs party (rest shared.state)
      trace := shared.trace ++ [(party, label)] }

def Finished (shared : Shared P L S R) (results : P → R) : Prop :=
  ∀ party, shared.programs party = .done (results party)

def result (shared : Shared P L S R) (party : P) : Option R :=
  match shared.programs party with
  | .done result => some result
  | .step _ _ _ => none

omit [DecidableEq P] in
theorem finished_iff {shared : Shared P L S R} {results : P → R} :
    shared.Finished results ↔ ∀ party, shared.result party = some (results party) := by
  refine forall_congr' fun party => ?_
  unfold result
  cases shared.programs party <;> simp

theorem advance_cases {shared next : Shared P L S R} {party : P}
    (taken : shared.advance party = some next) :
    ∃ label change rest, shared.programs party = .step label change rest ∧
      next = ⟨change shared.state, Function.update shared.programs party (rest shared.state),
        shared.trace ++ [(party, label)]⟩ := by
  rw [advance] at taken
  split at taken
  · cases taken
  · rename_i label change rest program
    exact ⟨label, change, rest, program, (Option.some.inj taken).symm⟩

/-- Nobody gets out of a state that is bad for everybody. -/
theorem stuckIn_of_run {E : Type} {bad : S → Prop} {start final : Shared P L S (Except E R)}
    (stuck : ∀ party, (start.programs party).StuckIn bad) (initial : bad start.state)
    {turns : List P} (reached : Lib.run advance turns start = some final) (party : P) :
    (final.programs party).StuckIn bad := by
  have preserved (shared : Shared P L S (Except E R)) (turn : P)
      (next : Shared P L S (Except E R))
      (here : bad shared.state ∧ ∀ party, (shared.programs party).StuckIn bad)
      (taken : shared.advance turn = some next) :
      bad next.state ∧ ∀ party, (next.programs party).StuckIn bad := by
    obtain ⟨label, change, rest, program, rfl⟩ := advance_cases taken
    have moved := here.2 turn
    rw [program] at moved
    refine ⟨(moved _ here.1).1, fun party => ?_⟩
    by_cases own : party = turn
    · subst own
      simpa using (moved _ here.1).2
    · simpa [own] using here.2 party
  exact (run_invariant preserved ⟨initial, stuck⟩ reached).2 party

end Shared

end FerroWg.Lib
