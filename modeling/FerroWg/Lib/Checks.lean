import Mathlib.Tactic.Common

/-!
# Sequences of checks

A Rust loop that leaves with `?` at the first failing element is `forM` in `Except`.
-/

namespace FerroWg.Lib

variable {ε α β : Type}

theorem bind_eq_ok {x : Except ε α} {f : α → Except ε β} {b : β} :
    (x >>= f) = .ok b ↔ ∃ a, x = .ok a ∧ f a = .ok b := by
  cases x <;> simp [bind, Except.bind]

/-- A check followed by the rest of a body. -/
theorem then_eq_ok {x : Except ε Unit} {f : Unit → Except ε β} {b : β} :
    (x >>= f) = .ok b ↔ x = .ok () ∧ f () = .ok b := by
  cases x <;> simp [bind, Except.bind]

theorem isOk_iff {x : Except ε Unit} : x.isOk = true ↔ x = .ok () := by
  cases x <;> simp [Except.isOk, Except.toBool]

theorem mapError_eq_ok {ε' : Type} {x : Except ε α} {f : ε → ε'} {a : α} :
    x.mapError f = .ok a ↔ x = .ok a := by
  cases x <;> simp [Except.mapError]

/-- A loop of checks passes when each check does. -/
theorem forM_eq_ok {l : List α} {f : α → Except ε Unit} :
    forM l f = .ok () ↔ ∀ a ∈ l, f a = .ok () := by
  induction l with
  | nil => simp [pure, Except.pure]
  | cons a rest ih =>
    rw [List.forM_cons, then_eq_ok, ih]
    simp

/-- A fold that leaves at the first failing element, and an invariant of its body. -/
theorem foldlM_invariant {σ : Type} {inv : σ → Prop} {f : σ → α → Except ε σ}
    (kept : ∀ s a next, inv s → f s a = .ok next → inv next)
    {l : List α} {s final : σ} (initial : inv s) (done : l.foldlM f s = .ok final) :
    inv final := by
  induction l generalizing s with
  | nil => cases done; exact initial
  | cons a rest ih =>
    rw [List.foldlM_cons, bind_eq_ok] at done
    obtain ⟨middle, first, later⟩ := done
    exact ih (kept s a middle initial first) later

/-- A mapping that leaves at the first failing element answers element by element. -/
theorem mapM_eq_ok {f : α → Except ε β} {l : List α} {out : List β} :
    l.mapM f = .ok out ↔ List.Forall₂ (fun a b => f a = .ok b) l out := by
  induction l generalizing out with
  | nil =>
    constructor
    · rintro ⟨⟩; exact .nil
    · rintro ⟨⟩; rfl
  | cons a rest ih =>
    rw [List.mapM_cons, bind_eq_ok]
    constructor
    · rintro ⟨b, first, later⟩
      obtain ⟨bs, mapped, whole⟩ := bind_eq_ok.mp later
      cases whole
      exact .cons first (ih.mp mapped)
    · rintro (_ | ⟨first, later⟩)
      exact ⟨_, first, bind_eq_ok.mpr ⟨_, ih.mpr later, rfl⟩⟩

end FerroWg.Lib
