import Mathlib.Tactic.Common

/-!
# What a failing computation changes

Computations that keep the state they reached when they fail. A view of the state that each step
leaves alone is left alone by the whole, whether it ends well or not.
-/

namespace FerroWg.Lib

variable {σ β ε ε' α γ : Type}

/-- The state a computation leaves, however it ends. -/
def after (x : EStateM ε σ α) (s : σ) : σ :=
  match x.run s with
  | .ok _ s => s
  | .error _ s => s

/-- A failure that is passed over. -/
def passOver (x : EStateM ε σ α) (default : α) : EStateM ε' σ α := fun s =>
  match x.run s with
  | .ok a s => .ok a s
  | .error _ s => .ok default s

theorem run_passOver (x : EStateM ε σ α) (default : α) (s : σ) :
    (passOver x default : EStateM ε' σ α).run s =
      match x.run s with
      | .ok a s => .ok a s
      | .error _ s => .ok default s := rfl

theorem run_map (f : α → γ) (x : EStateM ε σ α) (s : σ) :
    (f <$> x).run s =
      match x.run s with
      | .ok a s => .ok (f a) s
      | .error e s => .error e s := by
  simp only [Functor.map, EStateM.run, EStateM.map]
  cases x s <;> rfl

theorem after_of_ok {x : EStateM ε σ α} {s t : σ} {a : α} (ran : x.run s = .ok a t) :
    after x s = t := by
  rw [after, ran]

theorem after_of_error {x : EStateM ε σ α} {s t : σ} {e : ε} (ran : x.run s = .error e t) :
    after x s = t := by
  rw [after, ran]

@[simp] theorem after_passOver (x : EStateM ε σ α) (default : α) (s : σ) :
    after (passOver x default : EStateM ε' σ α) s = after x s := by
  simp only [after, EStateM.run, passOver]
  cases x s <;> rfl

theorem after_bind_of_ok {x : EStateM ε σ α} {s t : σ} {a : α} (ran : x.run s = .ok a t)
    (f : α → EStateM ε σ γ) : after (x >>= f) s = after (f a) t := by
  simp only [after, EStateM.run_bind, ran]

theorem after_bind_of_error {x : EStateM ε σ α} {s t : σ} {e : ε} (ran : x.run s = .error e t)
    (f : α → EStateM ε σ γ) : after (x >>= f) s = t := by
  simp only [after, EStateM.run_bind, ran]

theorem after_passOver_bind (x : EStateM ε σ Unit) (f : Unit → EStateM ε' σ α) (s : σ) :
    after (passOver x () >>= f) s = after (f ()) (after x s) := by
  refine after_bind_of_ok ?_ f
  rw [run_passOver, after]
  cases x.run s <;> rfl

/-- What `view` shows of the state is left alone. -/
def Leaves (view : σ → β) (x : EStateM ε σ α) : Prop := ∀ s, view (after x s) = view s

namespace Leaves

variable {view : σ → β}

theorem pure (a : α) : Leaves view (pure a : EStateM ε σ α) := fun _ => rfl

theorem throw (e : ε) : Leaves view (throw e : EStateM ε σ α) := fun _ => rfl

theorem get : Leaves view (get : EStateM ε σ σ) := fun _ => rfl

theorem modify {f : σ → σ} (same : ∀ s, view (f s) = view s) :
    Leaves view (modify f : EStateM ε σ PUnit) := fun s => same s

theorem bind {x : EStateM ε σ α} {f : α → EStateM ε σ γ} (first : Leaves view x)
    (second : ∀ a, Leaves view (f a)) : Leaves view (x >>= f) := by
  intro s
  have start := first s
  simp only [after, EStateM.run_bind] at start ⊢
  cases ran : x.run s with
  | error e t => simpa [ran] using start
  | ok a t =>
    rw [ran] at start
    exact (second a t).trans start

/-- A view of a view. -/
theorem comp {δ : Type} {x : EStateM ε σ α} (leaves : Leaves view x) (g : β → δ) :
    Leaves (fun s => g (view s)) x := fun s => congrArg g (leaves s)

theorem map {x : EStateM ε σ α} (f : α → γ) (leaves : Leaves view x) : Leaves view (f <$> x) := by
  intro s
  have here := leaves s
  simp only [after, run_map] at here ⊢
  cases ran : x.run s <;> simpa [ran] using here

theorem forM {l : List γ} {f : γ → EStateM ε σ PUnit} (each : ∀ c ∈ l, Leaves view (f c)) :
    Leaves view (l.forM f) := by
  induction l with
  | nil => exact .pure _
  | cons c rest ih =>
    rw [List.forall_mem_cons] at each
    exact each.1.bind fun _ => ih each.2

theorem passOver {x : EStateM ε σ α} (leaves : Leaves view x) (default : α) :
    Leaves view (Lib.passOver x default : EStateM ε' σ α) := by
  intro s
  rw [after_passOver, leaves s]

end Leaves

/-- Whether the computation ends well is decided by `p`, whatever state it starts in. -/
def Decided (p : Prop) (x : EStateM ε σ α) : Prop :=
  ∀ s, (p ∧ ∃ a t, x.run s = .ok a t) ∨ (¬ p ∧ ∃ e t, x.run s = .error e t)

namespace Decided

variable {p q : Prop}

theorem pure (a : α) : Decided True (pure a : EStateM ε σ α) := fun s => .inl ⟨trivial, a, s, rfl⟩

theorem throw (e : ε) : Decided False (throw e : EStateM ε σ α) := fun s => .inr ⟨id, e, s, rfl⟩

theorem modify (f : σ → σ) : Decided True (modify f : EStateM ε σ PUnit) := fun s =>
  .inl ⟨trivial, ⟨⟩, f s, rfl⟩

theorem congr {x : EStateM ε σ α} (decided : Decided p x) (same : p ↔ q) : Decided q x := by
  intro s
  simpa only [same] using decided s

theorem bind {x : EStateM ε σ α} {f : α → EStateM ε σ γ} (first : Decided p x)
    (second : ∀ a, Decided q (f a)) : Decided (p ∧ q) (x >>= f) := by
  intro s
  simp only [EStateM.run_bind]
  rcases first s with ⟨holds, a, t, ran⟩ | ⟨fails, e, t, ran⟩ <;> rw [ran]
  · rcases second a t with ⟨holds', b, u, ran'⟩ | ⟨fails', e, u, ran'⟩
    · exact .inl ⟨⟨holds, holds'⟩, b, u, ran'⟩
    · exact .inr ⟨fun both => fails' both.2, e, u, ran'⟩
  · exact .inr ⟨fun both => fails both.1, e, t, rfl⟩

theorem forM {p : γ → Prop} {l : List γ} {f : γ → EStateM ε σ PUnit}
    (each : ∀ c ∈ l, Decided (p c) (f c)) : Decided (∀ c ∈ l, p c) (l.forM f) := by
  induction l with
  | nil => exact (Decided.pure PUnit.unit).congr (by simp)
  | cons c rest ih =>
    rw [List.forall_mem_cons] at each
    exact (each.1.bind fun _ => ih each.2).congr (by simp)

end Decided

end FerroWg.Lib
