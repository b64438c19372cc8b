import Mathlib.Tactic.Common

/-!
# Runs of a partial deterministic step

A label carries everything the environment decides, so a step is a function. `none` is a
step that is not taken: the program panics there, or the label is no possible answer.
-/

namespace FerroWg.Lib

variable {S A G : Type}

/-- The state a list of labels leads to. -/
def run (step : S → A → Option S) : List A → S → Option S
  | [], s => some s
  | a :: rest, s => (step s a).bind (run step rest)

@[simp] theorem run_nil (step : S → A → Option S) (s : S) : run step [] s = some s := rfl

theorem run_cons (step : S → A → Option S) (a : A) (rest : List A) (s : S) :
    run step (a :: rest) s = (step s a).bind (run step rest) := rfl

theorem run_append (step : S → A → Option S) (first second : List A) (s : S) :
    run step (first ++ second) s = (run step first s).bind (run step second) := by
  induction first generalizing s with
  | nil => rfl
  | cons a rest ih =>
    simp only [List.cons_append, run_cons]
    cases step s a with
    | none => rfl
    | some next => exact ih next

/-- Every state the run visits satisfies `p`, the first and the last included. -/
def Always (step : S → A → Option S) (p : S → Prop) : List A → S → Prop
  | [], s => p s
  | a :: rest, s => p s ∧ ∀ next, step s a = some next → Always step p rest next

/-- Every step the run takes satisfies `cond`, which sees the state before it. -/
def Along (step : S → A → Option S) (cond : S → A → Prop) : List A → S → Prop
  | [], _ => True
  | a :: rest, s => ∀ next, step s a = some next → cond s a ∧ Along step cond rest next

theorem Always.head {step : S → A → Option S} {p : S → Prop} {labels : List A} {s : S}
    (h : Always step p labels s) : p s := by
  cases labels with
  | nil => exact h
  | cons a rest => exact h.1

theorem Always.mono {step : S → A → Option S} {p q : S → Prop} (weaker : ∀ s, p s → q s)
    {labels : List A} {s : S} (h : Always step p labels s) : Always step q labels s := by
  induction labels generalizing s with
  | nil => exact weaker s h
  | cons a rest ih => exact ⟨weaker s h.1, fun next taken => ih (h.2 next taken)⟩

/-- `Always` is about the states after the prefixes of the run. -/
theorem always_iff_reached (step : S → A → Option S) (p : S → Prop) (labels : List A) (s : S) :
    Always step p labels s ↔
      ∀ done rest, labels = done ++ rest → ∀ next, run step done s = some next → p next := by
  induction labels generalizing s with
  | nil =>
    constructor
    · intro h done rest split next reached
      obtain ⟨rfl, rfl⟩ := List.append_eq_nil_iff.mp split.symm
      cases reached
      exact h
    · intro h
      exact h [] [] rfl s rfl
  | cons a tail ih =>
    constructor
    · rintro ⟨here, later⟩ done rest split next reached
      cases done with
      | nil => cases reached; exact here
      | cons b done =>
        obtain ⟨rfl, rfl⟩ := List.cons.inj split
        rw [run_cons] at reached
        cases taken : step s a with
        | none => simp [taken] at reached
        | some middle =>
          rw [taken] at reached
          exact (ih middle).mp (later middle taken) done rest rfl next reached
    · intro h
      refine ⟨h [] _ rfl s rfl, fun middle taken => (ih middle).mpr ?_⟩
      rintro done rest rfl next reached
      exact h (a :: done) rest rfl next (by rw [run_cons, taken]; exact reached)

/-- The state that a whole run ends in. -/
theorem Always.last {step : S → A → Option S} {p : S → Prop} {labels : List A} {s final : S}
    (h : Always step p labels s) (reached : run step labels s = some final) : p final :=
  (always_iff_reached step p labels s).mp h labels [] (List.append_nil _).symm final reached

/-- The run rule for an invariant that every step preserves. -/
theorem always_of_step {step : S → A → Option S} {inv : S → Prop}
    (preserved : ∀ s a next, inv s → step s a = some next → inv next)
    (labels : List A) {s : S} (initial : inv s) : Always step inv labels s := by
  induction labels generalizing s with
  | nil => exact initial
  | cons a rest ih => exact ⟨initial, fun next taken => ih (preserved s a next initial taken)⟩

theorem run_invariant {step : S → A → Option S} {inv : S → Prop}
    (preserved : ∀ s a next, inv s → step s a = some next → inv next)
    {labels : List A} {s final : S} (initial : inv s) (reached : run step labels s = some final) :
    inv final :=
  (always_of_step preserved labels initial).last reached

/-- The run rule for an invariant that the steps of a run preserve under a condition. -/
theorem always_of_along {step : S → A → Option S} {inv : S → Prop} {cond : S → A → Prop}
    {labels : List A}
    (preserved : ∀ a ∈ labels, ∀ s next, inv s → cond s a → step s a = some next → inv next)
    {s : S} (initial : inv s) (along : Along step cond labels s) : Always step inv labels s := by
  induction labels generalizing s with
  | nil => exact initial
  | cons a rest ih =>
    rw [List.forall_mem_cons] at preserved
    refine ⟨initial, fun next taken => ih preserved.2 ?_ (along next taken).2⟩
    exact preserved.1 s next initial (along next taken).1 taken

theorem run_of_along {step : S → A → Option S} {inv : S → Prop} {cond : S → A → Prop}
    {labels : List A}
    (preserved : ∀ a ∈ labels, ∀ s next, inv s → cond s a → step s a = some next → inv next)
    {s final : S} (initial : inv s) (along : Along step cond labels s)
    (reached : run step labels s = some final) : inv final :=
  (always_of_along preserved initial along).last reached

/-- The run rule for a property that a step keeps exactly when it meets a condition:
`base` is what holds as long as the property does, and is all the two directions may use. -/
theorem always_iff_along {step : S → A → Option S} {base p : S → Prop} {cond : S → A → Prop}
    {labels : List A}
    (kept : ∀ a ∈ labels, ∀ s next, base s → step s a = some next → p next → base next)
    (exact : ∀ a ∈ labels, ∀ s next, base s → p s → step s a = some next → (p next ↔ cond s a))
    {s : S} (initial : base s) (holds : p s) : Always step p labels s ↔ Along step cond labels s := by
  induction labels generalizing s with
  | nil => exact ⟨fun _ => trivial, fun _ => holds⟩
  | cons a rest ih =>
    rw [List.forall_mem_cons] at kept exact
    constructor
    · rintro ⟨_, later⟩ next taken
      have good := (later next taken).head
      exact ⟨(exact.1 s next initial holds taken).mp good,
        (ih kept.2 exact.2 (kept.1 s next initial taken good) good).mp (later next taken)⟩
    · intro h
      refine ⟨holds, fun next taken => ?_⟩
      have good := (exact.1 s next initial holds taken).mpr (h next taken).1
      exact (ih kept.2 exact.2 (kept.1 s next initial taken good) good).mpr (h next taken).2

/-- The same for a property that is all the two directions need. -/
theorem always_iff_of_step {step : S → A → Option S} {p : S → Prop} {cond : S → A → Prop}
    (exact : ∀ s a next, p s → step s a = some next → (p next ↔ cond s a)) (labels : List A)
    {s : S} (holds : p s) : Always step p labels s ↔ Along step cond labels s :=
  always_iff_along (fun _ _ _ _ _ _ good => good)
    (fun a _ s next _ before taken => exact s a next before taken) holds holds

/-- The same where all the states that the run visits are known to satisfy `visited`. -/
theorem always_iff_of_always {step : S → A → Option S} {visited p : S → Prop}
    {cond : S → A → Prop}
    (exact : ∀ s a next, visited s → p s → step s a = some next → visited next →
      (p next ↔ cond s a))
    {labels : List A} {s : S} (visits : Always step visited labels s) (holds : p s) :
    Always step p labels s ↔ Along step cond labels s := by
  induction labels generalizing s with
  | nil => exact ⟨fun _ => trivial, fun _ => holds⟩
  | cons a rest ih =>
    obtain ⟨here, later⟩ := visits
    have step_iff (next : S) (taken : step s a = some next) : p next ↔ cond s a :=
      exact s a next here holds taken (later next taken).head
    constructor
    · rintro ⟨_, good⟩ next taken
      have held := (good next taken).head
      exact ⟨(step_iff next taken).mp held, (ih (later next taken) held).mp (good next taken)⟩
    · intro along
      refine ⟨holds, fun next taken => ?_⟩
      obtain ⟨met, rest⟩ := along next taken
      have held := (step_iff next taken).mpr met
      exact (ih (later next taken) held).mpr rest

/-- Two conditions that agree wherever an invariant holds. -/
theorem along_congr {step : S → A → Option S} {base : S → Prop} {cond cond' : S → A → Prop}
    (kept : ∀ s a next, base s → step s a = some next → base next)
    (same : ∀ s a next, base s → step s a = some next → (cond s a ↔ cond' s a))
    (labels : List A) {s : S} (initial : base s) :
    Along step cond labels s ↔ Along step cond' labels s := by
  induction labels generalizing s with
  | nil => rfl
  | cons a rest ih =>
    refine forall_congr' fun next => imp_congr_right fun taken => ?_
    exact and_congr (same s a next initial taken) (ih (kept s a next initial taken))

theorem along_of_forall {step : S → A → Option S} {cond : S → A → Prop}
    (every : ∀ s a, cond s a) (labels : List A) (s : S) : Along step cond labels s := by
  induction labels generalizing s with
  | nil => trivial
  | cons a rest ih => exact fun next _ => ⟨every s a, ih next⟩

/-- A condition on a step that the states before and after it bear out. -/
theorem along_of_always {step : S → A → Option S} {p : S → Prop} {cond : S → A → Prop}
    (each : ∀ s a next, p s → step s a = some next → p next → cond s a) {labels : List A} {s : S}
    (h : Always step p labels s) : Along step cond labels s := by
  induction labels generalizing s with
  | nil => trivial
  | cons a rest ih =>
    obtain ⟨here, later⟩ := h
    exact fun next taken => ⟨each s a next here taken (later next taken).head, ih (later next taken)⟩

/-- A condition on the labels alone. -/
theorem along_of_mem (step : S → A → Option S) {cond : A → Prop} {labels : List A}
    (every : ∀ a ∈ labels, cond a) (s : S) : Along step (fun _ => cond) labels s := by
  induction labels generalizing s with
  | nil => trivial
  | cons a rest ih =>
    rw [List.forall_mem_cons] at every
    exact fun next _ => ⟨every.1, ih every.2 next⟩

/-- A condition that another one implies wherever an invariant holds. -/
theorem Along.strengthen {step : S → A → Option S} {p : S → Prop} {cond cond' : S → A → Prop}
    (each : ∀ s a, p s → cond s a → cond' s a) {labels : List A} {s : S}
    (always : Always step p labels s) (along : Along step cond labels s) :
    Along step cond' labels s := by
  induction labels generalizing s with
  | nil => trivial
  | cons a rest ih =>
    obtain ⟨here, later⟩ := always
    intro next taken
    obtain ⟨met, more⟩ := along next taken
    exact ⟨each s a here met, ih (later next taken) more⟩

/-- A run of steps that are runs of another system, seen from there. -/
theorem run_simulated {T B : Type} {step : S → A → Option S} {fine : T → B → Option T} {f : S → T}
    (each : ∀ s a next, step s a = some next → ∃ bs, run fine bs (f s) = some (f next))
    {labels : List A} {s final : S} (reached : run step labels s = some final) :
    ∃ bs, run fine bs (f s) = some (f final) := by
  induction labels generalizing s with
  | nil =>
    cases reached
    exact ⟨[], rfl⟩
  | cons a rest ih =>
    obtain ⟨next, taken, later⟩ := Option.bind_eq_some_iff.mp reached
    obtain ⟨first, there⟩ := each s a next taken
    obtain ⟨second, last⟩ := ih later
    exact ⟨first ++ second, by rw [run_append, there, Option.bind_some, last]⟩

/-- Two systems that keep together step by step keep together over a run. -/
theorem run_related {T : Type} {step : S → A → Option S} {other : T → A → Option T}
    {related : S → T → Prop} {labels : List A}
    (each : ∀ a ∈ labels, ∀ s t, related s t → Option.Rel related (step s a) (other t a))
    {s : S} {t : T} (initial : related s t) :
    Option.Rel related (run step labels s) (run other labels t) := by
  induction labels generalizing s t with
  | nil => exact .some initial
  | cons a rest ih =>
    rw [List.forall_mem_cons] at each
    rw [run_cons, run_cons]
    have now := each.1 s t initial
    generalize step s a = next, other t a = next' at now
    cases now with
    | none => exact .none
    | some later => exact ih each.2 later

/-- A step that also maintains a ghost, which it never reads. -/
def instrument (step : S → A → Option S) (ghost : S → A → G → G) (s : S × G) (a : A) :
    Option (S × G) :=
  (step s.1 a).map fun next => (next, ghost s.1 a s.2)

theorem instrument_some {step : S → A → Option S} {ghost : S → A → G → G} {s t : S × G} {a : A} :
    instrument step ghost s a = some t ↔
      step s.1 a = some t.1 ∧ t.2 = ghost s.1 a s.2 := by
  rw [instrument]
  obtain ⟨next, g⟩ := t
  cases step s.1 a <;> simp [eq_comm]

/-- The ghost changes no run: forgetting it gives the run of the bare step. -/
theorem run_instrument (step : S → A → Option S) (ghost : S → A → G → G) (labels : List A)
    (s : S × G) : (run (instrument step ghost) labels s).map Prod.fst = run step labels s.1 := by
  induction labels generalizing s with
  | nil => rfl
  | cons a rest ih =>
    simp only [run_cons]
    cases taken : step s.1 a with
    | none => simp [instrument, taken]
    | some next => simpa [instrument, taken] using ih (next, ghost s.1 a s.2)

/-- A property that does not see the ghost is one of the bare run. -/
theorem always_instrument (step : S → A → Option S) (ghost : S → A → G → G) (p : S → Prop)
    (labels : List A) (s : S × G) :
    Always (instrument step ghost) (fun s => p s.1) labels s ↔ Always step p labels s.1 := by
  induction labels generalizing s with
  | nil => rfl
  | cons a rest ih =>
    refine and_congr_right fun _ => ⟨fun later next taken => ?_, fun later next taken => ?_⟩
    · exact (ih _).mp (later (next, ghost s.1 a s.2) (instrument_some.mpr ⟨taken, rfl⟩))
    · exact (ih next).mpr (later next.1 (instrument_some.mp taken).1)

/-- A condition that does not see the ghost is one on the bare run. -/
theorem along_instrument (step : S → A → Option S) (ghost : S → A → G → G)
    (cond : S → A → Prop) (labels : List A) (s : S × G) :
    Along (instrument step ghost) (fun s a => cond s.1 a) labels s ↔ Along step cond labels s.1 := by
  induction labels generalizing s with
  | nil => rfl
  | cons a rest ih =>
    constructor
    · intro h next taken
      have later := h (next, ghost s.1 a s.2) (instrument_some.mpr ⟨taken, rfl⟩)
      exact ⟨later.1, (ih _).mp later.2⟩
    · intro h next taken
      have later := h next.1 (instrument_some.mp taken).1
      exact ⟨later.1, (ih next).mpr later.2⟩

end FerroWg.Lib
