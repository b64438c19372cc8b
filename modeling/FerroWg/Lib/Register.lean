import FerroWg.Lib.Script

/-!
# Two clients of one register

A client looks at the register, commits what it made of the value, and announces that. No
lock keeps the two apart, so the outcome depends on which of them looked before the other
had committed.
-/

namespace FerroWg.Lib

inductive Side where
  | left
  | right
  deriving DecidableEq, Repr

namespace Side

def other : Side → Side
  | left => right
  | right => left

@[simp] theorem other_other (side : Side) : side.other.other = side := by cases side <;> rfl

@[simp] theorem other_ne (side : Side) : side.other ≠ side := by cases side <;> decide

theorem eq_or_other (side party : Side) : side = party ∨ side = party.other := by
  cases side <;> cases party <;> decide

end Side

/-- What a step does to the register: `aside` may at most write back what the client saw. -/
inductive Access where
  | look
  | aside
  | commit
  | announce
  deriving DecidableEq, Repr

/-- Which values a state shows, and which it has had announced. -/
structure Register (S V : Type) where
  shows : S → V → Prop
  announced : S → List V

inductive Stage (V : Type) where
  | looking
  | holding (seen : V)
  | committed (seen : V)
  | announced (seen : V)

namespace Stage

variable {V : Type}

def seen : Stage V → Option V
  | looking => none
  | holding seen | committed seen | announced seen => some seen

/-- What the client has made of the register, once it is there for others to see. -/
def value (update : V → V) : Stage V → Option V
  | looking | holding _ => none
  | committed seen | announced seen => some (update seen)

theorem seen_of_value {stage : Stage V} {update : V → V} {v : V}
    (made : stage.value update = some v) : ∃ seen, stage.seen = some seen ∧ v = update seen := by
  cases stage with
  | looking | holding => cases made
  | committed seen | announced seen => exact ⟨seen, rfl, (Option.some.inj made).symm⟩

end Stage

/-- Who has committed, whose last look came after the other's commit, and who was last. -/
structure Order where
  committed : Side → Bool
  fresh : Side → Bool
  lastCommit : Option Side
  lastAnnounce : Option Side

namespace Order

def start : Order := ⟨fun _ => false, fun _ => false, none, none⟩

def note (order : Order) (side : Side) : Access → Order
  | .look => { order with
      fresh := Function.update order.fresh side (order.committed side.other) }
  | .aside => order
  | .commit => { order with
      committed := Function.update order.committed side true
      lastCommit := some side }
  | .announce => { order with lastAnnounce := some side }

variable {L : Type}

/-- The order of the accesses in a trace. -/
def of (kind : L → Access) (trace : List (Side × L)) : Order :=
  trace.foldl (fun order taken => order.note taken.1 (kind taken.2)) start

theorem of_concat (kind : L → Access) (trace : List (Side × L)) (side : Side) (label : L) :
    of kind (trace ++ [(side, label)]) = (of kind trace).note side (kind label) := by
  simp [of]

end Order

variable {L S V E : Type}

/-- A program that either fails or goes through the stages of a client, in whatever state
each of its steps finds the register. -/
def Follows (register : Register S V) (kind : L → Access) (update : V → V) :
    Script L S (Except E V) → Stage V → Prop
  | .done result, stage => ∀ value, result = .ok value → stage.value update = some value
  | .step label change rest, stage => ∀ s, (rest s).Fails ∨
      match kind label, stage with
      | .look, .looking =>
        (∀ v, register.shows s v → register.shows (change s) v) ∧
          register.announced (change s) = register.announced s ∧
          ∀ v, register.shows s v → Follows register kind update (rest s) .looking ∨
            Follows register kind update (rest s) (.holding v)
      | .aside, .holding seen =>
        (∀ v, register.shows s v →
            register.shows (change s) v ∨ register.shows (change s) seen) ∧
          register.announced (change s) = register.announced s ∧
          Follows register kind update (rest s) (.holding seen)
      | .commit, .holding seen =>
        register.shows (change s) (update seen) ∧
          register.announced (change s) = register.announced s ∧
          Follows register kind update (rest s) (.committed seen)
      | .announce, .committed seen =>
        (∀ v, register.shows s v → register.shows (change s) v) ∧
          register.announced (change s) = register.announced s ++ [update seen] ∧
          Follows register kind update (rest s) (.announced seen)
      | _, _ => False

theorem Follows.of_fails {register : Register S V} {kind : L → Access} {update : V → V}
    {program : Script L S (Except E V)} {stage : Stage V} (fails : program.Fails) :
    Follows register kind update program stage := by
  cases program with
  | done result => exact fun v succeeds => absurd succeeds (fails v)
  | step label change rest => exact fun s => .inl (fails s)

/-- What holds between two clients that have not failed. -/
structure Consistent (register : Register S V) (updates : Side → V → V) (initial : V) (s : S)
    (order : Order) (stages : Side → Stage V) : Prop where
  committed : ∀ side, order.committed side = ((stages side).value (updates side)).isSome
  saw : ∀ side seen, (stages side).seen = some seen → if order.fresh side
    then (stages side.other).value (updates side.other) = some seen else seen = initial
  /-- A client that is still to look will see what the other committed, if it did. -/
  waiting : ∀ side, stages side = .looking →
    register.shows s (((stages side.other).value (updates side.other)).getD initial)
  lastCommit : ∀ side, order.lastCommit = some side → order.committed side.other →
    ∀ v, (stages side).value (updates side) = some v → register.shows s v
  someCommit : ∀ side, order.committed side → order.lastCommit.isSome
  announcer : ∀ side, order.lastAnnounce = some side → order.committed side
  lastAnnounce : (register.announced s).getLast? =
    order.lastAnnounce.bind fun side => (stages side).value (updates side)

namespace Consistent

variable {register : Register S V} {updates : Side → V → V} {initial : V} {s after : S}
  {order : Order} {stages : Side → Stage V}

theorem start (shown : register.shows s initial) (quiet : register.announced s = []) :
    Consistent register updates initial s Order.start fun _ => .looking where
  committed _ := rfl
  saw _ _ seen := by cases seen
  waiting _ _ := shown
  lastCommit _ last := by cases last
  someCommit _ committed := by cases committed
  announcer _ last := by cases last
  lastAnnounce := by simp [quiet, Order.start]

/-- A state that shows as much and has announced the same will do as well. -/
theorem of_state (consistent : Consistent register updates initial s order stages)
    (shows : ∀ v, register.shows s v → register.shows after v)
    (announced : register.announced after = register.announced s) :
    Consistent register updates initial after order stages :=
  { consistent with
    waiting := fun side looking => shows _ (consistent.waiting side looking)
    lastCommit := fun side last other v value =>
      shows v (consistent.lastCommit side last other v value)
    lastAnnounce := announced ▸ consistent.lastAnnounce }

/-- Stages with the same values, and in which nobody looks again. -/
theorem of_stages (consistent : Consistent register updates initial s order stages)
    {next : Side → Stage V}
    (values : ∀ side, (next side).value (updates side) = (stages side).value (updates side))
    (looking : ∀ side, next side = .looking → stages side = .looking)
    (saw : ∀ side seen, (next side).seen = some seen → if order.fresh side
      then (stages side.other).value (updates side.other) = some seen else seen = initial) :
    Consistent register updates initial s order next where
  committed side := values side ▸ consistent.committed side
  saw side seen found := values side.other ▸ saw side seen found
  waiting side waits := values side.other ▸ consistent.waiting side (looking side waits)
  lastCommit side last other v value :=
    consistent.lastCommit side last other v (values side ▸ value)
  someCommit := consistent.someCommit
  announcer := consistent.announcer
  lastAnnounce := by simpa only [values] using consistent.lastAnnounce

/-- Looking, and not being done with it. -/
theorem look_again (consistent : Consistent register updates initial s order stages)
    {party : Side} (looking : stages party = .looking) :
    Consistent register updates initial s (order.note party .look) stages :=
  { consistent with
    saw := by
      intro side seen found
      rcases side.eq_or_other party with rfl | rfl
      · rw [looking] at found
        cases found
      · simpa [Order.note] using consistent.saw _ seen found }

theorem look (consistent : Consistent register updates initial s order stages)
    {party : Side} (looking : stages party = .looking) :
    Consistent register updates initial s (order.note party .look)
      (Function.update stages party
        (.holding (((stages party.other).value (updates party.other)).getD initial))) := by
  have again := consistent.look_again looking
  apply again.of_stages
  · intro side
    obtain rfl | rfl := side.eq_or_other party <;> simp [looking, Stage.value]
  · intro side waits
    rcases side.eq_or_other party with rfl | rfl
    · simp at waits
    · simpa using waits
  · intro side seen found
    obtain rfl | rfl := side.eq_or_other party
    · -- what the last look sees is the other's value if there is one by now
      simp only [Function.update_self, Stage.seen, Option.some.injEq] at found
      simp only [Order.note, Function.update_self, consistent.committed]
      cases other : (stages side.other).value (updates side.other) with
      | none => simpa [other] using found.symm
      | some v => simpa [other] using found
    · exact again.saw _ seen (by simpa using found)

/-- A client that has seen the register has not seen the other's value before it was there. -/
theorem saw_initial (consistent : Consistent register updates initial s order stages)
    {side : Side} {seen : V} (found : (stages side).seen = some seen)
    (none : (stages side.other).value (updates side.other) = none) : seen = initial := by
  have saw := consistent.saw side seen found
  rw [none] at saw
  split at saw
  · cases saw
  · exact saw

theorem aside (consistent : Consistent register updates initial s order stages)
    {party : Side} {held : V} (holding : stages party = .holding held)
    (shows : ∀ v, register.shows s v → register.shows after v ∨ register.shows after held)
    (announced : register.announced after = register.announced s) :
    Consistent register updates initial after order stages :=
  { consistent with
    waiting := by
      intro side waits
      rcases side.eq_or_other party with rfl | rfl
      · simp [holding] at waits
      · have untouched := consistent.waiting _ waits
        simp only [Side.other_other, holding, Stage.value, Option.getD_none] at untouched ⊢
        rcases shows initial untouched with kept | back
        · exact kept
        · have saw : (stages party).seen = some held := by simp [holding, Stage.seen]
          have same := consistent.saw_initial saw (by simp [waits, Stage.value])
          exact same ▸ back
    lastCommit := by
      -- with one client still holding, not both have committed
      intro side last other v value
      rcases side.eq_or_other party with rfl | rfl
      · simp [holding, Stage.value] at value
      · rw [Side.other_other, consistent.committed, holding] at other
        cases other
    lastAnnounce := announced ▸ consistent.lastAnnounce }

theorem commit (consistent : Consistent register updates initial s order stages)
    {party : Side} {held : V} (holding : stages party = .holding held)
    (shown : register.shows after (updates party held))
    (announced : register.announced after = register.announced s) :
    Consistent register updates initial after (order.note party .commit)
      (Function.update stages party (.committed held)) where
  committed side := by
    rcases side.eq_or_other party with rfl | rfl
    · simp [Order.note, Stage.value]
    · simpa [Order.note] using consistent.committed party.other
  saw side seen found := by
    rcases side.eq_or_other party with rfl | rfl
    · simp only [Function.update_self, Stage.seen, Option.some.injEq] at found
      simpa [Order.note] using consistent.saw side seen (by simp [holding, Stage.seen, found])
    · -- the other looked before this commit
      have saw := consistent.saw party.other seen (by simpa using found)
      simp only [Side.other_other, holding, Stage.value, reduceCtorEq] at saw
      simp only [Order.note]
      split at saw
      · cases saw
      · rename_i stale
        simpa [stale] using saw
  waiting side waits := by
    obtain rfl | rfl := side.eq_or_other party
    · simp at waits
    · simpa [Stage.value] using shown
  lastCommit side last other v value := by
    obtain rfl : party = side := by simpa [Order.note] using last
    simp only [Function.update_self, Stage.value, Option.some.injEq] at value
    exact value ▸ shown
  someCommit side _ := rfl
  announcer side last := by
    have before := consistent.announcer side last
    obtain rfl | rfl := side.eq_or_other party <;> simp [Order.note, before]
  lastAnnounce := by
    rw [announced, consistent.lastAnnounce]
    cases last : order.lastAnnounce with
    | none => simp [Order.note, last]
    | some side =>
      have before := consistent.announcer side last
      rw [consistent.committed] at before
      obtain rfl | rfl := side.eq_or_other party
      · simp [holding, Stage.value] at before
      · simp [Order.note, last]

theorem announce (consistent : Consistent register updates initial s order stages)
    {party : Side} {held : V} (committed : stages party = .committed held)
    (shows : ∀ v, register.shows s v → register.shows after v)
    (announced : register.announced after = register.announced s ++ [updates party held]) :
    Consistent register updates initial after (order.note party .announce)
      (Function.update stages party (.announced held)) := by
  have values (side : Side) : (Function.update stages party (.announced held) side).value
      (updates side) = (stages side).value (updates side) := by
    obtain rfl | rfl := side.eq_or_other party <;> simp [committed, Stage.value]
  have moved : Consistent register updates initial s order
      (Function.update stages party (.announced held)) := by
    refine consistent.of_stages values (fun side waits => ?_) fun side seen found => ?_
    · rcases side.eq_or_other party with rfl | rfl
      · simp at waits
      · simpa using waits
    · apply consistent.saw side seen
      obtain rfl | rfl := side.eq_or_other party
      · simpa [committed, Stage.seen] using found
      · simpa using found
  exact { moved with
    waiting := fun side waits => shows _ (moved.waiting side waits)
    lastCommit := fun side last other v value => shows v (moved.lastCommit side last other v value)
    announcer := by
      intro side last
      obtain rfl : party = side := by simpa [Order.note] using last
      simp [Order.note, consistent.committed, committed, Stage.value]
    lastAnnounce := by simp [announced, Order.note, Stage.value] }

end Consistent

section

variable {register : Register S V} {kind : L → Access} {updates : Side → V → V} {initial : V}

/-- One of the two can no longer succeed, or both are on course. -/
def Sound (register : Register S V) (kind : L → Access) (updates : Side → V → V) (initial : V)
    (shared : Shared Side L S (Except E V)) : Prop :=
  (∃ side, (shared.programs side).Fails) ∨
    ∃ stages, (∀ side, Follows register kind (updates side) (shared.programs side) (stages side)) ∧
      Consistent register updates initial shared.state (Order.of kind shared.trace) stages

/-- The programs after a step, when the one that took it follows its new stage. -/
theorem follows_update {programs : Side → Script L S (Except E V)} {stages : Side → Stage V}
    (follows : ∀ side, Follows register kind (updates side) (programs side) (stages side))
    {party : Side} {program : Script L S (Except E V)} {stage : Stage V}
    (own : Follows register kind (updates party) program stage) (side : Side) :
    Follows register kind (updates side) (Function.update programs party program side)
      (Function.update stages party stage side) := by
  rcases side.eq_or_other party with rfl | rfl
  · simpa using own
  · simpa using follows party.other

theorem follows_keep {programs : Side → Script L S (Except E V)} {stages : Side → Stage V}
    (follows : ∀ side, Follows register kind (updates side) (programs side) (stages side))
    {party : Side} {program : Script L S (Except E V)} {stage : Stage V}
    (unmoved : stages party = stage)
    (own : Follows register kind (updates party) program stage) (side : Side) :
    Follows register kind (updates side) (Function.update programs party program side)
      (stages side) := by
  have moved := follows_update follows own side
  rwa [← unmoved, Function.update_eq_self] at moved

theorem sound_step (shared : Shared Side L S (Except E V)) (party : Side)
    (next : Shared Side L S (Except E V)) (sound : Sound register kind updates initial shared)
    (taken : shared.advance party = some next) : Sound register kind updates initial next := by
  obtain ⟨label, change, rest, program, rfl⟩ := Shared.advance_cases taken
  rcases sound with ⟨side, fails⟩ | ⟨stages, follows, consistent⟩
  · refine .inl ⟨side, ?_⟩
    rcases side.eq_or_other party with rfl | rfl
    · rw [program] at fails
      simpa using fails shared.state
    · simpa using fails
  · have own := follows party
    simp only [program, Follows] at own
    rcases own shared.state with fails | own
    · exact .inl ⟨party, by simpa using fails⟩
    · refine .inr ?_
      simp only [Order.of_concat]
      split at own
      next _ _ access stage =>
        rw [access]
        obtain ⟨shows, announced, looked⟩ := own
        rcases looked _ (consistent.waiting party stage) with again | seen
        · exact ⟨stages, follows_keep follows stage again,
            (consistent.look_again stage).of_state shows announced⟩
        · exact ⟨_, follows_update follows seen,
            (consistent.look stage).of_state shows announced⟩
      next _ _ seen access stage =>
        rw [access]
        obtain ⟨shows, announced, later⟩ := own
        exact ⟨stages, follows_keep follows stage later,
          consistent.aside stage shows announced⟩
      next _ _ seen access stage =>
        rw [access]
        obtain ⟨shown, announced, later⟩ := own
        exact ⟨_, follows_update follows later, consistent.commit stage shown announced⟩
      next _ _ seen access stage =>
        rw [access]
        obtain ⟨shows, announced, later⟩ := own
        exact ⟨_, follows_update follows later, consistent.announce stage shows announced⟩
      next => exact own.elim

/-- Two clients that both succeed: each has worked from what the other made if it looked late
enough and from the initial value if not, the register is left with what the last to commit
made, and the last announcement is that of the last to announce. -/
theorem clients_outcome {programs : Side → Script L S (Except E V)} {s : S}
    (follows : ∀ side, Follows register kind (updates side) (programs side) .looking)
    (shown : register.shows s initial) (quiet : register.announced s = []) {turns : List Side}
    {final : Shared Side L S (Except E V)} {results : Side → V}
    (reached : run Shared.advance turns ⟨s, programs, []⟩ = some final)
    (finished : final.Finished fun side => .ok (results side)) :
    (∀ side, results side = updates side
      (if (Order.of kind final.trace).fresh side then results side.other else initial)) ∧
      (∃ last, (Order.of kind final.trace).lastCommit = some last ∧
        register.shows final.state (results last)) ∧
      (register.announced final.state).getLast? =
        (Order.of kind final.trace).lastAnnounce.map results := by
  have sound := run_invariant sound_step
    (.inr ⟨_, follows, Consistent.start shown quiet⟩) reached
  rcases sound with ⟨side, fails⟩ | ⟨stages, follows, consistent⟩
  · rw [finished side] at fails
    exact absurd rfl (fails _)
  · have values (side : Side) : (stages side).value (updates side) = some (results side) := by
      have own := follows side
      rw [finished side] at own
      exact own _ rfl
    refine ⟨fun side => ?_, ?_, ?_⟩
    · obtain ⟨seen, found, made⟩ := Stage.seen_of_value (values side)
      have saw := consistent.saw side seen found
      rw [values] at saw
      split at saw
      · rename_i fresh
        simpa [fresh, Option.some.inj saw] using made
      · rename_i stale
        simpa [stale, saw] using made
    · have committed (side : Side) : (Order.of kind final.trace).committed side := by
        simp [consistent.committed, values]
      obtain ⟨last, was⟩ := Option.isSome_iff_exists.mp
        (consistent.someCommit .left (committed .left))
      exact ⟨last, was, consistent.lastCommit last was (committed _) _ (values last)⟩
    · rw [consistent.lastAnnounce]
      cases (Order.of kind final.trace).lastAnnounce <;> simp [values]

end

end FerroWg.Lib
