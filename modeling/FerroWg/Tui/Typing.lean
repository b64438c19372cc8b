import FerroWg.Lib.Run
import FerroWg.Tui.Keys

/-!
# Typing into a field

The state machine takes typed text as it should: key by key into the buffer, and Enter hands the
buffer to the check of the field. But no handler turns a key into the action that does this, so
whatever is typed goes elsewhere.
-/

namespace FerroWg.Tui

open Lib

def typedKey (c : Char) : KeyEvent := { code := .char c }
def enterKey : KeyEvent := { code := .enter }

def typedText (text : List (Clock × Char)) : String := .ofList (text.map (·.2))

/-- A text, and Enter after it. -/
def typedLine (text : List (Clock × Char)) (enter : Clock) : List (Clock × KeyEvent) :=
  text.map (fun (now, c) => (now, typedKey c)) ++ [(enter, enterKey)]

/-- The value that a dispatched action gives to the check of a field. -/
def submits (s : AppState) (action : Action) : Option String :=
  match action with
  | .configEditKey key => if key.code = .enter then s.configEdit.bind (·.editBuffer) else none
  | _ => none

def Outcome.submitted (o : Outcome) : List String :=
  o.trace.filterMap fun (s, action) => submits s action

/-- A field is being edited, and nothing is shown above it. -/
structure EditingField (s : AppState) (buffer : String) : Prop where
  running : s.running = true
  mode : s.inputMode = .editField
  buffer : s.configEdit.bind (·.editBuffer) = some buffer
  help : s.showHelp = false
  filter : s.showConnectionFilter = false
  diff : s.configDiffPending = none
  confirm : s.pendingConfirm = none

section

variable [Externals]

/-- The keys of a line do what dispatching each of them to the field would, and nothing else. -/
def TypingReachesField (l : Loop) (buffer : String) (text : List (Clock × Char)) (enter : Clock) :
    Prop :=
  ∃ o, feedKeys (typedLine text enter) l = some o ∧
    o.submitted = [buffer ++ typedText text] ∧
    o.dispatched = (typedLine text enter).map fun (_, key) => .configEditKey key

/-! ## The state machine takes the text -/

theorem dispatch_typedKey {s : AppState} {buffer : String} (now : Clock) (c : Char)
    (typing : s.configEdit.bind (·.editBuffer) = some buffer) :
    ∃ next, dispatch now (.configEditKey (typedKey c)) s = some next ∧
      next.configEdit.bind (·.editBuffer) = some (buffer.push c) := by
  obtain ⟨edit, session, opened⟩ := Option.bind_eq_some_iff.mp typing
  refine ⟨{ s with configEdit := some (typeIntoBuffer (typedKey c) edit) }, ?_, ?_⟩
  · simp [dispatch, inSession, session, configEditKey, finishField, typedKey, typeIntoBuffer]
  · simp [typeIntoBuffer, opened, typeKey, typedKey]

/-- A run of typed keys appends them to the buffer, by induction on the text. -/
theorem run_typed {s : AppState} {buffer : String} (text : List (Clock × Char))
    (typing : s.configEdit.bind (·.editBuffer) = some buffer) :
    ∃ last, run act (text.map fun (now, c) => (now, .configEditKey (typedKey c))) s = some last ∧
      last.configEdit.bind (·.editBuffer) = some (buffer ++ typedText text) := by
  induction text generalizing s buffer with
  | nil => exact ⟨s, rfl, by simpa [typedText] using typing⟩
  | cons typed rest ih =>
    obtain ⟨now, c⟩ := typed
    obtain ⟨next, taken, longer⟩ := dispatch_typedKey now c typing
    obtain ⟨last, reached, all⟩ := ih longer
    refine ⟨last, ?_, ?_⟩
    · rw [List.map_cons, run_cons, act, taken, Option.bind_some]
      exact reached
    · rw [all, Option.some.injEq, ← String.toList_inj]
      simp [typedText]

/-- Had the keys been dispatched to the field, Enter would submit what was typed. -/
theorem dispatched_text_is_submitted {s : AppState} {buffer : String} (text : List (Clock × Char))
    (typing : s.configEdit.bind (·.editBuffer) = some buffer) :
    ∃ last, run act (text.map fun (now, c) => (now, .configEditKey (typedKey c))) s = some last ∧
      submits last (.configEditKey enterKey) = some (buffer ++ typedText text) := by
  obtain ⟨last, reached, all⟩ := run_typed text typing
  exact ⟨last, reached, by simpa [submits, enterKey] using all⟩

/-! ## No key is resolved to it -/

/-- No action that is made types into the field of the configuration. -/
def NoTyping (made : Option Action) : Prop := ∀ key, made ≠ some (.configEditKey key)

omit [Externals] in
theorem Keyed.noTyping {s : AppState} {made : Option Action} (keyed : Keyed s made) :
    NoTyping made := by
  rintro typed rfl
  exact keyed _ rfl

/-- Whoever takes the key. -/
theorem resolveKey_noTyping {key : KeyEvent} {l : Loop} {bundle : ComponentBundle}
    {made : Option Action} (resolved : resolveKey key l = some (bundle, made)) : NoTyping made :=
  (resolveKey_keyed resolved).noTyping

/-- Nor does what follows a confirmation. -/
theorem handleKeyEvent_noTyping {now : Clock} {key : KeyEvent} {l : Loop} {o : Outcome}
    (done : handleKeyEvent now key l = some o) (typed : KeyEvent) :
    .configEditKey typed ∉ o.dispatched := by
  obtain ⟨bundle, made, resolved, dispatched⟩ := handleKeyEvent_dispatched done
  rw [dispatched]
  cases made with
  | none => simp
  | some action =>
    have direct : action ≠ .configEditKey typed := fun same =>
      resolveKey_noTyping resolved typed (congrArg some same)
    have after : followUp action l.state ≠ some (.configEditKey typed) := by
      intro follows
      obtain same | same | ⟨i, same⟩ := followUp_confirmed follows <;> cases same
    simp [direct.symm, after]

/-- Over a run of keys, whatever they are. -/
theorem feedKeys_noTyping {keys : List (Clock × KeyEvent)} {l : Loop} {o : Outcome}
    (done : feedKeys keys l = some o) (typed : KeyEvent) : .configEditKey typed ∉ o.dispatched := by
  induction keys generalizing l o with
  | nil => cases done; simp [Outcome.idle, Outcome.dispatched]
  | cons key rest ih =>
    obtain ⟨now, key⟩ := key
    rw [feedKeys] at done
    split_ifs at done with running
    · obtain ⟨first, handled, later⟩ := Option.bind_eq_some_iff.mp done
      obtain ⟨second, fed, rfl⟩ := Outcome.followedBy_eq_some.mp later
      have early := handleKeyEvent_noTyping handled typed
      have late := ih fed
      simp only [Outcome.dispatched, List.map_append, List.mem_append, not_or] at early late ⊢
      exact ⟨early, late⟩
    · cases done; simp [Outcome.idle, Outcome.dispatched]

omit [Externals] in
theorem submitted_of_noTyping {o : Outcome}
    (none : ∀ key, .configEditKey key ∉ o.dispatched) : o.submitted = [] := by
  rw [Outcome.submitted, List.filterMap_eq_nil_iff]
  rintro ⟨s, action⟩ member
  have dispatched : action ∈ o.dispatched := List.mem_map.mpr ⟨(s, action), member, rfl⟩
  cases action with
  | configEditKey key => exact absurd dispatched (none key)
  | _ => rfl

/-- Nothing that is typed is ever submitted, in whatever state the typing starts. -/
theorem typing_never_reaches_field (l : Loop) (buffer : String) (text : List (Clock × Char))
    (enter : Clock) : ¬ TypingReachesField l buffer text enter := by
  rintro ⟨o, done, submitted, _⟩
  rw [submitted_of_noTyping (feedKeys_noTyping done)] at submitted
  cases submitted

end

open ImportSample in
/-- The listen port of `home`, being edited on the configuration tab. -/
def editingPort : Loop where
  bundle := .new
  state := { AppState.new home with
    activeTab := .config
    inputMode := .editField
    configEdit := some {
      connectionName := "home"
      draft := wgNamed "home"
      focusedSection := .interface
      focusedFieldIdx := 0
      editBuffer := some "51820"
      fieldError := none
      newPeerIndices := ∅
      sessionError := none } }

open ImportSample in
/-- The text `q` ends the program, with nothing submitted. -/
theorem typing_quits :
    EditingField editingPort.state "51820" ∧
    ¬ @TypingReachesField externals editingPort "51820" [(⟨0, 0⟩, 'q')] ⟨1, 1⟩ ∧
    (@feedKeys externals (typedLine [(⟨0, 0⟩, 'q')] ⟨1, 1⟩) editingPort).map
      (fun o => (o.loop.state.running, o.submitted)) = some (false, []) := by
  have quits : (@feedKeys externals (typedLine [(⟨0, 0⟩, 'q')] ⟨1, 1⟩) editingPort).map
      (fun o => (o.loop.state.running, o.submitted)) = some (false, []) := by decide +kernel
  refine ⟨⟨rfl, rfl, rfl, rfl, rfl, rfl, rfl⟩, ?_, quits⟩
  rintro ⟨o, done, submitted, _⟩
  rw [done, Option.map_some, submitted] at quits
  simp at quits

end FerroWg.Tui
