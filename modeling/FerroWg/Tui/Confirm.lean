import FerroWg.Tui.Editor
import FerroWg.Tui.EventLoop

/-!
# Confirmed actions

A `y` reaches the state machine, which deletes the peer of a confirmed deletion, and then the
follow-up of the event loop, which deletes the peer at the same index again.
-/

namespace FerroWg.Tui

/-- Nothing is shown above the dialog. -/
structure DialogOnTop (s : AppState) : Prop where
  help : s.showHelp = false
  filter : s.showConnectionFilter = false
  diff : s.configDiffPending = none

def KeyEvent.Yes (key : KeyEvent) : Prop := key.code = .char 'y' ∨ key.code = .char 'Y'

/-- The peer at `i` is gone from the draft, and every other peer is where it was or one up. -/
structure RemovedPeer (i : Nat) (before after : ConfigEditState) : Prop where
  draft : after.draft = { before.draft with peers := before.draft.peers.eraseIdx i }
  marks : ∀ j, j ∈ after.newPeerIndices ↔ (if j < i then j else j + 1) ∈ before.newPeerIndices

def confirmCommands : ConfirmAction → List Effect
  | .disconnectAll => [.command (.down none) "All connections down"]
  | .stopDaemon => [.command .shutdown "Daemon stopped"]
  | .deletePeer _ => []

structure ExecutedOnce (action : ConfirmAction) (before : AppState) (o : Outcome) : Prop where
  cleared : o.loop.state.pendingConfirm = none
  effects : o.effects = confirmCommands action
  kept : (∀ i edit, action = .deletePeer i → before.configEdit = some edit →
    edit.draft.peers.length ≤ i) → o.loop.state.configEdit = before.configEdit
  removed : ∀ i edit, action = .deletePeer i → before.configEdit = some edit →
    i < edit.draft.peers.length →
      ∃ after, o.loop.state.configEdit = some after ∧ RemovedPeer i edit after

/-- No peer moves up into the place of a deleted one, and the tab can adjust its focus. -/
structure NothingMovesUp (i : Nat) (l : Loop) : Prop where
  last : ∀ edit, l.state.configEdit = some edit → edit.draft.peers.length ≤ i + 1
  shown : l.bundle.config.focusedSection = .peer i → (viewedConnection l.state).isSome

/-! ## One deletion -/

theorem deleteConfigPeer_of_le {i : Nat} {edit : ConfigEditState}
    (outside : edit.draft.peers.length ≤ i) : deleteConfigPeer i edit = edit := by
  rw [deleteConfigPeer, if_neg (by omega)]

section

variable [Externals]

theorem removedPeer_deleteConfigPeer {i : Nat} {edit : ConfigEditState}
    (inside : i < edit.draft.peers.length) : RemovedPeer i edit (deleteConfigPeer i edit) := by
  have session := deleteConfigPeer_session edit i
  rw [if_pos inside] at session
  refine ⟨congrArg Session.draft session, fun j => ?_⟩
  have marks : (deleteConfigPeer i edit).newPeerIndices = shiftIndices i edit.newPeerIndices :=
    congrArg Session.unconfirmed session
  rw [marks, mem_shiftIndices]

/-- Two deletions at one index are one exactly when the first leaves nothing there. -/
theorem removedPeer_twice {i : Nat} {edit : ConfigEditState}
    (inside : i < edit.draft.peers.length) :
    RemovedPeer i edit (deleteConfigPeer i (deleteConfigPeer i edit)) ↔
      edit.draft.peers.length ≤ i + 1 := by
  have once := removedPeer_deleteConfigPeer inside
  have length : (deleteConfigPeer i edit).draft.peers.length = edit.draft.peers.length - 1 := by
    rw [once.draft, List.length_eraseIdx_of_lt inside]
  constructor
  · intro removed
    by_contra more
    have there : i < (deleteConfigPeer i edit).draft.peers.length := by omega
    have again := removedPeer_deleteConfigPeer there
    have shorter := congrArg (·.peers.length) (again.draft.symm.trans removed.draft)
    simp only [List.length_eraseIdx_of_lt there, List.length_eraseIdx_of_lt inside] at shorter
    omega
  · intro last
    have outside : (deleteConfigPeer i edit).draft.peers.length ≤ i := by omega
    rwa [deleteConfigPeer_of_le outside]

/-! ## From the key to the follow-up -/

theorem resolveKey_yes {key : KeyEvent} {l : Loop} {p : ConfirmPending}
    (pending : l.state.pendingConfirm = some p) (top : DialogOnTop l.state) (yes : key.Yes) :
    resolveKey key l = some (l.bundle, some .confirmYes) := by
  simp only [resolveKey, top.help, top.filter, top.diff, pending, Option.isSome_none,
    Option.isSome_some, Bool.false_eq_true, if_false, if_true, confirmDialogHandleKey,
    Option.map_some]
  rcases yes with lower | upper
  · rw [lower]; rfl
  · rw [upper]; rfl

/-- The answer itself changes no component. -/
theorem dispatchAll_confirmYes (now : Clock) (l : Loop) :
    dispatchAll now .confirmYes l = some ⟨confirmYes l.state, l.bundle⟩ := by
  have filter (s : AppState) : connectionFilterUpdate .confirmYes s l.bundle.connectionFilter =
      l.bundle.connectionFilter := by
    unfold connectionFilterUpdate; split <;> rfl
  simp [dispatchAll, dispatch, ComponentBundle.update, ConfigComponent.update, TableState.update, filter]

omit [Externals] in
theorem maybeSpawnCommand_confirmed (action : ConfirmAction) (s : AppState) :
    maybeSpawnCommand (confirmedAction action) s = confirmCommands action := by
  cases action <;> rfl

/-- A key `y` amounts to the answer and, in the state it leads to, the action asked about. -/
theorem handleKeyEvent_yes {now : Clock} {key : KeyEvent} {l : Loop} {p : ConfirmPending}
    (pending : l.state.pendingConfirm = some p) (top : DialogOnTop l.state) (yes : key.Yes) :
    handleKeyEvent now key l =
      (dispatchAll now (confirmedAction p.action) ⟨confirmYes l.state, l.bundle⟩).map fun last =>
        ⟨last, [(l.state, .confirmYes), (confirmYes l.state, confirmedAction p.action)],
          confirmCommands p.action⟩ := by
  simp only [handleKeyEvent, resolveKey_yes pending top yes, Option.bind_some, handleAction, followUp,
    pending, Option.map_some, Option.toList_some, submittedTasks, List.append_nil, performEach,
    dispatchAll_confirmYes, maybeSpawnCommand_confirmed]
  cases last : dispatchAll now (confirmedAction p.action) ⟨confirmYes l.state, l.bundle⟩ <;>
    simp [Outcome.followedBy, Outcome.idle, maybeSpawnCommand, last]

/-- The follow-up deletes once more; the tab may fail to find the configuration it shows. -/
theorem dispatchAll_deleteConfigPeer (now : Clock) (i : Nat) (l : Loop) :
    (dispatchAll now (.deleteConfigPeer i) l).map Loop.state =
      if l.bundle.config.focusedSection = .peer i ∧ viewedConnection l.state = none then none
      else some (editSession l.state (deleteConfigPeer i)) := by
  have viewed : viewedConnection (editSession l.state (deleteConfigPeer i)) =
      viewedConnection l.state := rfl
  simp only [dispatchAll, dispatch, Option.bind_some, ComponentBundle.update, ConfigComponent.update,
    ConfigComponent.peerDeleted, viewed]
  cases focus : l.bundle.config.focusedSection with
  | interface => simp
  | peer focused =>
    by_cases same : focused = i
    · subst same
      cases viewedConnection l.state <;> simp
    · by_cases above : i < focused <;> simp [same, above]

/-- The state after a confirmed deletion, if there is one. -/
theorem handleKeyEvent_yes_delete {now : Clock} {key : KeyEvent} {l : Loop} {message : String} {i : Nat}
    (pending : l.state.pendingConfirm = some ⟨message, .deletePeer i⟩) (top : DialogOnTop l.state)
    (yes : key.Yes) :
    (handleKeyEvent now key l).map (·.loop.state) =
      if l.bundle.config.focusedSection = .peer i ∧ viewedConnection l.state = none then none
      else some { l.state with
        pendingConfirm := none
        configEdit := l.state.configEdit.map fun edit =>
          deleteConfigPeer i (deleteConfigPeer i edit) } := by
  have viewed : viewedConnection (confirmYes l.state) = viewedConnection l.state := by
    rw [confirmYes, pending]; rfl
  have state := dispatchAll_deleteConfigPeer now i ⟨confirmYes l.state, l.bundle⟩
  rw [viewed] at state
  rw [handleKeyEvent_yes pending top yes, Option.map_map]
  apply state.trans
  simp only [confirmYes, pending, editSession, Option.map_map]
  rfl

/-- Deleting is carried out once exactly when the peers above the deleted one are none. -/
theorem delete_once_iff {now : Clock} {key : KeyEvent} {l : Loop} {message : String} {i : Nat}
    (pending : l.state.pendingConfirm = some ⟨message, .deletePeer i⟩) (top : DialogOnTop l.state)
    (yes : key.Yes) :
    (∃ o, handleKeyEvent now key l = some o ∧ ExecutedOnce (.deletePeer i) l.state o) ↔
      NothingMovesUp i l := by
  have state := @handleKeyEvent_yes_delete _ now _ _ _ _ pending top yes
  constructor
  · rintro ⟨o, done, once⟩
    rw [done, Option.map_some] at state
    split_ifs at state with lost
    rw [Option.some.injEq] at state
    refine ⟨fun edit there => ?_, fun focus => ?_⟩
    · by_contra more
      obtain ⟨after, here, removed⟩ := once.removed i edit rfl there (by omega)
      rw [state, there, Option.map_some, Option.some.injEq] at here
      subst here
      exact more ((removedPeer_twice (by omega)).mp removed)
    · exact Option.isSome_iff_ne_none.mpr fun unknown => lost ⟨focus, unknown⟩
  · intro nothing
    have shown : ¬ (l.bundle.config.focusedSection = .peer i ∧ viewedConnection l.state = none) :=
      fun lost => Option.isSome_iff_ne_none.mp (nothing.shown lost.1) lost.2
    rw [if_neg shown] at state
    obtain ⟨o, done, state⟩ := Option.map_eq_some_iff.mp state
    refine ⟨o, done, ⟨by rw [state], ?_, fun outside => ?_, ?_⟩⟩
    · rw [handleKeyEvent_yes pending top yes] at done
      obtain ⟨last, _, rfl⟩ := Option.map_eq_some_iff.mp done
      rfl
    · rw [state]
      cases there : l.state.configEdit with
      | none => rfl
      | some edit =>
        have outside := outside i edit rfl there
        rw [Option.map_some, deleteConfigPeer_of_le outside, deleteConfigPeer_of_le outside]
    · intro j edit same there inside
      cases same
      refine ⟨_, by rw [state, there, Option.map_some], ?_⟩
      exact (removedPeer_twice inside).mpr (nothing.last edit there)

/-- The other two actions have nothing to do with the session. -/
theorem command_once {now : Clock} {key : KeyEvent} {l : Loop} {p : ConfirmPending}
    (pending : l.state.pendingConfirm = some p) (top : DialogOnTop l.state) (yes : key.Yes)
    (command : ∀ i, p.action ≠ .deletePeer i) :
    ∃ o, handleKeyEvent now key l = some o ∧ ExecutedOnce p.action l.state o := by
  obtain ⟨message, action⟩ := p
  have answered : confirmYes l.state = { l.state with pendingConfirm := none } := by
    rw [confirmYes, pending]
    split
    · rename_i same
      cases same
      exact absurd rfl (command _)
    · rfl
  rw [handleKeyEvent_yes pending top yes, answered]
  cases action with
  | deletePeer i => exact absurd rfl (command i)
  | disconnectAll | stopDaemon =>
    exact ⟨_, rfl, rfl, rfl, fun _ => rfl, fun i edit same => by cases same⟩

/-- A `y` carries out what was asked about once, unless that is to delete a peer with another
one after it. -/
theorem confirm_executes_once_iff (now : Clock) (key : KeyEvent) (l : Loop) (p : ConfirmPending)
    (pending : l.state.pendingConfirm = some p) (top : DialogOnTop l.state) (yes : key.Yes) :
    (∃ o, handleKeyEvent now key l = some o ∧ ExecutedOnce p.action l.state o) ↔
      ∀ i, p.action = .deletePeer i → NothingMovesUp i l := by
  obtain ⟨message, action⟩ := p
  by_cases deletes : ∃ i, action = .deletePeer i
  · obtain ⟨i, rfl⟩ := deletes
    rw [delete_once_iff pending top yes]
    exact ⟨fun nothing j same => by cases same; exact nothing, fun nothing => nothing i rfl⟩
  · rw [not_exists] at deletes
    exact iff_of_true (command_once pending top yes deletes) fun i same => absurd same (deletes i)

end

namespace ConfirmSample

open ImportSample

/-- A session on a draft with the given peers, about to delete the first of them. -/
def deleting (peers : List String) : Loop where
  bundle := .new
  state := { AppState.new home with
    pendingConfirm := some ⟨"Delete peer 0?", .deletePeer 0⟩
    configEdit := some {
      connectionName := "home"
      draft := { wgNamed "home" with peers := peers.map fun name => { newPeer with name := name } }
      focusedSection := .peer 0
      focusedFieldIdx := 0
      editBuffer := none
      fieldError := none
      newPeerIndices := ∅
      sessionError := none } }

def peerNames (s : AppState) : List String :=
  s.configEdit.toList.flatMap fun edit => edit.draft.peers.map (·.name)

def pressY (l : Loop) : Option Outcome :=
  @handleKeyEvent externals ⟨0, 0⟩ { code := .char 'y' } l

end ConfirmSample

open ImportSample ConfirmSample in
theorem confirm_executes_once_alone :
    ∃ o, pressY (deleting ["office"]) = some o ∧
      ExecutedOnce (.deletePeer 0) (deleting ["office"]).state o := by
  refine (@confirm_executes_once_iff externals ⟨0, 0⟩ { code := .char 'y' } (deleting ["office"])
    ⟨"Delete peer 0?", .deletePeer 0⟩ rfl ⟨rfl, rfl, rfl⟩ (.inl rfl)).mpr ?_
  rintro i same
  cases same
  refine ⟨fun edit there => ?_, nofun⟩
  cases there
  decide

open ImportSample ConfirmSample in
/-- Asked to delete the first of two peers, the program deletes both. -/
theorem confirm_deletes_neighbour :
    DialogOnTop (deleting ["office", "server"]).state ∧
    peerNames (deleting ["office", "server"]).state = ["office", "server"] ∧
    (pressY (deleting ["office", "server"])).map (fun o => peerNames o.loop.state) = some [] ∧
    ¬ ∃ o, pressY (deleting ["office", "server"]) = some o ∧
      ExecutedOnce (.deletePeer 0) (deleting ["office", "server"]).state o := by
  have emptied : (pressY (deleting ["office", "server"])).map (fun o => peerNames o.loop.state) =
      some [] := by decide +kernel
  refine ⟨⟨rfl, rfl, rfl⟩, rfl, emptied, ?_⟩
  rintro ⟨o, done, once⟩
  obtain ⟨after, here, removed⟩ := once.removed 0 _ rfl rfl (by decide)
  rw [done, Option.map_some, Option.some.injEq, peerNames, here] at emptied
  simp [removed.draft] at emptied

end FerroWg.Tui
