import FerroWg.Tui.Focus
import FerroWg.Tui.Simulation

/-!
# The two cursors of the editor

The session of the state and the configuration tab each have a cursor. The session clamps its
cursor when a peer is deleted, where the tab shifts it; the session follows an added peer and its
extra field, where the tab does not; and the keys of the tab move its own cursor alone.
-/

namespace FerroWg.Tui

open Lib

/-- The cursor of a session, as the tab would have it. -/
def ConfigEditState.cursor (edit : ConfigEditState) : ConfigComponent :=
  ⟨edit.focusedSection, edit.focusedFieldIdx⟩

/-- Whether the stored configuration of the viewed connection has no peers. -/
def StoredEmpty (s : AppState) : Prop :=
  ∃ conn, s.minVisible.bind s.findConnection = some conn ∧ conn.config.peers = []

/-- The deletions that leave the indices of the cursor as they are. -/
def StaysOnDelete (i : Nat) (edit : ConfigEditState) : Prop :=
  i < edit.draft.peers.length → match edit.focusedSection with
    | .interface =>
      if edit.draft.peers.length = 1 then edit.focusedFieldIdx = 0
      else edit.focusedFieldIdx < interfaceFields.length
    | .peer j => j + 1 < edit.draft.peers.length ∧ edit.focusedFieldIdx <
      (fieldsForSection (.peer j) ((if j < i then j else j + 1) ∈ edit.newPeerIndices)).length

/-! ## Deletions -/

section

variable {edit : ConfigEditState} {i j : Nat}

theorem delete_cursor_last (inside : i < edit.draft.peers.length)
    (last : edit.draft.peers.length = 1) : (deleteConfigPeer i edit).cursor = ⟨.interface, 0⟩ := by
  obtain ⟨sect, place⟩ := delete_focus_last inside last
  rw [ConfigEditState.cursor, sect, place]

theorem delete_cursor_interface (inside : i < edit.draft.peers.length)
    (more : 1 < edit.draft.peers.length) (here : edit.focusedSection = .interface) :
    (deleteConfigPeer i edit).cursor =
      ⟨.interface, min edit.focusedFieldIdx (interfaceFields.length - 1)⟩ := by
  obtain ⟨sect, place⟩ := delete_focus_interface inside more here
  rw [ConfigEditState.cursor, sect, place]

theorem delete_cursor_peer (inside : i < edit.draft.peers.length)
    (more : 1 < edit.draft.peers.length) (here : edit.focusedSection = .peer j) :
    (deleteConfigPeer i edit).cursor =
      ⟨.peer (min j (edit.draft.peers.length - 2)), min edit.focusedFieldIdx
        ((fieldsForSection (.peer j) ((if min j (edit.draft.peers.length - 2) < i then
          min j (edit.draft.peers.length - 2) else min j (edit.draft.peers.length - 2) + 1) ∈
            edit.newPeerIndices)).length - 1)⟩ := by
  obtain ⟨sect, _, place⟩ := delete_focus_peer inside more here
  rw [ConfigEditState.cursor, sect, place]
  simp only [mem_shiftIndices, fieldsForSection]

/-- A clamped index is the same one just when it was inside. -/
theorem min_pred_eq_iff {n k : Nat} (positive : 0 < k) : min n (k - 1) = n ↔ n < k := by omega

theorem stays_iff (i : Nat) (edit : ConfigEditState) :
    (deleteConfigPeer i edit).cursor = edit.cursor ↔ StaysOnDelete i edit := by
  rw [StaysOnDelete]
  by_cases inside : i < edit.draft.peers.length
  · rw [imp_iff_right inside]
    obtain last | more : edit.draft.peers.length = 1 ∨ 1 < edit.draft.peers.length := by omega
    · rw [delete_cursor_last inside last]
      cases here : edit.focusedSection with
      | interface => simp [ConfigEditState.cursor, here, last, eq_comm]
      | peer j => simp [ConfigEditState.cursor, here, last]
    · cases here : edit.focusedSection with
      | interface =>
        rw [delete_cursor_interface inside more here, if_neg (by omega), ConfigEditState.cursor, here,
          ConfigComponent.mk.injEq, min_pred_eq_iff (by decide)]
        exact and_iff_right rfl
      | peer j =>
        rw [delete_cursor_peer inside more here, ConfigEditState.cursor, here,
          ConfigComponent.mk.injEq, ConfigSection.peer.injEq]
        rw [show min j (edit.draft.peers.length - 2) = j ↔ j + 1 < edit.draft.peers.length by omega]
        apply and_congr_right
        intro before
        have clamped : min j (edit.draft.peers.length - 2) = j := by omega
        rw [clamped,
          min_pred_eq_iff (Nat.zero_lt_of_lt (one_lt_fields _ _))]
  · exact iff_of_true (by rw [deleteConfigPeer, if_neg inside]) fun inside' => absurd inside' inside

/-- A cursor behind the deleted peer moves along with its own only at the last one. -/
theorem shifts_iff (here : edit.focusedSection = .peer j) (behind : i < j) :
    (deleteConfigPeer i edit).cursor = ⟨.peer (j - 1), edit.focusedFieldIdx⟩ ↔
      i < edit.draft.peers.length ∧ j + 1 = edit.draft.peers.length ∧ OnField edit := by
  by_cases inside : i < edit.draft.peers.length
  · obtain last | more : edit.draft.peers.length = 1 ∨ 1 < edit.draft.peers.length := by omega
    · rw [delete_cursor_last inside last]
      exact iff_of_false (fun same => by cases same) (by omega)
    · rw [delete_cursor_peer inside more here, ConfigComponent.mk.injEq, ConfigSection.peer.injEq,
        and_iff_right inside]
      rw [show min j (edit.draft.peers.length - 2) = j - 1 ↔ j + 1 = edit.draft.peers.length by omega]
      apply and_congr_right
      intro lastPeer
      have clamped : min j (edit.draft.peers.length - 2) = j - 1 := by omega
      rw [clamped, if_neg (by omega), Nat.sub_add_cancel (by omega),
        min_pred_eq_iff (Nat.zero_lt_of_lt (one_lt_fields _ _)), OnField, focusedFields, isNewFocus,
        here]
  · rw [deleteConfigPeer, if_neg inside, ConfigEditState.cursor, here]
    apply iff_of_false
    · intro same
      have := ConfigSection.peer.inj (congrArg ConfigComponent.focusedSection same)
      omega
    · exact fun shifted => inside shifted.1

theorem goesHome_iff (here : edit.focusedSection = .peer j) :
    (deleteConfigPeer i edit).cursor = ⟨.interface, 0⟩ ↔
      i < edit.draft.peers.length ∧ edit.draft.peers.length = 1 := by
  by_cases inside : i < edit.draft.peers.length
  · obtain last | more : edit.draft.peers.length = 1 ∨ 1 < edit.draft.peers.length := by omega
    · exact iff_of_true (delete_cursor_last inside last) ⟨inside, last⟩
    · rw [delete_cursor_peer inside more here]
      exact iff_of_false (fun same => by cases same) (by omega)
  · rw [deleteConfigPeer, if_neg inside, ConfigEditState.cursor, here]
    exact iff_of_false (fun same => by cases same) fun shifted => inside shifted.1

end

/-! ## Moves of the cursor of the tab -/

theorem viewedConnection_cases {s : AppState} {viewed : Option ConnectionView}
    (found : viewedConnection s = some viewed) :
    s.minVisible = none ∧ viewed = none ∨ s.minVisible.isSome ∧
      ∃ conn, s.minVisible.bind s.findConnection = some conn ∧ viewed = some conn := by
  rw [viewedConnection] at found
  cases least : s.minVisible with
  | none =>
    rw [least] at found
    cases found
    exact .inl ⟨rfl, rfl⟩
  | some name =>
    rw [least] at found
    obtain ⟨conn, there, rfl⟩ := Option.map_eq_some_iff.mp found
    exact .inr ⟨rfl, conn, there, rfl⟩

namespace ConfigComponent

variable {comp config : ConfigComponent} {s : AppState}

theorem one_lt_fields (comp : ConfigComponent) : 1 < comp.fields.length := Tui.one_lt_fields _ _

theorem focusNext_eq (comp : ConfigComponent) :
    comp.focusNext = ⟨comp.focusedSection, (comp.focusedFieldIdx + 1) % comp.fields.length⟩ := by
  rw [focusNext, if_neg (List.ne_nil_of_length_pos (Nat.zero_lt_of_lt comp.one_lt_fields))]

theorem focusPrev_eq (comp : ConfigComponent) : comp.focusPrev = ⟨comp.focusedSection,
    if comp.focusedFieldIdx = 0 then comp.fields.length - 1 else comp.focusedFieldIdx - 1⟩ := by
  rw [focusPrev, if_neg (List.ne_nil_of_length_pos (Nat.zero_lt_of_lt comp.one_lt_fields))]

theorem focusNext_ne (comp : ConfigComponent) : comp.focusNext ≠ comp := by
  rw [focusNext_eq]
  exact fun same => succ_mod_ne comp.one_lt_fields (congrArg focusedFieldIdx same)

theorem focusPrev_ne (comp : ConfigComponent) : comp.focusPrev ≠ comp := by
  rw [focusPrev_eq]
  intro same
  have many := comp.one_lt_fields
  have place := congrArg focusedFieldIdx same
  simp only at place
  split at place <;> omega

/-- The keys of the tab that move its cursor. -/
def MovesRow (key : KeyEvent) : Prop :=
  key.code = .char 'j' ∨ key.code = .down ∨ key.code = .char 'k' ∨ key.code = .up

theorem keyOn_iff (key : KeyEvent) (conn : ConnectionView) (comp : ConfigComponent) :
    (comp.keyOn key conn).1 = comp ↔ ¬MovesRow key := by
  rw [keyOn, MovesRow]
  split
  case h_1 code | h_2 code => exact iff_of_false comp.focusNext_ne (by simp [code])
  case h_3 code | h_4 code => exact iff_of_false comp.focusPrev_ne (by simp [code])
  all_goals simp_all

theorem handleKey_iff {key : KeyEvent} {made : Option Action}
    (handled : comp.handleKey key s = some (config, made)) : config = comp ↔
      ¬(s.activeTab = .config ∧ s.inputMode = .normal ∧ s.minVisible.isSome ∧ MovesRow key) := by
  obtain ⟨viewed, found, same⟩ := Option.map_eq_some_iff.mp handled
  rcases viewedConnection_cases found with ⟨none, rfl⟩ | ⟨some, conn, _, rfl⟩
  · cases same
    simp [none]
  · simp only at same
    split at same
    case isTrue elsewhere =>
      cases same
      exact iff_of_true rfl fun here => elsewhere.elim (absurd here.1) (absurd here.2.1)
    case isFalse here =>
      rw [not_or, not_not, not_not] at here
      have moved := comp.keyOn_iff key conn
      rw [same] at moved
      rw [moved, and_iff_right here.1, and_iff_right here.2, and_iff_right some]

end ConfigComponent

/-! ## The two cursors over a run -/

structure FocusView where
  state : AppState
  config : ConfigComponent

def Loop.focus (l : Loop) : FocusView := ⟨l.state, l.bundle.config⟩

/-- Any action may be dispatched to both; a key of the tab moves its cursor before the action that
it makes, if it makes one. -/
inductive FocusEvent where
  | act (now : Clock) (action : Action)
  | key (key : KeyEvent)
  | reload (config : AppConfig)

namespace FocusView

def start (config : AppConfig) (history : List BenchmarkRun) : FocusView :=
  (Loop.start config history).focus

/-- Both cursors are at one row, if there is a session. -/
def Agree (v : FocusView) : Prop := ∀ edit, v.state.configEdit = some edit → edit.cursor = v.config

/-- A session starts at the cursor of the tab. -/
def OpensAtCursor (v : FocusView) : Action → Prop
  | .enterConfigEdit sect fieldIdx =>
    (v.state.minVisible.bind v.state.findConnection).isSome → v.config = ⟨sect, fieldIdx⟩
  | _ => True

/-- The tab shifts its cursor when an earlier peer goes, and goes to the interface with its own peer
if the stored configuration has none; the session has to come to the same row. -/
def DeletesAlike (i : Nat) (s : AppState) (edit : ConfigEditState) : Prop :=
  match edit.focusedSection with
  | .interface => StaysOnDelete i edit
  | .peer j =>
    if j < i then StaysOnDelete i edit
    else if i < j then
      i < edit.draft.peers.length ∧ j + 1 = edit.draft.peers.length ∧ OnField edit
    else
      (StoredEmpty s → i < edit.draft.peers.length ∧ edit.draft.peers.length = 1) ∧
        (¬StoredEmpty s → StaysOnDelete i edit)

/-- The moves of a session that the tab makes with it. A step in the fields of an unconfirmed peer
has to come to the same index among its five fields as among four, and a peer to be added at the
cursor. -/
def MovesAlike (s : AppState) (edit : ConfigEditState) : Action → Prop
  | .configFocusNext => s.minVisible.isSome ∧
    (edit.focusedFieldIdx + 1) % (focusedFields edit).length =
      (edit.focusedFieldIdx + 1) % (fieldsForSection edit.focusedSection false).length
  | .configFocusPrev => s.minVisible.isSome ∧ (isNewFocus edit → edit.focusedFieldIdx ≠ 0)
  | .addConfigPeer =>
    edit.focusedSection = .peer edit.draft.peers.length ∧ edit.focusedFieldIdx = 0
  | .deleteConfigPeer i => DeletesAlike i s edit
  | .confirmYes => ∀ message i, s.pendingConfirm = some ⟨message, .deletePeer i⟩ →
    StaysOnDelete i edit
  | _ => True

/-- What an event must be for the cursors to agree still; a key of the tab must not move its cursor
during a session. -/
def KeepsRow (v : FocusView) : FocusEvent → Prop
  | .act _ action => v.OpensAtCursor action ∧
    ∀ edit, v.state.configEdit = some edit → MovesAlike v.state edit action
  | .key key => v.state.configEdit.isSome →
    ¬(v.state.activeTab = .config ∧ v.state.inputMode = .normal ∧ v.state.minVisible.isSome ∧
      ConfigComponent.MovesRow key)
  | .reload _ => True

variable [Externals]

def step (v : FocusView) : FocusEvent → Option FocusView
  | .act now action => (dispatch now action v.state).bind fun s =>
    (v.config.update action s).map fun config => ⟨s, config⟩
  | .key key => (v.config.handleKey key v.state).map fun made => { v with config := made.1 }
  | .reload config => some { v with state := v.state.reloadFromConfig config }

variable {v next : FocusView}

omit [Externals] in
theorem agree_idle (none : next.state.configEdit = none) : next.Agree := by
  intro edit session
  rw [none] at session
  cases session

omit [Externals] in
theorem agree_iff {edit : ConfigEditState} (session : next.state.configEdit = some edit) :
    next.Agree ↔ edit.cursor = next.config := by
  rw [Agree, session]
  constructor
  · exact fun agree => agree edit rfl
  · intro agree edit' same
    cases same
    exact agree

section

variable {edit : ConfigEditState} {i : Nat}

omit [Externals]

/-- A deletion that the cursor of the tab does not follow. -/
theorem agree_deleted (agree : edit.cursor = v.config)
    (after : next.state.configEdit = some (deleteConfigPeer i edit))
    (config : next.config = v.config) : next.Agree ↔ StaysOnDelete i edit := by
  rw [agree_iff after, config, ← agree, stays_iff]

/-- What the tab makes of a deletion, and what the session has to make of it. -/
theorem agree_peerDeleted (agree : edit.cursor = v.config)
    (after : next.state.configEdit = some (deleteConfigPeer i edit))
    (moved : v.config.peerDeleted i v.state = some next.config) :
    next.Agree ↔ DeletesAlike i v.state edit := by
  have tab : v.config = ⟨edit.focusedSection, edit.focusedFieldIdx⟩ := agree.symm
  rw [ConfigComponent.peerDeleted, tab] at moved
  rw [DeletesAlike]
  cases here : edit.focusedSection with
  | interface =>
    rw [here] at moved tab
    exact agree_deleted agree after ((Option.some.inj moved).symm.trans tab.symm)
  | peer j =>
    rw [here] at moved tab
    simp only at moved ⊢
    rcases Nat.lt_trichotomy j i with before | rfl | behind
    · rw [if_neg (by omega), if_neg (by omega)] at moved
      rw [if_pos before]
      exact agree_deleted agree after ((Option.some.inj moved).symm.trans tab.symm)
    · rw [if_pos rfl] at moved
      rw [if_neg (by omega), if_neg (by omega)]
      obtain ⟨viewed, found, same⟩ := Option.map_eq_some_iff.mp moved
      rcases viewedConnection_cases found with ⟨none, rfl⟩ | ⟨_, conn, there, rfl⟩
      · have stored : ¬StoredEmpty v.state := by
          rintro ⟨conn, there, _⟩
          rw [none] at there
          cases there
        rw [imp_iff_right stored]
        simp only [stored, false_imp_iff, true_and]
        exact agree_deleted agree after (same.symm.trans tab.symm)
      · have stored : StoredEmpty v.state ↔ conn.config.peers = [] := by
          rw [StoredEmpty, there]
          simp
        simp only at same
        rw [stored]
        by_cases empty : conn.config.peers = []
        · rw [if_pos empty] at same
          rw [imp_iff_right empty, agree_iff after, ← same, goesHome_iff here]
          exact (and_iff_left fun some_peer => absurd empty some_peer).symm
        · rw [if_neg empty] at same
          rw [imp_iff_right empty]
          simp only [empty, false_imp_iff, true_and]
          exact agree_deleted agree after (same.symm.trans tab.symm)
    · rw [if_neg (by omega), if_pos behind] at moved
      rw [if_neg (by omega), if_pos behind, agree_iff after, ← Option.some.inj moved,
        shifts_iff here behind]

theorem keepsRow_still {now : Clock} {action : Action} (leaves : action.putsCursor = false) :
    v.KeepsRow (.act now action) := by
  cases action with
  | enterConfigEdit | configFocusNext | configFocusPrev | configFocusInterface | configFocusPeer
  | addConfigPeer | deleteConfigPeer | confirmYes => cases leaves
  | _ => exact ⟨trivial, fun _ _ => trivial⟩

theorem update_still {action : Action} (leaves : action.putsCursor = false) (s : AppState)
    (comp : ConfigComponent) : comp.update action s = some comp := by
  cases action with
  | enterConfigEdit | configFocusNext | configFocusPrev | configFocusInterface | configFocusPeer
  | addConfigPeer | deleteConfigPeer | confirmYes => cases leaves
  | _ => rfl

/-- An action on the session that there is, if there is one. -/
theorem agree_moved_iff {now : Clock} {action : Action} {f : ConfigEditState → ConfigEditState}
    (opens : v.OpensAtCursor action)
    (after : next.state.configEdit = v.state.configEdit.map f)
    (moves : ∀ edit, v.state.configEdit = some edit → next.state.configEdit = some (f edit) →
      (next.Agree ↔ MovesAlike v.state edit action)) :
    next.Agree ↔ v.KeepsRow (.act now action) := by
  rw [KeepsRow, and_iff_right opens]
  cases session : v.state.configEdit with
  | none =>
    rw [session] at after
    exact iff_of_true (agree_idle after) fun _ there => by cases there
  | some edit =>
    rw [session, Option.map_some] at after
    rw [moves edit session after]
    constructor
    · intro alike edit' same
      cases same
      exact alike
    · exact fun alike => alike edit rfl

/-- A move that the tab makes with the session, on a connection that is viewed. -/
theorem agree_followed {f : ConfigEditState → ConfigEditState}
    {g : ConfigComponent → ConfigComponent} (agree : edit.cursor = v.config)
    (after : next.state.configEdit = some (f edit)) (leaves : (f edit).cursor ≠ edit.cursor)
    {viewed : Option ConnectionView} (found : viewedConnection v.state = some viewed)
    (moved : (if viewed.isSome then g v.config else v.config) = next.config) :
    next.Agree ↔ v.state.minVisible.isSome ∧ (f edit).cursor = g edit.cursor := by
  rw [agree_iff after, ← moved, ← agree]
  rcases viewedConnection_cases found with ⟨none, rfl⟩ | ⟨some, conn, _, rfl⟩
  · exact iff_of_false leaves (by simp [none])
  · rw [if_pos Option.isSome_some, and_iff_right some]

theorem fields_cursor (edit : ConfigEditState) :
    edit.cursor.fields = fieldsForSection edit.focusedSection false := rfl

theorem focusNext_alike (edit : ConfigEditState) : (focusNext edit).cursor = edit.cursor.focusNext ↔
    (edit.focusedFieldIdx + 1) % (focusedFields edit).length =
      (edit.focusedFieldIdx + 1) % (fieldsForSection edit.focusedSection false).length := by
  rw [ConfigComponent.focusNext_eq, fields_cursor, ConfigEditState.cursor, ConfigComponent.mk.injEq]
  exact and_iff_right rfl

/-- Only the fields of an unconfirmed peer are more than the tab counts. -/
theorem length_focusedFields (edit : ConfigEditState) : (focusedFields edit).length =
    (fieldsForSection edit.focusedSection false).length + if isNewFocus edit then 1 else 0 := by
  rw [focusedFields]
  cases here : edit.focusedSection with
  | interface =>
    have old : isNewFocus edit = false := by rw [isNewFocus, here]
    rw [old]
    rfl
  | peer j => cases isNewFocus edit <;> rfl

theorem focusPrev_alike (edit : ConfigEditState) : (focusPrev edit).cursor = edit.cursor.focusPrev ↔
    (isNewFocus edit → edit.focusedFieldIdx ≠ 0) := by
  have some_field : 1 < (fieldsForSection edit.focusedSection false).length := one_lt_fields _ _
  have counts := length_focusedFields edit
  have cursor : (focusPrev edit).cursor = ⟨edit.focusedSection, if edit.focusedFieldIdx = 0
      then (focusedFields edit).length - 1 else edit.focusedFieldIdx - 1⟩ := rfl
  rw [ConfigComponent.focusPrev_eq, fields_cursor, cursor, ConfigComponent.mk.injEq]
  change (edit.focusedSection = edit.focusedSection ∧ (if edit.focusedFieldIdx = 0 then (focusedFields edit).length - 1
    else edit.focusedFieldIdx - 1) = if edit.focusedFieldIdx = 0
      then (fieldsForSection edit.focusedSection false).length - 1
      else edit.focusedFieldIdx - 1) ↔ _
  rw [and_iff_right rfl]
  cases new : isNewFocus edit with
  | false =>
    rw [new, if_neg Bool.false_ne_true, Nat.add_zero] at counts
    rw [counts]
    exact iff_of_true rfl fun absent => by cases absent
  | true =>
    rw [new, if_pos rfl] at counts
    rw [imp_iff_right rfl]
    split <;> omega

theorem focusNext_leaves (edit : ConfigEditState) : (focusNext edit).cursor ≠ edit.cursor :=
  fun same => succ_mod_ne (one_lt_fields _ _)
    (congrArg ConfigComponent.focusedFieldIdx same)

theorem focusPrev_leaves (edit : ConfigEditState) : (focusPrev edit).cursor ≠ edit.cursor := by
  intro same
  have many : 1 < (focusedFields edit).length := one_lt_fields _ _
  have place : (if edit.focusedFieldIdx = 0 then (focusedFields edit).length - 1
    else edit.focusedFieldIdx - 1) = edit.focusedFieldIdx :=
      congrArg ConfigComponent.focusedFieldIdx same
  split at place <;> omega

end

theorem agree_opened {sect : ConfigSection} {fieldIdx : Nat} {now : Clock} {s : AppState}
    (agree : v.Agree) (taken : enterConfigEdit sect fieldIdx v.state = some s) :
    (FocusView.mk s v.config).Agree ↔ v.KeepsRow (.act now (.enterConfigEdit sect fieldIdx)) := by
  have opens : v.KeepsRow (.act now (.enterConfigEdit sect fieldIdx)) ↔
      ((v.state.minVisible.bind v.state.findConnection).isSome → v.config = ⟨sect, fieldIdx⟩) :=
    and_iff_left fun _ _ => trivial
  rw [opens]
  rw [enterConfigEdit] at taken
  cases least : v.state.minVisible with
  | none =>
    rw [least] at taken
    cases taken
    exact iff_of_true agree fun viewed => by cases viewed
  | some name =>
    rw [least] at taken
    rw [Option.bind_some]
    cases found : v.state.findConnection name with
    | none => simp [found] at taken
    | some conn =>
      simp only [found] at taken
      cases taken
      rw [agree_iff rfl, imp_iff_right Option.isSome_some]
      exact eq_comm

theorem agree_added {now : Clock} {s : AppState} (agree : v.Agree)
    (taken : dispatch now .addConfigPeer v.state = some s) :
    (FocusView.mk s v.config).Agree ↔ v.KeepsRow (.act now .addConfigPeer) := by
  cases taken
  refine agree_moved_iff (f := addConfigPeer) trivial ?_ fun edit session after => ?_
  · rw [inSession]
    cases session : v.state.configEdit with
    | none => exact session
    | some edit => rfl
  · rw [agree_iff after, ← agree edit session, ConfigEditState.cursor, ConfigEditState.cursor,
      ConfigComponent.mk.injEq, MovesAlike]
    exact and_congr eq_comm eq_comm

omit [Externals] in
theorem agree_confirmed {now : Clock} (agree : v.Agree) :
    (FocusView.mk (confirmYes v.state) v.config).Agree ↔ v.KeepsRow (.act now .confirmYes) := by
  rw [confirmYes]
  split
  case h_1 message i pending =>
    refine agree_moved_iff (f := deleteConfigPeer i) trivial rfl fun edit session after => ?_
    rw [agree_deleted (agree edit session) after rfl, MovesAlike, pending]
    simp
  case h_2 other =>
    refine iff_of_true agree ⟨trivial, fun edit session message i pending => ?_⟩
    exact absurd pending (other message i)

theorem agree_act_iff {now : Clock} {action : Action} (agree : v.Agree)
    (taken : v.step (.act now action) = some next) :
    next.Agree ↔ v.KeepsRow (.act now action) := by
  obtain ⟨s, dispatched, updated⟩ := Option.bind_eq_some_iff.mp taken
  obtain ⟨config, moved, rfl⟩ := Option.map_eq_some_iff.mp updated
  cases leaves : action.putsCursor with
  | false =>
    refine iff_of_true ?_ (keepsRow_still leaves)
    intro edit' after
    obtain ⟨edit, session, kept⟩ := cursor_kept leaves dispatched after
    rw [update_still leaves] at moved
    cases moved
    rw [← agree edit session, ConfigEditState.cursor, ConfigEditState.cursor, kept.sect,
      kept.fieldIdx]
  | true =>
    cases action with
    | enterConfigEdit sect fieldIdx =>
      cases moved
      exact agree_opened agree dispatched
    | configFocusNext =>
      cases dispatched
      refine agree_moved_iff trivial rfl fun edit session after => ?_
      obtain ⟨viewed, found, same⟩ := Option.map_eq_some_iff.mp moved
      rw [MovesAlike, ← focusNext_alike]
      exact agree_followed (agree edit session) after (focusNext_leaves edit) found same
    | configFocusPrev =>
      cases dispatched
      refine agree_moved_iff trivial rfl fun edit session after => ?_
      obtain ⟨viewed, found, same⟩ := Option.map_eq_some_iff.mp moved
      rw [MovesAlike, ← focusPrev_alike]
      exact agree_followed (agree edit session) after (focusPrev_leaves edit) found same
    | configFocusInterface | configFocusPeer =>
      cases dispatched
      cases moved
      refine agree_moved_iff trivial rfl fun edit session after => ?_
      exact iff_of_true ((agree_iff after).mpr rfl) trivial
    | addConfigPeer =>
      cases moved
      exact agree_added agree dispatched
    | deleteConfigPeer i =>
      cases dispatched
      refine agree_moved_iff trivial rfl fun edit session after => ?_
      exact agree_peerDeleted (agree edit session) after moved
    | confirmYes =>
      cases dispatched
      cases moved
      exact agree_confirmed agree
    | _ => cases leaves

/-- The cursors agree after an event exactly when it moves both to one row. -/
theorem agree_step_iff {event : FocusEvent} (agree : v.Agree) (taken : v.step event = some next) :
    next.Agree ↔ v.KeepsRow event := by
  cases event with
  | act now action => exact agree_act_iff agree taken
  | key key =>
    obtain ⟨⟨config, made⟩, handled, rfl⟩ := Option.map_eq_some_iff.mp taken
    rw [KeepsRow, ← ConfigComponent.handleKey_iff handled]
    cases session : v.state.configEdit with
    | none => exact iff_of_true (agree_idle session) fun none => by cases none
    | some edit =>
      have after : (FocusView.mk v.state config).state.configEdit = some edit := session
      rw [imp_iff_right Option.isSome_some]
      refine (agree_iff after).trans ?_
      rw [agree edit session]
      exact eq_comm
  | reload config =>
    cases taken
    exact iff_of_true agree trivial

/-! ## The peer that the cursor is on -/

/-- After the deletion of another peer, the session is on the same field of the peer it was on. -/
def FollowsPeer (v : FocusView) (event : FocusEvent) : Prop :=
  ∀ now action edit i j, event = .act now action → v.state.configEdit = some edit →
    deletedPeer v.state action = some i → edit.focusedSection = .peer j → j ≠ i →
      ∀ next, v.step event = some next → ∃ edit', next.state.configEdit = some edit' ∧
        edit'.focusedSection = .peer (if i < j then j - 1 else j) ∧
          focusedField edit' = focusedField edit

/-- Another peer is deleted only behind that of the cursor, or while the cursor is on a field of the
last peer. -/
def DeletesBehind (v : FocusView) (event : FocusEvent) : Prop :=
  ∀ now action edit i j, event = .act now action → v.state.configEdit = some edit →
    deletedPeer v.state action = some i → edit.focusedSection = .peer j → j ≠ i →
      (j < i ∨ j + 1 = edit.draft.peers.length) ∧ OnField edit

omit [Externals] in
theorem deletesElsewhere_iff {edit : ConfigEditState} {i j : Nat}
    (inside : i < edit.draft.peers.length) (here : edit.focusedSection = .peer j) (other : j ≠ i) :
    DeletesElsewhere i edit ↔ (j < i ∨ j + 1 = edit.draft.peers.length) ∧ OnField edit := by
  rw [DeletesElsewhere, here]
  constructor
  · rintro ⟨_, side, field⟩
    exact ⟨by omega, field⟩
  · rintro ⟨side, field⟩
    exact ⟨by omega, by omega, field⟩

theorem deleted_session {now : Clock} {action : Action} {edit : ConfigEditState} {i : Nat}
    {s t : AppState} (session : s.configEdit = some edit) (deletes : deletedPeer s action = some i)
    (taken : dispatch now action s = some t) :
    i < edit.draft.peers.length ∧ t.configEdit = some (deleteConfigPeer i edit) := by
  have inside {i k : Nat} (deletes : peerInside s k = some i) :
      k = i ∧ i < edit.draft.peers.length := by
    rw [peerInside, session, Option.bind_some] at deletes
    split at deletes <;> cases deletes
    case isTrue inside => exact ⟨rfl, inside⟩
  cases action with
  | deleteConfigPeer k =>
    obtain ⟨rfl, inside⟩ := inside deletes
    cases taken
    refine ⟨inside, ?_⟩
    rw [editSession, session]
    rfl
  | confirmYes =>
    rw [deletedPeer] at deletes
    split at deletes
    case h_1 message k pending =>
      obtain ⟨rfl, inside⟩ := inside deletes
      cases taken
      refine ⟨inside, ?_⟩
      rw [confirmYes, pending]
      simp only [editSession, session]
      rfl
    case h_2 => cases deletes
  | _ => cases deletes

theorem followsPeer_iff {event : FocusEvent} (taken : v.step event = some next) :
    v.FollowsPeer event ↔ v.DeletesBehind event := by
  rw [FollowsPeer, DeletesBehind]
  constructor
  · intro follows now action edit i j same session deletes here other
    obtain ⟨edit', after, sect, field⟩ := follows now action edit i j same session deletes here other
      next taken
    subst same
    obtain ⟨s, dispatched, updated⟩ := Option.bind_eq_some_iff.mp taken
    obtain ⟨config, _, rfl⟩ := Option.map_eq_some_iff.mp updated
    obtain ⟨inside, deleted⟩ := deleted_session session deletes dispatched
    cases deleted.symm.trans after
    rw [← deletesElsewhere_iff inside here other, ← delete_target inside, commitTarget, Target.delete]
    simp only [here, if_neg other, commitTarget, field, sect]
  · intro behind now action edit i j same session deletes here other next' taken'
    have elsewhere := behind now action edit i j same session deletes here other
    subst same
    obtain ⟨s, dispatched, updated⟩ := Option.bind_eq_some_iff.mp taken'
    obtain ⟨config, _, rfl⟩ := Option.map_eq_some_iff.mp updated
    obtain ⟨inside, deleted⟩ := deleted_session session deletes dispatched
    rw [← deletesElsewhere_iff inside here other, ← delete_target inside, commitTarget,
      Target.delete] at elsewhere
    simp only [here, if_neg other, Option.some.injEq, commitTarget, Target.mk.injEq] at elsewhere
    exact ⟨_, deleted, elsewhere.2.symm, elsewhere.1.symm⟩

/-- Over any run, each deletion of another peer leaves the cursor on its own exactly when the peer
goes behind it or the cursor is on the last, and the two cursors are at one row in every state
exactly when each event moves both to one row. -/
theorem focus_follows_iff (config : AppConfig) (history : List BenchmarkRun)
    (events : List FocusEvent) :
    (Along step FollowsPeer events (start config history) ↔
      Along step DeletesBehind events (start config history)) ∧
    (Always step Agree events (start config history) ↔
      Along step KeepsRow events (start config history)) := by
  constructor
  · exact along_congr (fun _ _ _ _ _ => trivial) (fun _ _ _ _ taken => followsPeer_iff taken)
      events trivial
  · exact always_iff_of_step (fun _ _ _ agree taken => agree_step_iff agree taken) events
      (agree_idle rfl)

end FocusView

namespace FocusSample

def branches : AppConfig :=
  AppConfig.insert default "home" { ImportSample.wgNamed "home" with peers := [newPeer, newPeer, newPeer] }

/-- Peer 1 is in focus when peer 0 is deleted. -/
def deletesBefore : List FocusEvent := [.act ⟨0, 0⟩ (.enterConfigEdit .interface 0),
  .act ⟨0, 0⟩ (.configFocusPeer 1), .act ⟨0, 0⟩ (.deleteConfigPeer 0)]

end FocusSample

open FocusSample ImportSample in
/-- The session stays at index 1, which is the next peer now; the tab goes to index 0. -/
theorem focus_left_behind : ¬∀ config history events,
    Along (@FocusView.step externals) (@FocusView.FollowsPeer externals) events
        (.start config history) ∧
      Always (@FocusView.step externals) FocusView.Agree events (.start config history) := by
  intro each
  have agree := (each branches [] deletesBefore).2
  have apart : ((run (@FocusView.step externals) deletesBefore (.start branches [])).bind fun v =>
      v.state.configEdit.map fun edit => (edit.cursor, v.config)) =
        some (⟨.peer 1, 0⟩, ⟨.peer 0, 0⟩) := by
    decide +kernel
  obtain ⟨v, reached, shown⟩ := Option.bind_eq_some_iff.mp apart
  obtain ⟨edit, session, cursors⟩ := Option.map_eq_some_iff.mp shown
  have same := agree.last reached edit session
  rw [(Prod.mk.inj cursors).1, (Prod.mk.inj cursors).2] at same
  cases same

/-! ## The cursors in the program -/

theorem focus_simulates [Externals] : Simulates FocusView.step Loop.focus where
  dispatched {now action l next} taken := by
    obtain ⟨s, dispatched, updated⟩ := Option.bind_eq_some_iff.mp taken
    obtain ⟨bundle, bundled, rfl⟩ := Option.map_eq_some_iff.mp updated
    obtain ⟨config, moved, rfl⟩ := Option.map_eq_some_iff.mp bundled
    refine ⟨[.act now action], ?_⟩
    rw [run_cons, FocusView.step, Loop.focus, dispatched, Option.bind_some, moved]
    rfl
  resolved {key l bundle made} resolved := by
    rcases resolveKey_bundle resolved with rfl | ⟨config, handled, rfl⟩ | rfl
    · exact ⟨[], rfl⟩
    · refine ⟨[.key key], ?_⟩
      rw [run_cons, FocusView.step, Loop.focus, handled]
      rfl
    · exact ⟨[], rfl⟩
  reloaded config l := ⟨[.reload config], rfl⟩

end FerroWg.Tui
