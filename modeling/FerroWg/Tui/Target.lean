import FerroWg.Lib.Run
import FerroWg.Tui.EditMode
import FerroWg.Tui.Editor

/-!
# Where an open buffer goes

The field and the section that Enter commits to are read off the cursor. The target is a ghost: it
is what the buffer was opened for, and it moves with its peer when others are deleted.
-/

namespace FerroWg.Tui

open Lib

structure Target where
  field : EditableField
  sect : ConfigSection
  deriving DecidableEq, Repr

/-- What Enter checks a buffer as, and where it writes it. -/
def commitTarget (edit : ConfigEditState) : Target := ⟨focusedField edit, edit.focusedSection⟩

/-- A target after the peer at `i` is deleted, unless that was its own. -/
def Target.delete (i : Nat) (t : Target) : Option Target :=
  match t.sect with
  | .interface => some t
  | .peer j => if j = i then none else some { t with sect := .peer (if i < j then j - 1 else j) }

def peerInside (s : AppState) (i : Nat) : Option Nat :=
  s.configEdit.bind fun edit => if i < edit.draft.peers.length then some i else none

/-- The peer of the draft that an action deletes. -/
def deletedPeer (s : AppState) (action : Action) : Option Nat :=
  match action with
  | .deleteConfigPeer i => peerInside s i
  | .confirmYes =>
    match s.pendingConfirm with
    | some ⟨_, .deletePeer i⟩ => peerInside s i
    | _ => none
  | _ => none

def openedAt (sect : ConfigSection) (fieldIdx : Nat) : Target :=
  ⟨(fieldsForSection sect false)[fieldIdx]?.getD .listenPort, sect⟩

/-- What a buffer is opened for, if an action opens one. -/
def openedTarget (s : AppState) (action : Action) : Option Target :=
  match action with
  | .enterConfigEdit sect fieldIdx => s.minVisible.map fun _ => openedAt sect fieldIdx
  | .addConfigPeer =>
    s.configEdit.map fun edit => ⟨.peerPublicKey, .peer edit.draft.peers.length⟩
  | _ => none

def noteTarget (s : AppState) (label : Clock × Action) (target : Option Target) : Option Target :=
  (openedTarget s label.2).or
    (match deletedPeer s label.2 with
      | some i => target.bind (Target.delete i)
      | none => target)

/-- Enter would commit an open buffer where it was opened. -/
def WhereOpened (s : AppState × Option Target) : Prop :=
  ∀ edit, s.1.configEdit = some edit → edit.editBuffer.isSome = true →
    s.2 = some (commitTarget edit)

/-- A cursor that is on a field of its section. -/
def OnField (edit : ConfigEditState) : Prop := edit.focusedFieldIdx < (focusedFields edit).length

/-- The deletions that leave the cursor where it is: of an interface field, those that leave some
peer; of a peer's field, those of a later peer, or of an earlier one if the peer is the last. -/
def DeletesElsewhere (i : Nat) (edit : ConfigEditState) : Prop :=
  match edit.focusedSection with
  | .interface =>
    if edit.draft.peers.length = 1 then edit.focusedFieldIdx = 0 ∨ ¬ OnField edit else OnField edit
  | .peer j =>
    1 < edit.draft.peers.length ∧ (j < i ∨ i < j ∧ j + 1 = edit.draft.peers.length) ∧ OnField edit

/-- The moves of the cursor that end where they began. Past the last field the cursor counts as
the listen port. -/
def CursorStays (edit : ConfigEditState) : Action → Prop
  | .configFocusNext => edit.focusedSection = .interface ∧ ¬ OnField edit ∧
    (edit.focusedFieldIdx + 1) % interfaceFields.length = 0
  | .configFocusPrev => (focusedFields edit).length < edit.focusedFieldIdx
  | .configFocusInterface =>
    edit.focusedSection = .interface ∧ (edit.focusedFieldIdx = 0 ∨ ¬ OnField edit)
  | .configFocusPeer i => edit.focusedSection = .peer i ∧ edit.focusedFieldIdx = 0
  | _ => True

/-- While a buffer is open, no action moves the cursor away and no deletion moves the peers under
it. -/
def HoldsStill (s : AppState) (label : Clock × Action) : Prop :=
  ∀ edit, s.configEdit = some edit → edit.editBuffer.isSome = true →
    CursorStays edit label.2 ∧ ∀ i, deletedPeer s label.2 = some i → DeletesElsewhere i edit

/-! ## Fields by their place in a section -/

theorem fieldsForSection_nodup (sect : ConfigSection) (new : Bool) :
    (fieldsForSection sect new).Nodup := by
  have fields : interfaceFields.Nodup ∧ peerFieldsExisting.Nodup ∧ peerFieldsNew.Nodup := by decide
  cases sect with
  | interface => exact fields.1
  | peer i => cases new with
    | false => exact fields.2.1
    | true => exact fields.2.2

theorem one_lt_fields (sect : ConfigSection) (new : Bool) :
    1 < (fieldsForSection sect new).length := by
  cases sect with
  | interface => decide +revert
  | peer i => cases new <;> exact Nat.succ_lt_succ (Nat.succ_pos _)

/-- The field that stands for every place past the last one is the first of the interface. -/
theorem listenPort_at (sect : ConfigSection) (new : Bool) (i : Nat) :
    (fieldsForSection sect new)[i]? = some .listenPort ↔ sect = .interface ∧ i = 0 := by
  cases sect with
  | interface =>
    have first : interfaceFields[0]? = some .listenPort := rfl
    simp only [fieldsForSection, true_and]
    refine ⟨fun here => ?_, fun zero => zero ▸ first⟩
    obtain ⟨inside, _⟩ := List.getElem?_eq_some_iff.mp here
    exact (List.getElem?_inj inside (fieldsForSection_nodup .interface new)).mp
      (here.trans first.symm)
  | peer j =>
    have absent : EditableField.listenPort ∉ peerFieldsExisting ∧
        EditableField.listenPort ∉ peerFieldsNew := by decide
    refine iff_of_false (fun here => ?_) (by simp)
    have member := List.mem_of_getElem? here
    cases new with
    | false => exact absent.1 member
    | true => exact absent.2 member

def fieldAt (sect : ConfigSection) (new : Bool) (i : Nat) : EditableField :=
  (fieldsForSection sect new)[i]?.getD .listenPort

/-- Two places have the same field if they are one place, or both count as the listen port. -/
theorem fieldAt_eq_iff {sect : ConfigSection} {new : Bool} {i j : Nat}
    (inside : i < (fieldsForSection sect new).length) :
    fieldAt sect new i = fieldAt sect new j ↔
      i = j ∨ sect = .interface ∧ i = 0 ∧ (fieldsForSection sect new).length ≤ j := by
  have nodup := fieldsForSection_nodup sect new
  rcases Nat.lt_or_ge j (fieldsForSection sect new).length with insideJ | outside
  · simp only [fieldAt, List.getElem?_eq_getElem inside, List.getElem?_eq_getElem insideJ,
      Option.getD_some, nodup.getElem_inj_iff]
    simp [Nat.not_le.mpr insideJ]
  · simp only [fieldAt, List.getElem?_eq_getElem inside, List.getElem?_eq_none outside,
      Option.getD_some, Option.getD_none]
    have place := listenPort_at sect new i
    rw [List.getElem?_eq_getElem inside, Option.some.injEq] at place
    have apart : i ≠ j := by omega
    simp [place, apart, outside]

/-! ## Moves of the cursor -/

def targetAt (sect : ConfigSection) (new : Bool) (i : Nat) : Target := ⟨fieldAt sect new i, sect⟩

theorem commitTarget_eq (edit : ConfigEditState) :
    commitTarget edit = targetAt edit.focusedSection (isNewFocus edit) edit.focusedFieldIdx := rfl

theorem targetAt_eq_iff {sect : ConfigSection} {new : Bool} {i j : Nat}
    (inside : i < (fieldsForSection sect new).length) :
    targetAt sect new i = targetAt sect new j ↔
      i = j ∨ sect = .interface ∧ i = 0 ∧ (fieldsForSection sect new).length ≤ j := by
  simp [targetAt, fieldAt_eq_iff inside]

theorem targetAt_ne {sect sect' : ConfigSection} {new new' : Bool} {i j : Nat}
    (apart : sect ≠ sect') : targetAt sect new i ≠ targetAt sect' new' j :=
  fun same => apart (congrArg Target.sect same)

/-- All places past the last field count as one. -/
theorem targetAt_outside {sect : ConfigSection} {new : Bool} {i j : Nat}
    (outside : (fieldsForSection sect new).length ≤ i)
    (outside' : (fieldsForSection sect new).length ≤ j) :
    targetAt sect new i = targetAt sect new j := by
  simp [targetAt, fieldAt, List.getElem?_eq_none outside, List.getElem?_eq_none outside']

variable {edit : ConfigEditState}

theorem fields_interface (here : edit.focusedSection = .interface) :
    focusedFields edit = interfaceFields := by
  rw [focusedFields, here]
  rfl

theorem succ_mod_ne {i n : Nat} (many : 1 < n) : (i + 1) % n ≠ i := by
  intro same
  have inside := Nat.mod_lt (i + 1) (Nat.zero_lt_of_lt many)
  obtain before | last : i + 1 < n ∨ i + 1 = n := by omega
  · rw [Nat.mod_eq_of_lt before] at same
    omega
  · rw [last, Nat.mod_self] at same
    omega

theorem focusNext_target :
    commitTarget (focusNext edit) = commitTarget edit ↔ CursorStays edit .configFocusNext := by
  have many : 1 < (focusedFields edit).length := one_lt_fields _ _
  have inside : (edit.focusedFieldIdx + 1) % (focusedFields edit).length <
      (focusedFields edit).length := Nat.mod_lt _ (by omega)
  have moved : commitTarget (focusNext edit) = targetAt edit.focusedSection (isNewFocus edit)
      ((edit.focusedFieldIdx + 1) % (focusedFields edit).length) := rfl
  have apart : (edit.focusedFieldIdx + 1) % (focusedFields edit).length ≠ edit.focusedFieldIdx :=
    succ_mod_ne many
  rw [moved, commitTarget_eq, targetAt_eq_iff inside]
  simp only [apart, false_or, CursorStays, OnField, Nat.not_lt]
  constructor
  · rintro ⟨here, zero, outside⟩
    exact ⟨here, outside, by rwa [fields_interface here] at zero⟩
  · rintro ⟨here, outside, zero⟩
    exact ⟨here, by rwa [fields_interface here], outside⟩

theorem focusPrev_target :
    commitTarget (focusPrev edit) = commitTarget edit ↔ CursorStays edit .configFocusPrev := by
  have many : 1 < (focusedFields edit).length := one_lt_fields _ _
  have moved : commitTarget (focusPrev edit) = targetAt edit.focusedSection (isNewFocus edit)
      (if edit.focusedFieldIdx = 0 then (focusedFields edit).length - 1
        else edit.focusedFieldIdx - 1) := rfl
  have fields : (fieldsForSection edit.focusedSection (isNewFocus edit)).length =
      (focusedFields edit).length := rfl
  rw [moved, commitTarget_eq, CursorStays]
  rcases Nat.lt_or_ge (focusedFields edit).length edit.focusedFieldIdx with far | near
  · refine iff_of_true (targetAt_outside ?_ far.le) far
    split <;> omega
  · refine iff_of_false ?_ (by omega)
    rw [targetAt_eq_iff (by rw [fields]; split <;> omega)]
    rintro (same | ⟨_, zero, outside⟩)
    · split at same <;> omega
    · rw [fields] at outside
      split at zero <;> omega

theorem focusInterface_target :
    commitTarget (focusOn .interface edit) = commitTarget edit ↔
      CursorStays edit .configFocusInterface := by
  have moved : commitTarget (focusOn .interface edit) = targetAt .interface false 0 := rfl
  rw [moved, commitTarget_eq, CursorStays]
  by_cases here : edit.focusedSection = .interface
  · have old : isNewFocus edit = false := by rw [isNewFocus, here]
    rw [here, old, targetAt_eq_iff (Nat.zero_lt_of_lt (one_lt_fields _ _))]
    simp [OnField, fields_interface here, fieldsForSection, eq_comm]
  · have elsewhere : targetAt .interface false 0 ≠
        targetAt edit.focusedSection (isNewFocus edit) edit.focusedFieldIdx :=
      targetAt_ne (Ne.symm here)
    simp [elsewhere, here]

theorem focusPeer_target (i : Nat) :
    commitTarget (focusOn (.peer i) edit) = commitTarget edit ↔
      CursorStays edit (.configFocusPeer i) := by
  have moved : commitTarget (focusOn (.peer i) edit) =
      targetAt (.peer i) (i ∈ edit.newPeerIndices) 0 := rfl
  rw [moved, commitTarget_eq, CursorStays]
  by_cases here : edit.focusedSection = .peer i
  · have new : isNewFocus edit = decide (i ∈ edit.newPeerIndices) := by rw [isNewFocus, here]
    rw [here, new, targetAt_eq_iff (Nat.zero_lt_of_lt (one_lt_fields _ _))]
    simp [eq_comm]
  · have elsewhere : targetAt (.peer i) (i ∈ edit.newPeerIndices) 0 ≠
        targetAt edit.focusedSection (isNewFocus edit) edit.focusedFieldIdx :=
      targetAt_ne (Ne.symm here)
    simp [elsewhere, here]

/-! ## Deletions -/

theorem peers_left {i : Nat} (inside : i < edit.draft.peers.length)
    (more : 1 < edit.draft.peers.length) : edit.draft.peers.eraseIdx i ≠ [] := by
  rw [← List.length_pos_iff, List.length_eraseIdx_of_lt inside]
  omega

theorem delete_focus_last {i : Nat} (inside : i < edit.draft.peers.length)
    (last : edit.draft.peers.length = 1) :
    (deleteConfigPeer i edit).focusedSection = .interface ∧
      (deleteConfigPeer i edit).focusedFieldIdx = 0 := by
  have none : edit.draft.peers.eraseIdx i = [] := by
    rw [← List.length_eq_zero_iff, List.length_eraseIdx_of_lt inside, last]
  rw [deleteConfigPeer, if_pos inside, clampFocus, if_pos none]
  exact ⟨rfl, rfl⟩

theorem delete_focus_interface {i : Nat} (inside : i < edit.draft.peers.length)
    (more : 1 < edit.draft.peers.length) (here : edit.focusedSection = .interface) :
    (deleteConfigPeer i edit).focusedSection = .interface ∧
      (deleteConfigPeer i edit).focusedFieldIdx =
        min edit.focusedFieldIdx (interfaceFields.length - 1) := by
  rw [deleteConfigPeer, if_pos inside, clampFocus, if_neg (peers_left inside more)]
  simp only [here, true_and]
  rfl

/-- The cursor is clamped to the peers that are left, which need not be the shift of its peer. -/
theorem delete_focus_peer {i j : Nat} (inside : i < edit.draft.peers.length)
    (more : 1 < edit.draft.peers.length) (here : edit.focusedSection = .peer j) :
    let sect := ConfigSection.peer (min j (edit.draft.peers.length - 2))
    let new : Bool := min j (edit.draft.peers.length - 2) ∈ shiftIndices i edit.newPeerIndices
    (deleteConfigPeer i edit).focusedSection = sect ∧ isNewFocus (deleteConfigPeer i edit) = new ∧
      (deleteConfigPeer i edit).focusedFieldIdx =
        min edit.focusedFieldIdx ((fieldsForSection sect new).length - 1) := by
  rw [deleteConfigPeer, if_pos inside, clampFocus, if_neg (peers_left inside more)]
  simp only [here, List.length_eraseIdx_of_lt inside, Nat.sub_sub, true_and]
  exact ⟨rfl, rfl⟩

theorem delete_target_last {i : Nat} (inside : i < edit.draft.peers.length)
    (last : edit.draft.peers.length = 1) :
    commitTarget (deleteConfigPeer i edit) = targetAt .interface false 0 := by
  obtain ⟨sect, place⟩ := delete_focus_last inside last
  rw [commitTarget_eq, isNewFocus, sect, place]

theorem delete_target_interface {i : Nat} (inside : i < edit.draft.peers.length)
    (more : 1 < edit.draft.peers.length) (here : edit.focusedSection = .interface) :
    commitTarget (deleteConfigPeer i edit) =
      targetAt .interface false (min edit.focusedFieldIdx (interfaceFields.length - 1)) := by
  obtain ⟨sect, place⟩ := delete_focus_interface inside more here
  rw [commitTarget_eq, isNewFocus, sect, place]

theorem delete_target_peer {i j : Nat} (inside : i < edit.draft.peers.length)
    (more : 1 < edit.draft.peers.length) (here : edit.focusedSection = .peer j) :
    let sect := ConfigSection.peer (min j (edit.draft.peers.length - 2))
    let new : Bool := min j (edit.draft.peers.length - 2) ∈ shiftIndices i edit.newPeerIndices
    commitTarget (deleteConfigPeer i edit) = targetAt sect new
      (min edit.focusedFieldIdx ((fieldsForSection sect new).length - 1)) := by
  obtain ⟨sect, new, place⟩ := delete_focus_peer inside more here
  rw [commitTarget_eq, sect, new, place]

/-- A clamped place is the same one just when it was on a field. -/
theorem targetAt_clamp {sect : ConfigSection} {new : Bool} {i : Nat} :
    targetAt sect new i = targetAt sect new (min i ((fieldsForSection sect new).length - 1)) ↔
      i < (fieldsForSection sect new).length := by
  have many := one_lt_fields sect new
  rw [eq_comm, targetAt_eq_iff (by omega)]
  constructor
  · rintro (same | ⟨_, zero, _⟩) <;> omega
  · exact fun inside => .inl (by omega)

theorem delete_interface_iff {i : Nat} (inside : i < edit.draft.peers.length)
    (here : edit.focusedSection = .interface) :
    (commitTarget edit).delete i = some (commitTarget (deleteConfigPeer i edit)) ↔
      DeletesElsewhere i edit := by
  have old : isNewFocus edit = false := by rw [isNewFocus, here]
  have kept : (commitTarget edit).delete i =
      some (targetAt .interface false edit.focusedFieldIdx) := by
    rw [commitTarget_eq, here, old]
    rfl
  simp only [kept, Option.some.injEq, DeletesElsewhere, here, OnField, fields_interface here]
  obtain last | more : edit.draft.peers.length = 1 ∨ 1 < edit.draft.peers.length := by omega
  · rw [delete_target_last inside last, if_pos last, eq_comm,
      targetAt_eq_iff (Nat.zero_lt_of_lt (one_lt_fields _ _))]
    simp [fieldsForSection, eq_comm]
  · rw [delete_target_interface inside more here, if_neg (by omega)]
    exact targetAt_clamp

theorem delete_peer_iff {i j : Nat} (inside : i < edit.draft.peers.length)
    (here : edit.focusedSection = .peer j) :
    (commitTarget edit).delete i = some (commitTarget (deleteConfigPeer i edit)) ↔
      DeletesElsewhere i edit := by
  have new : isNewFocus edit = decide (j ∈ edit.newPeerIndices) := by rw [isNewFocus, here]
  have kept : (commitTarget edit).delete i = if j = i then none else
      some (targetAt (.peer (if i < j then j - 1 else j)) (j ∈ edit.newPeerIndices)
        edit.focusedFieldIdx) := by
    rw [commitTarget_eq, here, new]
    rfl
  simp only [kept, DeletesElsewhere, here]
  rcases eq_or_ne j i with rfl | apart
  · simp
  rw [if_neg apart, Option.some.injEq]
  obtain last | more : edit.draft.peers.length = 1 ∨ 1 < edit.draft.peers.length := by omega
  · rw [delete_target_last inside last]
    exact iff_of_false (targetAt_ne (by simp)) (by omega)
  · rw [delete_target_peer inside more here]
    by_cases same : (if i < j then j - 1 else j) = min j (edit.draft.peers.length - 2)
    · have marked : decide (min j (edit.draft.peers.length - 2) ∈
          shiftIndices i edit.newPeerIndices) = decide (j ∈ edit.newPeerIndices) := by
        have back : (if min j (edit.draft.peers.length - 2) < i then
            min j (edit.draft.peers.length - 2) else min j (edit.draft.peers.length - 2) + 1) = j := by
          split_ifs at same ⊢ <;> omega
        rw [decide_eq_decide, mem_shiftIndices, back]
      have fields : fieldsForSection (.peer (min j (edit.draft.peers.length - 2)))
          (j ∈ edit.newPeerIndices) = focusedFields edit := by
        rw [focusedFields, here, new]
        rfl
      rw [marked, same, targetAt_clamp, fields, OnField]
      split_ifs at same <;> omega
    · apply iff_of_false (targetAt_ne fun sect => same (ConfigSection.peer.inj sect))
      rintro ⟨_, side, _⟩
      split_ifs at same <;> omega

theorem delete_target {i : Nat} (inside : i < edit.draft.peers.length) :
    (commitTarget edit).delete i = some (commitTarget (deleteConfigPeer i edit)) ↔
      DeletesElsewhere i edit := by
  cases here : edit.focusedSection with
  | interface => exact delete_interface_iff inside here
  | peer j => exact delete_peer_iff inside here

/-! ## The steps -/

variable {s t : AppState} {target target' : Option Target}

/-- Without an open buffer there is nothing to aim. -/
theorem whereOpened_closed (closed : ∀ edit, t.configEdit = some edit → edit.editBuffer = none) :
    WhereOpened (t, target') := by
  intro edit session isOpen
  rw [closed edit session] at isOpen
  cases isOpen

theorem whereOpened_session (session : t.configEdit = some edit) :
    WhereOpened (t, target') ↔ (edit.editBuffer.isSome = true → target' = some (commitTarget edit)) := by
  simp [WhereOpened, session]

theorem WhereOpened.congr (aimed : WhereOpened (s, target)) (session : t.configEdit = s.configEdit)
    (same : target' = target) : WhereOpened (t, target') := by
  intro edit there isOpen
  rw [same]
  exact aimed edit (session ▸ there) isOpen

/-- A change of the session that moves neither the cursor nor what is under it. -/
theorem WhereOpened.still {edit' : ConfigEditState} (aimed : WhereOpened (s, target))
    (before : s.configEdit = some edit) (after : t.configEdit = some edit')
    (buffer : edit'.editBuffer.isSome = true → edit.editBuffer.isSome = true)
    (kept : commitTarget edit' = commitTarget edit) : WhereOpened (t, target) := by
  rw [whereOpened_session after, kept]
  exact fun isOpen => aimed edit before (buffer isOpen)

/-- A move of the cursor keeps the aim of an open buffer just when it ends where it began. -/
theorem whereOpened_move {f : ConfigEditState → ConfigEditState} {action : Action} {now : Clock}
    (aimed : WhereOpened (s, target)) (buffer : ∀ edit, (f edit).editBuffer = edit.editBuffer)
    (moves : ∀ edit, commitTarget (f edit) = commitTarget edit ↔ CursorStays edit action)
    (keeps : deletedPeer s action = none) :
    WhereOpened (editSession s f, target) ↔ HoldsStill s (now, action) := by
  rw [HoldsStill]
  cases session : s.configEdit with
  | none => exact iff_of_true (whereOpened_closed (by simp [editSession, session])) (by simp)
  | some edit =>
    have after : (editSession s f).configEdit = some (f edit) := by simp [editSession, session]
    rw [whereOpened_session after, buffer]
    simp only [Option.some.injEq, forall_eq', keeps, reduceCtorEq, false_implies, implies_true,
      and_true]
    refine imp_congr_right fun isOpen => ?_
    rw [show target = _ from aimed edit session isOpen, Option.some.injEq, eq_comm, moves]

/-- A deletion keeps the aim just when it moves no other peer under the cursor. -/
theorem whereOpened_delete {action : Action} {now : Clock} {i : Nat}
    (aimed : WhereOpened (s, target)) (stays : ∀ edit, CursorStays edit action)
    (deletes : deletedPeer s action = peerInside s i)
    (after : t.configEdit = s.configEdit.map (deleteConfigPeer i))
    (noted : target' = match deletedPeer s action with
      | some i => target.bind (Target.delete i)
      | none => target) :
    WhereOpened (t, target') ↔ HoldsStill s (now, action) := by
  rw [HoldsStill]
  rw [noted, deletes, peerInside]
  cases session : s.configEdit with
  | none => exact iff_of_true (whereOpened_closed (by simp [after, session])) (by simp)
  | some edit =>
    rw [session, Option.map_some] at after
    rw [whereOpened_session after, deleteConfigPeer_editBuffer]
    simp only [Option.some.injEq, forall_eq', stays, true_and, Option.bind_some]
    refine imp_congr_right fun isOpen => ?_
    rw [show target = _ from aimed edit session isOpen]
    by_cases inside : i < edit.draft.peers.length
    · simpa [inside] using delete_target inside
    · simp [inside, deleteConfigPeer]

/-- An action that opens a buffer aims it. -/
theorem whereOpened_opened {f : ConfigEditState} (after : t.configEdit = some f)
    (opened : target' = some (commitTarget f)) : WhereOpened (t, target') :=
  (whereOpened_session after).mpr fun _ => opened

variable [Externals]

abbrev targeted := instrument act noteTarget

theorem enterConfigEdit_target {sect : ConfigSection} {fieldIdx : Nat}
    (aimed : WhereOpened (s, target)) (taken : enterConfigEdit sect fieldIdx s = some t) :
    WhereOpened (t, (openedTarget s (.enterConfigEdit sect fieldIdx)).or target) := by
  rw [enterConfigEdit] at taken
  rw [openedTarget]
  cases least : s.minVisible with
  | none =>
    rw [least] at taken
    cases taken
    exact aimed
  | some name =>
    rw [least] at taken
    cases found : s.findConnection name with
    | none => simp [found] at taken
    | some conn =>
      simp only [found] at taken
      cases taken
      apply whereOpened_opened rfl
      cases sect <;> rfl

theorem configEditKey_target {edit : ConfigEditState} (key : KeyEvent)
    (session : s.configEdit = some edit) (aimed : WhereOpened (s, target)) :
    WhereOpened (configEditKey key edit s, target) := by
  have typed : (typeIntoBuffer key edit).editBuffer.isSome = true →
      edit.editBuffer.isSome = true := by simp [typeIntoBuffer]
  rw [configEditKey, finishField]
  split
  · split
    · exact whereOpened_closed fun edit there => by cases there; rfl
    · exact aimed.still session rfl typed rfl
  · exact whereOpened_closed fun edit there => by cases there; rfl
  · exact aimed.still session rfl typed rfl

theorem previewConfig_target {edit : ConfigEditState} (session : s.configEdit = some edit)
    (aimed : WhereOpened (s, target)) : WhereOpened (previewConfig edit s, target) := by
  rw [previewConfig]
  split_ifs
  · exact aimed.still session rfl id rfl
  · exact aimed
  · exact aimed.congr rfl rfl

omit [Externals] in
theorem leaveEditField_target (aimed : WhereOpened (s, target)) :
    WhereOpened (leaveEditField s, target) := by
  rw [leaveEditField]
  split
  · refine whereOpened_closed fun edit there => ?_
    obtain ⟨before, _, rfl⟩ := Option.map_eq_some_iff.mp there
    rfl
  · exact aimed

/-- An action keeps the aim of an open buffer unless it moves the cursor or the peers under it. -/
theorem whereOpened_dispatch {now : Clock} {action : Action} (aimed : WhereOpened (s, target))
    (taken : dispatch now action s = some t) :
    WhereOpened (t, noteTarget s (now, action) target) ↔ HoldsStill s (now, action) := by
  have idle {t : AppState} (stays : ∀ edit, CursorStays edit action)
      (none : deletedPeer s action = none)
      (kept : WhereOpened (t, (openedTarget s action).or target)) :
      WhereOpened (t, noteTarget s (now, action) target) ↔ HoldsStill s (now, action) := by
    refine iff_of_true ?_ (fun edit _ _ => ⟨stays edit, by simp [none]⟩)
    simpa only [noteTarget, none] using kept
  cases action with
  | enterConfigEdit sect fieldIdx =>
    exact idle (fun _ => trivial) rfl (enterConfigEdit_target aimed taken)
  | addConfigPeer =>
    apply idle (fun _ => trivial) rfl
    cases taken
    rw [inSession]
    cases session : s.configEdit with
    | none => simpa [openedTarget, session] using aimed
    | some edit =>
      apply whereOpened_opened rfl
      simp [openedTarget, session, commitTarget, focusedField, focusedFields, isNewFocus,
        addConfigPeer, fieldsForSection, peerFieldsNew]
  | configEditKey key =>
    apply idle (fun _ => trivial) rfl
    cases taken
    rw [inSession]
    cases session : s.configEdit with
    | none => exact aimed
    | some edit => exact configEditKey_target key session aimed
  | previewConfig =>
    apply idle (fun _ => trivial) rfl
    cases taken
    rw [inSession]
    cases session : s.configEdit with
    | none => exact aimed
    | some edit => exact previewConfig_target session aimed
  | nextTab | prevTab | selectTab =>
    apply idle (fun _ => trivial) rfl
    cases taken
    exact (leaveEditField_target aimed).congr rfl rfl
  | saveConfig | discardConfigEdits =>
    apply idle (fun _ => trivial) rfl
    cases taken
    exact whereOpened_closed fun edit opened => by cases opened
  | configFocusNext =>
    cases taken
    exact whereOpened_move aimed (fun _ => rfl) (fun _ => focusNext_target) rfl
  | configFocusPrev =>
    cases taken
    exact whereOpened_move aimed (fun _ => rfl) (fun _ => focusPrev_target) rfl
  | configFocusInterface =>
    cases taken
    exact whereOpened_move aimed (fun _ => rfl) (fun _ => focusInterface_target) rfl
  | configFocusPeer i =>
    cases taken
    exact whereOpened_move aimed (fun _ => rfl) (fun _ => focusPeer_target i) rfl
  | deleteConfigPeer i =>
    cases taken
    exact whereOpened_delete aimed (fun _ => trivial) rfl rfl rfl
  | confirmYes =>
    cases taken
    rw [confirmYes]
    split
    · rename_i pending
      refine whereOpened_delete aimed (fun _ => trivial) ?_ rfl rfl
      simp only [deletedPeer, pending]
    · rename_i other
      refine idle (fun _ => trivial) ?_ (aimed.congr rfl rfl)
      simp only [deletedPeer]
  | _ =>
    have session := dispatch_writes .session (by simp [Action.writes]) taken
    exact idle (fun _ => trivial) rfl (aimed.congr session rfl)

/-! ## The commit -/

/-- What is written when a value is accepted for a target. -/
def Target.write (t : Target) (value : String) : Edit :=
  match t.field, t.sect with
  | .peerPublicKey, .peer i => .setKey i value
  | field, sect => .setField field sect value

/-- Enter checks the value as the field of the target. It writes the value there and closes the
buffer if the value passes, and only reports the error otherwise. -/
def CommitsTo (t : Target) (value : String) (edit : ConfigEditState) (s : AppState) : Prop :=
  ∀ now control, ∃ next, dispatch now (.configEditKey ⟨.enter, control⟩) s = some next ∧
    match validateField t.field value edit.draft t.sect with
    | .ok () => next.inputMode = .normal ∧ ∃ after, next.configEdit = some after ∧
      after.editBuffer = none ∧ after.draft = (t.write value).apply edit.draft
    | .error e => next.inputMode = s.inputMode ∧
      next.configEdit = some { edit with fieldError := some e.display }

/-- An open buffer is bound for where it was opened, and Enter commits it there. -/
structure AsOpened (s : AppState × Option Target) : Prop where
  aimed : WhereOpened s
  commits : ∀ edit value, s.1.configEdit = some edit → edit.editBuffer = some value →
    ∃ t, s.2 = some t ∧ CommitsTo t value edit s.1

theorem commitTarget_commits {edit : ConfigEditState} {value : String}
    (session : s.configEdit = some edit) (buffer : edit.editBuffer = some value) :
    CommitsTo (commitTarget edit) value edit s := by
  intro now control
  refine ⟨_, rfl, ?_⟩
  simp only [inSession, session, configEditKey, typeIntoBuffer_enter, finishField, buffer,
    commitTarget]
  cases checked : validateField (focusedField edit) value edit.draft edit.focusedSection with
  | error e => exact ⟨rfl, rfl⟩
  | ok _ => exact ⟨rfl, _, rfl, rfl, congrArg Session.draft (commitValue_session edit value)⟩

theorem WhereOpened.asOpened (aimed : WhereOpened (s, target)) : AsOpened (s, target) where
  aimed := aimed
  commits edit value session buffer :=
    ⟨_, aimed edit session (by simp [buffer]), commitTarget_commits session buffer⟩

/-- In every state of a run an open buffer goes where it was opened, exactly if no step moves the
cursor or the peers under an open buffer. -/
theorem as_opened_iff (config : AppConfig) (actions : List (Clock × Action)) :
    Always targeted AsOpened actions (.new config, none) ↔
      Along act HoldsStill actions (.new config) := by
  have exact (s next : AppState × Option Target) (label : Clock × Action) (aimed : WhereOpened s)
      (taken : targeted s label = some next) : WhereOpened next ↔ HoldsStill s.1 label := by
    obtain ⟨taken, noted⟩ := instrument_some.mp taken
    obtain ⟨t, target'⟩ := next
    simp only at noted
    rw [noted]
    exact whereOpened_dispatch aimed taken
  rw [← along_instrument act noteTarget HoldsStill actions (.new config, none),
    ← always_iff_of_step (fun s label next aimed taken => exact s next label aimed taken) actions
      (whereOpened_closed fun _ there => by cases there)]
  exact ⟨fun always => always.mono fun _ opened => opened.aimed,
    fun always => always.mono fun _ aimed => aimed.asOpened⟩

open ImportSample in
omit [Externals] in
/-- A port that is being typed is taken for an address after a move of the cursor. -/
theorem focus_redirects_buffer :
    ¬ Always (@targeted externals) (@AsOpened externals)
      [(⟨0, 0⟩, .enterConfigEdit .interface 0), (⟨0, 0⟩, .configFocusNext)] (.new home, none) := by
  intro always
  have redirected : ((@run _ _ (@targeted externals)
      [(⟨0, 0⟩, .enterConfigEdit .interface 0), (⟨0, 0⟩, .configFocusNext)] (.new home, none)).bind
      fun s => s.1.configEdit.map fun edit => (edit.editBuffer, s.2, commitTarget edit)) =
      some (some "", some ⟨.listenPort, .interface⟩, ⟨.addresses, .interface⟩) := by
    decide +kernel
  obtain ⟨s, reached, shown⟩ := Option.bind_eq_some_iff.mp redirected
  obtain ⟨edit, session, there⟩ := Option.map_eq_some_iff.mp shown
  have opened := always.last reached
  obtain ⟨buffer, same⟩ := Prod.mk.inj there
  obtain ⟨target, moved⟩ := Prod.mk.inj same
  obtain ⟨aimed, _⟩ := opened
  have aim := aimed edit session (by simp [buffer])
  rw [target, moved] at aim
  cases aim

end FerroWg.Tui
