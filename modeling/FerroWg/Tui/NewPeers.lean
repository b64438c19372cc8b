import FerroWg.Lib.Positions
import FerroWg.Lib.Run
import FerroWg.Tui.Editor
import FerroWg.Tui.Tasks

/-!
# Peers that still need a key

A peer added in a session starts with a placeholder for its key. The roster is a ghost: it has
a slot for each peer of the draft, which moves with the peer and remembers what was entered as
its key. The indices that block the preview are the slots in which nothing was.
-/

namespace FerroWg.Tui

open Lib

/-- A stored peer, or the peer added at a certain turn with the key text it was given. -/
inductive Slot where
  | stored
  | added (turn : Nat) (key : Option String)
  deriving DecidableEq, Repr

namespace Slot

def enter (value : String) : Slot → Slot
  | stored => stored
  | added turn _ => added turn (some value)

def turn? : Slot → Option Nat
  | stored => none
  | added turn _ => some turn

def Unconfirmed (slot : Slot) : Prop := ∃ turn, slot = added turn none

instance : DecidablePred Unconfirmed
  | stored => isFalse nofun
  | added turn none => isTrue ⟨turn, rfl⟩
  | added _ (some _) => isFalse nofun

theorem not_unconfirmed_enter (value : String) (slot : Slot) : ¬ (slot.enter value).Unconfirmed := by
  cases slot <;> exact nofun

@[simp] theorem turn?_enter (value : String) (slot : Slot) : (slot.enter value).turn? = slot.turn? := by
  cases slot <;> rfl

end Slot

structure Roster where
  slots : List Slot
  turns : Nat
  previewed : List Slot
  deriving DecidableEq

def Roster.empty : Roster := ⟨[], 0, []⟩

def Edit.slots (e : Edit) (turns : Nat) (slots : List Slot) : List Slot :=
  match e with
  | .setField .. => slots
  | .setKey i value => slots.modify i (Slot.enter value)
  | .addPeer => slots ++ [.added turns none]
  | .deletePeer i => slots.eraseIdx i

theorem shiftIndices_positions (slots : List Slot) (i : Nat) :
    shiftIndices i (positions Slot.Unconfirmed slots) =
      positions Slot.Unconfirmed (slots.eraseIdx i) := by
  ext j
  rw [mem_shiftIndices, mem_positions_eraseIdx]

section

variable [Externals]

def rosterStep (s : AppState) (label : Clock × Action) (r : Roster) : Roster :=
  match editorOp s label.2 with
  | .keep => r
  | .open _ stored => { r with slots := .replicate stored.peers.length .stored, turns := 0 }
  | .edit e =>
    { r with slots := e.slots r.turns r.slots, turns := r.turns + if e = .addPeer then 1 else 0 }
  | .preview => { r with previewed := r.slots }
  | .close => .empty

def rostered : AppState × Roster → Clock × Action → Option (AppState × Roster) :=
  instrument act rosterStep

def publicKeys (draft : WgConfig) : List PublicKey := draft.peers.map (·.publicKey)

/-- The text entered for a peer decodes to the key the peer has. -/
def KeysEntered (slots : List Slot) (keys : List PublicKey) : Prop :=
  ∀ (i turn : Nat) (value : String), slots[i]? = some (.added turn (some value)) →
    ∃ key, keys[i]? = some key ∧ PublicKey.fromBase64 value = .ok key

structure Tracked (session : Session) (slots : List Slot) (turns : Nat) : Prop where
  length : slots.length = session.draft.peers.length
  marks : session.unconfirmed = positions Slot.Unconfirmed slots
  keys : KeysEntered slots (publicKeys session.draft)
  turns : ∀ turn ∈ slots.filterMap Slot.turn?, turn < turns
  distinct : (slots.filterMap Slot.turn?).Nodup

omit [Externals] in
theorem publicKeys_modifyPeer (draft : WgConfig) (sect : ConfigSection)
    {f : PeerConfig → PeerConfig} (same : ∀ p, (f p).publicKey = p.publicKey) :
    publicKeys (modifyPeer draft sect f) = publicKeys draft := by
  cases sect with
  | interface => rfl
  | peer i => exact map_modify_of_same same draft.peers i

/-- A field other than the key leaves the keys alone. -/
theorem publicKeys_applyField (field : EditableField) (value : String) (draft : WgConfig)
    (sect : ConfigSection) : publicKeys (applyField field value draft sect) = publicKeys draft := by
  cases field with
  | peerName | peerEndpoint | peerAllowedIps | peerPersistentKeepalive =>
    exact publicKeys_modifyPeer _ _ fun _ => rfl
  | _ => rfl

theorem tracked_open (name : String) (stored : WgConfig) :
    Tracked ⟨name, stored, ∅⟩ (.replicate stored.peers.length .stored) 0 := by
  have none (slot : Slot) (member : slot ∈ List.replicate stored.peers.length Slot.stored) :
      slot = .stored := (List.mem_replicate.mp member).2
  have noTurns : (List.replicate stored.peers.length Slot.stored).filterMap Slot.turn? = [] := by
    rw [List.filterMap_eq_nil_iff]
    intro slot member
    rw [none slot member]
    rfl
  refine ⟨by simp, ?_, ?_, by simp [noTurns], by simp [noTurns]⟩
  · refine (positions_of_none fun slot member => ?_).symm
    rw [none slot member]
    exact nofun
  · intro i turn value entered
    exact absurd (none _ (List.mem_of_getElem? entered)) nofun

theorem tracked_setField {session : Session} {slots : List Slot} {turns : Nat}
    (tracked : Tracked session slots turns) (field : EditableField) (sect : ConfigSection)
    (value : String) : Tracked (session.edit (.setField field sect value)) slots turns := by
  have keys : publicKeys (session.edit (.setField field sect value)).draft =
      publicKeys session.draft := publicKeys_applyField field value session.draft sect
  have length : (session.edit (.setField field sect value)).draft.peers.length =
      session.draft.peers.length := by
    simpa [publicKeys] using congrArg List.length keys
  exact ⟨length ▸ tracked.length, tracked.marks, keys ▸ tracked.keys, tracked.turns,
    tracked.distinct⟩

theorem tracked_addPeer {session : Session} {slots : List Slot} {turns : Nat}
    (tracked : Tracked session slots turns) :
    Tracked (session.edit .addPeer) (slots ++ [.added turns none]) (turns + 1) := by
  have turnsAfter : (slots ++ [Slot.added turns none]).filterMap Slot.turn? =
      slots.filterMap Slot.turn? ++ [turns] := by simp [Slot.turn?]
  have grown : publicKeys (session.edit .addPeer).draft =
      publicKeys session.draft ++ [placeholderKey] := by
    simp [publicKeys, Session.edit, Edit.apply, newPeer]
  refine ⟨?_, ?_, ?_, ?_, ?_⟩
  · simp [Session.edit, Edit.apply, tracked.length]
  · rw [positions_append _ ⟨turns, rfl⟩, ← tracked.marks, tracked.length]
    rfl
  · intro i turn value entered
    rw [List.getElem?_append] at entered
    split at entered
    · rename_i before
      obtain ⟨key, there, decoded⟩ := tracked.keys i turn value entered
      refine ⟨key, ?_, decoded⟩
      have bound : i < (publicKeys session.draft).length := (List.getElem?_eq_some_iff.mp there).1
      rw [grown, List.getElem?_append_left bound]
      exact there
    · obtain ⟨_, same⟩ := List.getElem?_eq_some_iff.mp entered
      simp at same
  · rw [turnsAfter]
    intro turn member
    rcases by simpa using member with old | rfl
    · have := tracked.turns turn (by simpa using old)
      omega
    · omega
  · rw [turnsAfter, List.nodup_append]
    refine ⟨tracked.distinct, by simp, fun turn old other new => ?_⟩
    obtain rfl := List.mem_singleton.mp new
    have := tracked.turns turn old
    omega

theorem tracked_deletePeer {session : Session} {slots : List Slot} {turns : Nat}
    (tracked : Tracked session slots turns) (i : Nat) :
    Tracked (session.edit (.deletePeer i)) (slots.eraseIdx i) turns := by
  have sub : ((slots.eraseIdx i).filterMap Slot.turn?).Sublist (slots.filterMap Slot.turn?) :=
    (List.eraseIdx_sublist slots i).filterMap _
  refine ⟨?_, ?_, ?_, fun turn member => tracked.turns turn (sub.subset member),
    tracked.distinct.sublist sub⟩
  · simp [Session.edit, Edit.apply, List.length_eraseIdx, tracked.length]
  · rw [← shiftIndices_positions, ← tracked.marks]
    rfl
  · intro j turn value entered
    simp only [Session.edit, Edit.apply, publicKeys, List.getElem?_map, List.getElem?_eraseIdx]
      at entered ⊢
    split at entered <;> rename_i side <;> simp only [side, if_true, if_false] <;>
      simpa [publicKeys] using tracked.keys _ turn value entered

/-- A key that passes its check is one that decodes. -/
theorem fromBase64_of_validatePublicKey (alphabet : Base64Alphabet) {value : String}
    (valid : validatePublicKey value = .ok ()) : ∃ key, PublicKey.fromBase64 value = .ok key := by
  rw [validatePublicKey] at valid
  split at valid
  · cases valid
  · split at valid
    · cases valid
    · rename_i bytes decoded
      split at valid
      · cases valid
      · rename_i length
        exact PublicKey.fromBase64_of_decode alphabet decoded (by omega)

omit [Externals] in
theorem publicKeys_setPublicKey (draft : WgConfig) (i : Nat) (key : PublicKey) :
    publicKeys (setPublicKey draft i key) = (publicKeys draft).modify i fun _ => key := by
  apply List.ext_getElem?
  intro j
  simp only [publicKeys, setPublicKey, List.getElem?_map, List.getElem?_modify]
  by_cases at' : i = j
  · cases draft.peers[j]? <;> simp [at']
  · simp [at']

theorem tracked_setKey (alphabet : Base64Alphabet) {session : Session} {slots : List Slot}
    {turns : Nat} (tracked : Tracked session slots turns) {i : Nat} {value : String}
    (valid : validatePublicKey value = .ok ()) :
    Tracked (session.edit (.setKey i value)) (slots.modify i (Slot.enter value)) turns := by
  obtain ⟨key, decoded⟩ := fromBase64_of_validatePublicKey alphabet valid
  have written : (session.edit (.setKey i value)).draft = setPublicKey session.draft i key := by
    simp [Session.edit, Edit.apply, decoded]
  have sameTurns : (slots.modify i (Slot.enter value)).filterMap Slot.turn? =
      slots.filterMap Slot.turn? := by
    have through (l : List Slot) : l.filterMap Slot.turn? = (l.map Slot.turn?).filterMap id := by
      rw [List.filterMap_map]; rfl
    rw [through, through, map_modify_of_same (Slot.turn?_enter value)]
  refine ⟨?_, ?_, ?_, sameTurns ▸ tracked.turns, sameTurns ▸ tracked.distinct⟩
  · rw [written]
    simp [setPublicKey, tracked.length]
  · rw [positions_modify (Slot.not_unconfirmed_enter value), ← tracked.marks]
    rfl
  · intro j turn value' entered
    rw [written, publicKeys_setPublicKey]
    by_cases at' : i = j
    · subst at'
      rw [List.getElem?_modify_eq] at entered ⊢
      obtain ⟨slot, there, given⟩ := Option.map_eq_some_iff.mp entered
      have bound : i < (publicKeys session.draft).length := by
        simpa [publicKeys, ← tracked.length] using (List.getElem?_eq_some_iff.mp there).1
      have same : value' = value := by
        cases slot with
        | stored => cases given
        | added turn' key' => exact (Slot.added.inj given).2 |> Option.some.inj |> Eq.symm
      exact ⟨key, by simp [bound], same ▸ decoded⟩
    · rw [List.getElem?_modify_ne _ _ at'] at entered ⊢
      exact tracked.keys j turn value' entered

/-- One edit, of whatever kind. -/
theorem tracked_edit (alphabet : Base64Alphabet) {session : Session} {slots : List Slot}
    {turns : Nat} (tracked : Tracked session slots turns) {e : Edit} (allowed : e.Allowed session) :
    Tracked (session.edit e) (e.slots turns slots) (turns + if e = .addPeer then 1 else 0) := by
  cases e with
  | setField field sect value => exact tracked_setField tracked field sect value
  | setKey i value => exact tracked_setKey alphabet tracked allowed.2
  | addPeer => exact tracked_addPeer tracked
  | deletePeer i => exact tracked_deletePeer tracked i

/-! ## Runs -/

/-- What there is to keep, in the editor's terms. -/
structure RosterInvariant (s : AppState × Roster) : Prop where
  session : ∀ session, s.1.editor.session = some session → Tracked session s.2.slots s.2.turns
  preview : ∀ preview, s.1.editor.preview = some preview →
    s.2.previewed.length = preview.2.peers.length ∧
    (∀ slot ∈ s.2.previewed, ¬ slot.Unconfirmed) ∧
    KeysEntered s.2.previewed (publicKeys preview.2)

theorem rosterInvariant_act (alphabet : Base64Alphabet) {s next : AppState × Roster}
    {label : Clock × Action} (holds : RosterInvariant s) (taken : rostered s label = some next) :
    RosterInvariant next := by
  obtain ⟨stepped, ghost⟩ := instrument_some.mp taken
  have refined := editor_dispatch stepped
  obtain ⟨next, roster⟩ := next
  simp only at ghost refined
  subst ghost
  rw [rosterStep]
  cases op : editorOp s.1 label.2 <;> rw [op] at refined
  case keep => exact ⟨refined ▸ holds.session, refined ▸ holds.preview⟩
  case close => exact ⟨by simp [refined, Editor.step], by simp [refined, Editor.step]⟩
  case «open» name stored =>
    refine ⟨fun session opened => ?_, refined ▸ holds.preview⟩
    rw [refined] at opened
    cases opened
    exact tracked_open name stored
  case edit e =>
    refine ⟨fun session edited => ?_, refined ▸ holds.preview⟩
    rw [refined] at edited
    obtain ⟨before, there, rfl⟩ := Option.map_eq_some_iff.mp edited
    obtain ⟨session, same, allowed⟩ := editorOp_edit op
    obtain rfl : session = before := Option.some.inj (same.symm.trans there)
    exact tracked_edit alphabet (holds.session session there) allowed
  case preview =>
    refine ⟨refined ▸ holds.session, fun preview shown => ?_⟩
    rw [refined] at shown
    obtain ⟨session, there, rfl⟩ := Option.map_eq_some_iff.mp shown
    have tracked := holds.session session there
    obtain ⟨_, edit, opened, gate⟩ := editorOp_preview_iff.mp op
    have view := editor_session opened
    obtain rfl : edit.session = session := Option.some.inj (view.symm.trans there)
    have unmarked : edit.session.unconfirmed = ∅ := by
      simp only [previewGate, Bool.and_eq_true, decide_eq_true_eq] at gate
      exact gate.1
    rw [tracked.marks, positions_eq_empty] at unmarked
    exact ⟨tracked.length, unmarked, tracked.keys⟩

/-- The marks are the places of the peers that were added and not given a key since; in a
preview, every peer that was added has the key that was entered for it. -/
structure PeersConfirmed (s : AppState × Roster) : Prop where
  slots : ∀ edit, s.1.configEdit = some edit → s.2.slots.length = edit.draft.peers.length
  distinct : s.1.configEdit.isSome → (s.2.slots.filterMap Slot.turn?).Nodup
  marks : ∀ edit, s.1.configEdit = some edit →
    edit.newPeerIndices = positions Slot.Unconfirmed s.2.slots
  bounds : ∀ edit, s.1.configEdit = some edit →
    ∀ i ∈ edit.newPeerIndices, i < edit.draft.peers.length
  previewed : ∀ pending, s.1.configDiffPending = some pending →
    s.2.previewed.length = pending.draft.peers.length
  preview : ∀ pending, s.1.configDiffPending = some pending → ∀ (i turn : Nat) entered,
    s.2.previewed[i]? = some (Slot.added turn entered) →
    ∃ (value : String) (peer : PeerConfig), entered = some value ∧ pending.draft.peers[i]? = some peer ∧
      PublicKey.fromBase64 value = .ok peer.publicKey

theorem peersConfirmed_of_invariant {s : AppState × Roster} (holds : RosterInvariant s) :
    PeersConfirmed s := by
  have tracked (edit : ConfigEditState) (opened : s.1.configEdit = some edit) :
      Tracked edit.session s.2.slots s.2.turns :=
    holds.session _ (Option.map_eq_some_iff.mpr ⟨edit, opened, rfl⟩)
  have shown (pending : ConfigDiffPending) (there : s.1.configDiffPending = some pending) :=
    holds.preview _ (Option.map_eq_some_iff.mpr ⟨pending, there, rfl⟩)
  refine ⟨fun edit opened => (tracked edit opened).length, fun opened => ?_,
    fun edit opened => (tracked edit opened).marks, fun edit opened i marked => ?_,
    fun pending there => (shown pending there).1, fun pending there i turn entered at' => ?_⟩
  · obtain ⟨edit, opened⟩ := Option.isSome_iff_exists.mp opened
    exact (tracked edit opened).distinct
  · have marks : edit.newPeerIndices = _ := (tracked edit opened).marks
    rw [marks] at marked
    exact (lt_of_mem_positions marked).trans_eq (tracked edit opened).length
  · obtain ⟨_, confirmed, keys⟩ := shown pending there
    cases entered with
    | none => exact absurd ⟨turn, rfl⟩ (confirmed _ (List.mem_of_getElem? at'))
    | some value =>
      obtain ⟨key, has, decoded⟩ := keys i turn value at'
      rw [publicKeys, List.getElem?_map] at has
      obtain ⟨peer, there', rfl⟩ := Option.map_eq_some_iff.mp has
      exact ⟨value, peer, rfl, there', decoded⟩

/-- Committing a key writes what it decodes to into the peer whose mark it clears. -/
def KeyCommits (s : AppState) (label : Clock × Action) : Prop :=
  ∀ key edit i value, label.2 = .configEditKey key → s.configEdit = some edit →
    committed key edit = some (.setKey i value) →
    i ∈ edit.newPeerIndices ∧ ∃ decoded next after, PublicKey.fromBase64 value = .ok decoded ∧
      act s label = some next ∧ next.configEdit = some after ∧
      after.draft = setPublicKey edit.draft i decoded ∧
      after.newPeerIndices = edit.newPeerIndices.erase i

theorem keyCommits (alphabet : Base64Alphabet) (s : AppState) (label : Clock × Action) :
    KeyCommits s label := by
  intro key edit i value types opened commits
  obtain ⟨marked, valid⟩ := committed_allowed commits
  obtain ⟨decoded, decodes⟩ := fromBase64_of_validatePublicKey alphabet valid
  obtain ⟨now, action⟩ := label
  simp only at types
  subst types
  have taken : act s (now, .configEditKey key) = some (configEditKey key edit s) := by
    simp [act, dispatch, inSession, opened]
  have op : editorOp s (.configEditKey key) = .edit (.setKey i value) := by
    simp [editorOp, opened, sessionOp, commits]
  have refined := congrArg Editor.session (editor_dispatch taken)
  rw [op] at refined
  simp only [Editor.step, AppState.editor, opened, Option.map_some] at refined
  obtain ⟨after, opened', same⟩ := Option.map_eq_some_iff.mp refined
  refine ⟨marked, decoded, _, after, decodes, taken, opened', ?_, ?_⟩
  · have := congrArg Session.draft same
    simpa [ConfigEditState.session, Session.edit, Edit.apply, decodes] using this
  · exact congrArg Session.unconfirmed same

/-- Over any run, no peer without a key gets as far as a preview. -/
theorem new_peers_confirmed (alphabet : Base64Alphabet) (config : AppConfig)
    (labels : List (Clock × Action)) :
    Always rostered PeersConfirmed labels (.new config, .empty) ∧
      Along act KeyCommits labels (.new config) ∧
      ∀ value, validatePublicKey value = .ok () → ∃ key, PublicKey.fromBase64 value = .ok key := by
  have invariant : Always rostered RosterInvariant labels (.new config, .empty) :=
    always_of_step (fun _ _ _ holds taken => rosterInvariant_act alphabet holds taken) labels
      ⟨nofun, nofun⟩
  exact ⟨invariant.mono fun _ => peersConfirmed_of_invariant,
    along_of_forall (keyCommits alphabet) labels _,
    fun _ valid => fromBase64_of_validatePublicKey alphabet valid⟩

end

/-- Keys of the alphabet, and a decoder that knows no others. -/
theorem tabulated_alphabet {keys : List (String × List UInt8)} {wgs : List (String × WgConfig)}
    {files : List (String × AppConfig)}
    (good : ∀ k ∈ keys, ∀ c ∈ k.1.toList, isBase64Char c = true) :
    @Base64Alphabet (.tabulated keys wgs files) := by
  intro s bytes decoded
  obtain ⟨_, _, split, _⟩ := List.lookup_eq_some_iff.mp (tabulated_decoded decoded)
  exact good (s, bytes) (by rw [split]; simp)

open ImportSample in
/-- A session that adds a peer, enters its key and previews. -/
theorem new_peers_confirmed_home :
    let labels : List (Clock × Action) :=
      [(⟨0, 0⟩, .enterConfigEdit .interface 0), (⟨0, 0⟩, .addConfigPeer)] ++
      (zeroKey.toList.map fun c => (⟨0, 0⟩, .configEditKey ⟨.char c, false⟩)) ++
      [(⟨0, 0⟩, .configEditKey ⟨.enter, false⟩), (⟨0, 0⟩, .previewConfig)]
    ((run (@act externals) labels (.new home)).bind fun s =>
        s.configDiffPending.map fun pending => pending.draft.peers.length) = some 2 ∧
      Always (@rostered externals) (@PeersConfirmed externals) labels (.new home, .empty) := by
  intro labels
  refine ⟨by decide +kernel, (@new_peers_confirmed externals ?_ home labels).1⟩
  exact tabulated_alphabet (List.forall_mem_singleton.mpr (List.all_eq_true.mp (by decide)))

end FerroWg.Tui
