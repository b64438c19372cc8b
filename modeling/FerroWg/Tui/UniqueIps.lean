import FerroWg.Import
import FerroWg.Lib.Positions
import FerroWg.Lib.Run
import FerroWg.Tui.Editor
import FerroWg.Tui.FieldValues
import Mathlib.Data.List.Flatten

/-!
# Allowed IPs of one connection

No allowed IP stands twice in a connection, in one peer or in two. A commit is checked against
the peers beside the one it writes, in the draft it writes to.
-/

namespace FerroWg.Tui

open Lib

def allowedIpList (config : WgConfig) : List String := config.peers.flatMap (·.allowedIps)

/-- Distinct within a peer and across the peers. -/
def UniqueIps (config : WgConfig) : Prop := (allowedIpList config).Nodup

/-- The configuration as it is started with or reloaded. -/
def AppUniqueIps (config : AppConfig) : Prop :=
  ∀ name conn, config.get name = some conn → UniqueIps conn

structure DraftsUnique (s : AppState) : Prop where
  session : ∀ edit, s.configEdit = some edit → UniqueIps edit.draft
  preview : ∀ p, s.configDiffPending = some p → UniqueIps p.draft

/-- An action, or the reload that a message from a task brings. -/
inductive Input where
  | act (now : Clock) (action : Action)
  | reload (config : AppConfig)

def Input.Unique : Input → Prop
  | .act _ _ => True
  | .reload config => AppUniqueIps config

section

variable {draft : WgConfig} {i : Nat}

/-- Peers changed otherwise than in their allowed IPs. -/
theorem allowedIpList_modify {f : PeerConfig → PeerConfig}
    (same : ∀ p, (f p).allowedIps = p.allowedIps) (peers : List PeerConfig) :
    (peers.modify i f).flatMap (·.allowedIps) = peers.flatMap (·.allowedIps) := by
  rw [List.flatMap_def, List.flatMap_def, map_modify_of_same same]

theorem uniqueIps_modifyPeer {f : PeerConfig → PeerConfig}
    (same : ∀ p, (f p).allowedIps = p.allowedIps) (unique : UniqueIps draft)
    (sect : ConfigSection) : UniqueIps (modifyPeer draft sect f) := by
  cases sect with
  | interface => exact unique
  | peer i =>
    rw [UniqueIps, allowedIpList, modifyPeer]
    rw [allowedIpList_modify same]
    exact unique

theorem uniqueIps_erase (unique : UniqueIps draft) (i : Nat) :
    UniqueIps { draft with peers := draft.peers.eraseIdx i } :=
  ((List.eraseIdx_sublist draft.peers i).flatMap (·.allowedIps)).nodup unique

theorem uniqueIps_addPeer (unique : UniqueIps draft) :
    UniqueIps { draft with peers := draft.peers ++ [newPeer] } := by
  rw [UniqueIps, allowedIpList]
  rw [List.flatMap_append]
  simpa [newPeer, UniqueIps, allowedIpList] using unique

theorem mem_otherAllowedIps {cidr : String} {peer : PeerConfig} {j : Nat}
    (there : draft.peers[j]? = some peer) (other : j ≠ i) (listed : cidr ∈ peer.allowedIps) :
    cidr ∈ otherAllowedIps draft (.peer i) := by
  refine List.mem_flatMap.mpr ⟨(peer, j), List.mem_filter.mpr ⟨?_, ?_⟩, listed⟩
  · exact List.mem_zipIdx_iff_getElem?.mpr there
  · simpa using other.symm

/-- The list of one peer is replaced by another that has nothing in common with its neighbours. -/
theorem uniqueIps_replace {ips : List String} (unique : UniqueIps draft) (nodup : ips.Nodup)
    (fresh : ∀ cidr ∈ ips, cidr ∉ otherAllowedIps draft (.peer i)) :
    UniqueIps { draft with peers := draft.peers.modify i fun p => { p with allowedIps := ips } } := by
  by_cases inside : i < draft.peers.length
  · have parts : draft.peers = draft.peers.take i ++ draft.peers[i] :: draft.peers.drop (i + 1) := by
      rw [List.cons_getElem_drop_succ, List.take_append_drop]
    have before : ∀ cidr ∈ (draft.peers.take i).flatMap (·.allowedIps),
        cidr ∈ otherAllowedIps draft (.peer i) := by
      intro cidr member
      obtain ⟨peer, taken, listed⟩ := List.mem_flatMap.mp member
      obtain ⟨j, there⟩ := List.mem_iff_getElem?.mp taken
      rw [List.getElem?_take] at there
      split_ifs at there with early
      exact mem_otherAllowedIps there early.ne listed
    have after : ∀ cidr ∈ (draft.peers.drop (i + 1)).flatMap (·.allowedIps),
        cidr ∈ otherAllowedIps draft (.peer i) := by
      intro cidr member
      obtain ⟨peer, dropped, listed⟩ := List.mem_flatMap.mp member
      obtain ⟨j, there⟩ := List.mem_iff_getElem?.mp dropped
      rw [List.getElem?_drop] at there
      exact mem_otherAllowedIps there (by omega) listed
    rw [UniqueIps, allowedIpList] at unique ⊢
    rw [parts, List.flatMap_append, List.flatMap_cons] at unique
    rw [List.modify_eq_take_cons_drop inside, List.flatMap_append, List.flatMap_cons]
    obtain ⟨left, rest, apart⟩ := List.nodup_append'.mp unique
    obtain ⟨_, right, _⟩ := List.nodup_append'.mp rest
    refine List.nodup_append'.mpr ⟨left, List.nodup_append'.mpr ⟨nodup, right, ?_⟩, ?_⟩
    · exact fun cidr new old => fresh cidr new (after cidr old)
    · intro cidr old mixed
      rcases List.mem_append.mp mixed with new | later
      · exact fresh cidr new (before cidr old)
      · exact apart old (List.mem_append_right _ later)
  · rw [List.modify_eq_self (by omega)]
    exact unique

variable [Externals]

theorem uniqueIps_applyField {field : EditableField} {value : String} {sect : ConfigSection}
    (unique : UniqueIps draft) (valid : validateField field value draft sect = .ok ()) :
    UniqueIps (applyField field value draft sect) := by
  cases field with
  | peerAllowedIps =>
    cases sect with
    | interface => exact unique
    | peer i =>
      obtain ⟨fresh, nodup⟩ := validateAllowedIps_ok_iff.mp valid
      exact uniqueIps_replace unique nodup fun cidr member => (fresh cidr member).2
  | peerName | peerEndpoint | peerPersistentKeepalive =>
    rw [applyField]
    refine uniqueIps_modifyPeer ?_ unique sect
    exact fun _ => rfl
  | _ => exact unique

theorem uniqueIps_edit {e : Edit} {session : Session} (unique : UniqueIps session.draft)
    (allowed : e.Allowed session) : UniqueIps (session.edit e).draft := by
  cases e with
  | setField field sect value => exact uniqueIps_applyField unique allowed.2
  | setKey i value =>
    simp only [Session.edit, Edit.apply]
    split
    · rename_i key _
      exact uniqueIps_modifyPeer (f := fun p => { p with publicKey := key }) (fun _ => rfl) unique
        (.peer i)
    · exact unique
  | addPeer => exact uniqueIps_addPeer unique
  | deletePeer i => exact uniqueIps_erase unique i

def AppState.input (s : AppState) : Input → Option AppState
  | .act now action => dispatch now action s
  | .reload config => some (s.reloadFromConfig config)

/-- The drafts, and what the next one is copied from. -/
structure IpsInvariant (s : AppState) : Prop where
  stored : ∀ name config, s.stored name = some config → UniqueIps config
  session : ∀ session, s.editor.session = some session → UniqueIps session.draft
  preview : ∀ preview, s.editor.preview = some preview → UniqueIps preview.2

omit [Externals] in
theorem IpsInvariant.draftsUnique {s : AppState} (holds : IpsInvariant s) : DraftsUnique s where
  session _ opened := holds.session _ (editor_session opened)
  preview p shown := holds.preview _ (Option.map_eq_some_iff.mpr ⟨p, shown, rfl⟩)

omit [Externals] in
/-- A reload keeps the drafts and replaces what is stored, as a new state has it. -/
theorem ipsInvariant_reload {s : AppState} {config : AppConfig} (holds : IpsInvariant s)
    (unique : AppUniqueIps config) : IpsInvariant (s.reloadFromConfig config) where
  stored name conn there := by
    have found : (AppState.new config).stored name = some conn := there
    rw [stored_new] at found
    exact unique name conn found
  session := holds.session
  preview := holds.preview

theorem ipsInvariant_dispatch {now : Clock} {action : Action} {s next : AppState}
    (holds : IpsInvariant s) (taken : dispatch now action s = some next) : IpsInvariant next := by
  have refined := editor_dispatch taken
  have stored : ∀ name config, next.stored name = some config → UniqueIps config :=
    stored_dispatch taken ▸ holds.stored
  cases op : editorOp s action with
  | keep => rw [op] at refined; exact ⟨stored, refined ▸ holds.session, refined ▸ holds.preview⟩
  | close =>
    rw [op] at refined
    exact ⟨stored, fun _ none => by simp [refined, Editor.step] at none,
      fun _ none => by simp [refined, Editor.step] at none⟩
  | «open» name config =>
    rw [op] at refined
    refine ⟨stored, fun session opened => ?_, refined ▸ holds.preview⟩
    rw [refined] at opened
    cases opened
    exact holds.stored name config (editorOp_open_iff.mp op).2.2
  | edit e =>
    obtain ⟨before, there, allowed⟩ := editorOp_edit op
    rw [op] at refined
    refine ⟨stored, fun session edited => ?_, refined ▸ holds.preview⟩
    rw [refined, Editor.step, there] at edited
    cases edited
    exact uniqueIps_edit (holds.session before there) allowed
  | preview =>
    rw [op] at refined
    refine ⟨stored, refined ▸ holds.session, fun shown previewed => ?_⟩
    rw [refined] at previewed
    obtain ⟨session, there, rfl⟩ := Option.map_eq_some_iff.mp previewed
    exact holds.session session there

/-- From configurations without a repeated allowed IP no draft comes to have one. -/
theorem drafts_unique (config : AppConfig) (unique : AppUniqueIps config) (inputs : List Input)
    (reloads : ∀ input ∈ inputs, input.Unique) :
    Always AppState.input DraftsUnique inputs (.new config) := by
  have initial : IpsInvariant (.new config) :=
    ⟨fun name conn there => unique name conn (by rwa [stored_new] at there), nofun, nofun⟩
  have invariant : Always AppState.input IpsInvariant inputs (.new config) := by
    refine always_of_along ?_ initial (along_of_mem _ reloads _)
    intro input _ s next holds good taken
    cases input with
    | act now action => exact ipsInvariant_dispatch holds taken
    | reload config =>
      cases taken
      exact ipsInvariant_reload holds good
  exact invariant.mono fun _ => IpsInvariant.draftsUnique

end

open ImportSample in
theorem uniqueIps_home : AppUniqueIps home := by
  intro name conn there
  rw [home, AppConfig.get_insert] at there
  split at there
  · cases there
    exact List.nodup_singleton _
  · simp [AppConfig.get, default] at there

open ImportSample in
/-- The allowed IPs of the one peer are committed and shown, and the file is reloaded. -/
theorem drafts_unique_home :
    Always (@AppState.input externals) DraftsUnique
      [.act ⟨0, 0⟩ (.enterConfigEdit (.peer 0) 2), .act ⟨0, 0⟩ (.configEditKey ⟨.enter, false⟩),
        .act ⟨0, 0⟩ .addConfigPeer, .reload home, .act ⟨0, 0⟩ .previewConfig] (.new home) :=
  @drafts_unique externals home uniqueIps_home _ (by simp [Input.Unique, uniqueIps_home])

end FerroWg.Tui
