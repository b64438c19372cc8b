import FerroWg.Daemon.ActiveSet
import FerroWg.Lib.Records
import FerroWg.Tui.EventLoop
import FerroWg.Tui.Editor

/-!
# Status updates

`apply_peer_updates` looks up the connection of each entry and replaces its status. The entries of a
poll have different names, so their order says nothing.
-/

namespace FerroWg.Tui

open Lib

variable [Externals]

/-- An entry as an update of the connection it names. -/
def statusUpdate : Records.Update ConnectionView PeerStatus String where
  key := ConnectionView.name
  name := PeerStatus.name
  put := applyPeerUpdate
  key_put _ _ := rfl
  put_put _ _ := rfl

theorem updateConnection_eq (connections : List ConnectionView) (status : PeerStatus) :
    updateConnection connections status = statusUpdate.one connections status := by
  induction connections with
  | nil => rfl
  | cons c rest ih =>
    rw [updateConnection, Records.Update.one, ih]
    rfl

theorem applyPeerUpdates_eq (statuses : List PeerStatus) (s : AppState) :
    applyPeerUpdates statuses s =
      { s with
        daemonConnected := true
        connections := statusUpdate.batch statuses s.connections } := by
  have same : updateConnection = statusUpdate.one := by
    funext connections status
    exact updateConnection_eq connections status
  rw [applyPeerUpdates, same]
  rfl

theorem findConnection_eq (s : AppState) (name : String) :
    s.findConnection name = statusUpdate.lookup s.connections name := rfl

/-- The status that an entry is of. Only a connection that is up is warned about, and of two
warnings about it the one of the handshake counts. -/
structure Reports (entry : PeerStatus) (status : ConnectionStatus) : Prop where
  state : status.state = .connected ↔ entry.connected = true
  backend : status.backend = entry.backend
  stats : status.stats = entry.stats
  endpoint : status.endpoint = entry.endpoint
  interface : status.interface = entry.interface
  down : entry.connected = false → status.healthWarning = none
  stale : entry.connected = true → ∀ age, entry.stats.lastHandshake = some age →
    staleHandshake < age → status.healthWarning = some "stale handshake"
  lossy : entry.connected = true →
    (∀ age, entry.stats.lastHandshake = some age → age ≤ staleHandshake) →
    highPacketLoss < entry.stats.packetLoss → status.healthWarning =
      some s!"high packet loss ({Externals.formatRounded (entry.stats.packetLoss * 100)}%)"
  healthy : entry.connected = true →
    (∀ age, entry.stats.lastHandshake = some age → age ≤ staleHandshake) →
    ¬highPacketLoss < entry.stats.packetLoss → status.healthWarning = none

/-- The status that an update stores is its own entry's, whatever the connection showed. -/
theorem applyPeerUpdate_reports (entry : PeerStatus) (c : ConnectionView) :
    ∃ status, Reports entry status ∧ applyPeerUpdate entry c = { c with status := some status } := by
  have fresh : (∀ age, entry.stats.lastHandshake = some age → age ≤ staleHandshake) →
      entry.stats.lastHandshake.any (staleHandshake < ·) = false := by
    intro recent
    cases seen : entry.stats.lastHandshake with
    | none => rfl
    | some age => simpa using recent age seen
  refine ⟨_, ?_, rfl⟩
  constructor
  case state => cases entry.connected <;> simp
  case down => intro off; simp [off]
  case stale => intro on age seen old; simp [on, seen, old]
  case lossy => intro on recent high; simp [on, fresh recent, high]
  case healthy => intro on recent low; simp [on, fresh recent, low]
  all_goals rfl

/-- An entry is of one status. -/
theorem Reports.unique {entry : PeerStatus} {status other : ConnectionStatus}
    (here : Reports entry status) (there : Reports entry other) : status = other := by
  have states : status.state = other.state := by
    have same := here.state.trans there.state.symm
    cases first : status.state <;> cases second : other.state <;> simp_all
  have warnings : status.healthWarning = other.healthWarning := by
    cases up : entry.connected with
    | false => rw [here.down up, there.down up]
    | true =>
      by_cases recent : ∀ age, entry.stats.lastHandshake = some age → age ≤ staleHandshake
      · by_cases high : highPacketLoss < entry.stats.packetLoss
        · rw [here.lossy up recent high, there.lossy up recent high]
        · rw [here.healthy up recent high, there.healthy up recent high]
      · obtain ⟨age, seen, old⟩ : ∃ age, entry.stats.lastHandshake = some age ∧
            staleHandshake < age := by simpa using recent
        rw [here.stale up age seen old, there.stale up age seen old]
  cases status
  cases other
  simp only [ConnectionStatus.mk.injEq]
  exact ⟨states, here.backend.trans there.backend.symm, here.stats.trans there.stats.symm,
    here.endpoint.trans there.endpoint.symm, here.interface.trans there.interface.symm, warnings⟩

/-- What a status update leaves of a connection. -/
def ConnectionView.kept (c : ConnectionView) : String × WgConfig × Nat :=
  (c.name, c.config, c.selectedPeerRow)

theorem updateConnection_kept (connections : List ConnectionView) (status : PeerStatus) :
    (updateConnection connections status).map ConnectionView.kept =
      connections.map ConnectionView.kept := by
  induction connections with
  | nil => rfl
  | cons c rest ih =>
    rw [updateConnection]
    split
    · rfl
    · rw [List.map_cons, ih, List.map_cons]

theorem updateConnections_kept (statuses : List PeerStatus) (connections : List ConnectionView) :
    (statuses.foldl updateConnection connections).map ConnectionView.kept =
      connections.map ConnectionView.kept := by
  induction statuses generalizing connections with
  | nil => rfl
  | cons status rest ih => exact (ih _).trans (updateConnection_kept connections status)

/-- What a batch does: nothing but the status of a connection is new, and only where an entry names
the connection, which then shows its own entry. Of connections with one name, the first counts. -/
structure StatusesApplied (statuses : List PeerStatus) (s next : AppState) : Prop where
  connected : next.daemonConnected = true
  frame : next = { s with daemonConnected := true, connections := next.connections }
  kept : next.connections.map (fun c => (c.name, c.config, c.selectedPeerRow)) =
    s.connections.map fun c => (c.name, c.config, c.selectedPeerRow)
  untouched : ∀ i c, s.connections[i]? = some c →
    c.name ∉ statuses.map PeerStatus.name ∨
      c.name ∈ (s.connections.take i).map ConnectionView.name →
    next.connections[i]? = some c
  touched : ∀ entry ∈ statuses, ∀ c, s.findConnection entry.name = some c →
    ∃ status, Reports entry status ∧
      next.findConnection entry.name = some { c with status := some status }

theorem findConnection_applied {statuses : List PeerStatus}
    (distinct : (statuses.map PeerStatus.name).Nodup) {entry : PeerStatus}
    (member : entry ∈ statuses) (s : AppState) :
    (applyPeerUpdates statuses s).findConnection entry.name =
      (s.findConnection entry.name).map (applyPeerUpdate entry) := by
  rw [findConnection_eq, findConnection_eq, applyPeerUpdates_eq]
  exact statusUpdate.lookup_batch distinct member s.connections

theorem statuses_applied {statuses : List PeerStatus}
    (distinct : (statuses.map PeerStatus.name).Nodup) (s : AppState) :
    StatusesApplied statuses s (applyPeerUpdates statuses s) where
  connected := rfl
  frame := rfl
  kept := updateConnections_kept statuses s.connections
  untouched i c found passed := by
    rw [applyPeerUpdates_eq]
    exact statusUpdate.batch_getElem? found passed
  touched entry member c found := by
    obtain ⟨status, reports, same⟩ := applyPeerUpdate_reports entry c
    refine ⟨status, reports, ?_⟩
    rw [findConnection_applied distinct member, found, Option.map_some, same]

/-- The entries that name a connection. -/
def knownStatuses (statuses : List PeerStatus) (s : AppState) : List PeerStatus :=
  statuses.filter fun status => status.name ∈ s.connections.map ConnectionView.name

theorem applyPeerUpdates_known (statuses : List PeerStatus) (s : AppState) :
    applyPeerUpdates (knownStatuses statuses s) s = applyPeerUpdates statuses s := by
  rw [applyPeerUpdates_eq, applyPeerUpdates_eq, knownStatuses]
  congr 1
  exact statusUpdate.batch_known statuses s.connections

theorem applyPeerUpdates_perm {statuses other : List PeerStatus}
    (distinct : (statuses.map PeerStatus.name).Nodup) (perm : statuses.Perm other) (s : AppState) :
    applyPeerUpdates other s = applyPeerUpdates statuses s := by
  rw [applyPeerUpdates_eq, applyPeerUpdates_eq, statusUpdate.batch_perm distinct perm]

theorem applyPeerUpdates_twice {statuses : List PeerStatus}
    (distinct : (statuses.map PeerStatus.name).Nodup) (s : AppState) :
    applyPeerUpdates statuses (applyPeerUpdates statuses s) = applyPeerUpdates statuses s := by
  simp only [applyPeerUpdates_eq, statusUpdate.batch_batch distinct]

theorem applyPeerUpdates_comm {statuses more : List PeerStatus}
    (distinct : (statuses.map PeerStatus.name).Nodup)
    (distinctMore : (more.map PeerStatus.name).Nodup)
    (disjoint : (statuses.map PeerStatus.name).Disjoint (more.map PeerStatus.name))
    (s : AppState) :
    applyPeerUpdates more (applyPeerUpdates statuses s) =
      applyPeerUpdates statuses (applyPeerUpdates more s) := by
  simp only [applyPeerUpdates_eq, statusUpdate.batch_comm distinct distinctMore disjoint]

/-- No component follows a status update, so the cursors stay. -/
theorem updatePeers_bundle (statuses : List PeerStatus) (s : AppState) (bundle : ComponentBundle) :
    bundle.update (.updatePeers statuses) s = some bundle := by
  simp [ComponentBundle.update, ConfigComponent.update, TableState.update, connectionFilterUpdate]

theorem dispatchAll_updatePeers (now : Clock) (statuses : List PeerStatus) (l : Loop) :
    dispatchAll now (.updatePeers statuses) l =
      some ⟨applyPeerUpdates statuses l.state, l.bundle⟩ := by
  rw [dispatchAll, dispatch, Option.bind_some, updatePeers_bundle, Option.map_some]

/-- A batch of entries with different names is one update of all of them at once: in any order, any
number of times, before or after another batch that names none of its connections. -/
theorem statuses_commute {statuses : List PeerStatus}
    (distinct : (statuses.map PeerStatus.name).Nodup) (s : AppState) :
    StatusesApplied statuses s (applyPeerUpdates statuses s) ∧
    (∀ other, statuses.Perm other → applyPeerUpdates other s = applyPeerUpdates statuses s) ∧
    applyPeerUpdates statuses (applyPeerUpdates statuses s) = applyPeerUpdates statuses s ∧
    applyPeerUpdates (knownStatuses statuses s) s = applyPeerUpdates statuses s ∧
    (∀ now bundle, dispatchAll now (.updatePeers statuses) ⟨s, bundle⟩ =
      some ⟨applyPeerUpdates statuses s, bundle⟩) ∧
    ∀ more : List PeerStatus, (more.map PeerStatus.name).Nodup →
      (statuses.map PeerStatus.name).Disjoint (more.map PeerStatus.name) →
      applyPeerUpdates more (applyPeerUpdates statuses s) =
        applyPeerUpdates statuses (applyPeerUpdates more s) := by
  refine ⟨statuses_applied distinct s, ?_, applyPeerUpdates_twice distinct s,
    applyPeerUpdates_known statuses s, ?_, ?_⟩
  · intro other perm
    exact applyPeerUpdates_perm distinct perm s
  · intro now bundle
    exact dispatchAll_updatePeers now statuses ⟨s, bundle⟩
  · intro more distinctMore disjoint
    exact applyPeerUpdates_comm distinct distinctMore disjoint s

namespace StatusSample

open Tunnel.TunnelSample

def entry (name : String) (connected : Bool) : PeerStatus :=
  ⟨name, connected, .boringtun, ⟨0, 0, none, 0, none⟩, none, none⟩

def twoConnections : AppState :=
  { AppState.new default with
    connections := ["ams", "mia"].map fun name => ⟨name, wgWith [] [], none, 0⟩ }

end StatusSample

omit [Externals] in
open Tunnel.TunnelSample StatusSample in
theorem statuses_commute_swapped :
    @applyPeerUpdates externals [entry "mia" false, entry "ams" true] twoConnections =
      @applyPeerUpdates externals [entry "ams" true, entry "mia" false] twoConnections ∧
    ∃ status, status.state = .connected ∧
      (@applyPeerUpdates externals [entry "ams" true, entry "mia" false]
        twoConnections).findConnection "ams" = some ⟨"ams", wgWith [] [], some status, 0⟩ := by
  let inst : Externals := externals
  obtain ⟨applied, perm, _⟩ := @statuses_commute externals
    [entry "ams" true, entry "mia" false] (by decide) twoConnections
  refine ⟨perm _ (.swap _ _ _), ?_⟩
  obtain ⟨status, reports, shown⟩ :=
    applied.touched (entry "ams" true) List.mem_cons_self ⟨"ams", wgWith [] [], none, 0⟩ rfl
  exact ⟨status, reports.state.mpr rfl, shown⟩

end FerroWg.Tui
