import FerroWg.Tunnel.Events

/-!
# The commands of the daemon

`handle_command` over the tunnel manager. Before an `Up` and a `Status` the configuration is
read from the disk again, and kept as it is when that fails.
-/

namespace FerroWg

open Lib

open Tunnel

def Tunnel.WgError.display : WgError → String
  | .tunnel reason => s!"tunnel error: {reason}"
  | .backendUnavailable backend => s!"backend {backend} not available (enable the cargo feature)"

/-- One entry for each connection of the configuration, up or not. -/
def Tunnel.TunnelManager.status (m : TunnelManager) (stats : String → TunnelStats) :
    List PeerStatus :=
  m.config.connections.toList.map fun (name, wgConfig) =>
    let active := m.connections[name]?
    { name := name
      connected := active.isSome
      backend := active.elim .boringtun ActiveConnection.backendKind
      stats := if active.isSome then stats name else ⟨0, 0, none, 0, none⟩
      endpoint := (active.bind ActiveConnection.endpoint).or
        (wgConfig.peers.head?.bind PeerConfig.endpoint)
      interface := active.map ActiveConnection.tunName }

/-- What the calls behind a command answer, for each connection it may be about, and the order
in which the map of the active ones gives their names. -/
structure CommandAnswers where
  up : String → UpAnswers
  down : String → DownAnswers
  order : List String
  stats : String → TunnelStats

namespace Daemon

def needsConfigReload : DaemonCommand → Bool
  | .up _ _ | .status => true
  | _ => false

def respond : EStateM.Result WgError World Unit → World × DaemonResponse
  | .ok _ w => (w, .ok)
  | .error e w => (w, .error e.display)

variable [Externals]

/-- `down_all`, in the order in which the map of the active ones gives their names. -/
def downEach (a : CommandAnswers) (w : World) : World :=
  let names := w.manager.connections.keys
  after (downAll a.down (if a.order.Perm names then a.order else names)) w

/-- `Drop` of the manager. -/
def dropManager (a : CommandAnswers) (w : World) : World := downEach a w

def handleCommand (platform : Platform) (a : CommandAnswers) (command : DaemonCommand)
    (w : World) : World × DaemonResponse :=
  match command with
  | .up (some name) backend => respond ((up platform (a.up name) name backend).run w)
  | .up none backend => respond ((upAll platform a.up backend).run w)
  | .down (some name) => respond ((down (a.down name) name).run w)
  | .down none => (downEach a w, .ok)
  | .status => (w, .status (w.manager.status a.stats))
  | .switchBackend name backend =>
    respond ((up platform (a.up name) name backend).run (after (down (a.down name) name) w))
  | .shutdown => (w, .ok)
  | .benchmark _ _ => (w, .error "Benchmark not implemented yet")
  | .streamLogs => (w, .error "StreamLogs not supported here")

/-- `reload_config` of the daemon: that the file does not load is only logged. -/
def reloadFromDisk (loaded : Except ConfigError AppConfig) (w : World) : World :=
  match loaded with
  | .ok config => reloadConfig config w
  | .error _ => w

def processCommand (platform : Platform) (a : CommandAnswers)
    (loaded : Except ConfigError AppConfig) (command : DaemonCommand) (w : World) :
    World × DaemonResponse :=
  handleCommand platform a command
    (if needsConfigReload command then reloadFromDisk loaded w else w)

omit [Externals] in
theorem respond_fst (call : Tunnel.Daemon Unit) (w : World) :
    (respond (call.run w)).1 = after call w := by
  cases ran : call.run w with
  | ok _ t => exact (after_of_ok ran).symm
  | error _ t => exact (after_of_error ran).symm

/-- A bring-up that is answered with `Ok` adds one connection, to the backend that was asked
for, and leaves the configuration as it is. -/
theorem up_ok {platform : Platform} {a : UpAnswers} {name : String} {kind : BackendKind}
    {w t : World} (done : (up platform a name kind).run w = .ok () t) :
    w.connection name = none ∧ t.manager.config = w.manager.config ∧
      ∃ conn, conn.backendKind = kind ∧
        ∀ other, t.connection other = if other = name then some conn else w.connection other := by
  simp only [EStateM.run, up] at done
  split at done
  · cases done
  · rename_i plan planned
    split at done
    · cases done
    · rename_i tun dnsState s _
      cases done
      refine ⟨?_, rfl, ⟨kind, tun, plan.peer.endpoint, dnsState⟩, rfl, fun other =>
        World.connection_insert _ name other _⟩
      rw [TunnelManager.plan] at planned
      split at planned
      · cases planned
      · rename_i inactive
        simpa [World.connection] using inactive

/-- Whether or not the connection was up, afterwards it is not, and the others are as before. -/
theorem down_connection (a : DownAnswers) (name : String) (w : World) (other : String) :
    (after (down a name) w).connection other = if other = name then none else w.connection other := by
  rcases down_cases a name w with ⟨inactive, e, ran⟩ | ⟨conn, t, _, torn, ran⟩
  · rw [after_of_error ran]
    split
    · rename_i same
      rw [same, inactive]
    · rfl
  · rw [after_of_ok ran]
    split
    · exact torn.connection other
    · exact torn.connection other

theorem down_answer (a : DownAnswers) (name : String) (w : World) :
    (respond ((down a name).run w)).2 = .ok ↔ (w.connection name).isSome := by
  rcases down_cases a name w with ⟨inactive, e, ran⟩ | ⟨conn, t, active, _, ran⟩
  · simp [ran, respond, inactive]
  · simp [ran, respond, active]

end Daemon

end FerroWg
