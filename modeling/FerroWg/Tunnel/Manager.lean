import FerroWg.Core.Disk
import FerroWg.Tunnel.Dns

/-!
# The tunnel manager

`TunnelManager` with the system it works on. The packet loop of a connection holds its TUN
device; it is told to stop when the connection comes down and lets go of the device some time
later.
-/

namespace FerroWg.Tunnel

open Lib Lib.Undo

structure ActiveConnection where
  backendKind : BackendKind
  tunName : String
  endpoint : Option String
  dnsState : Option DnsState
  deriving DecidableEq, Repr

structure TunnelManager where
  config : AppConfig
  connections : BTreeMap ActiveConnection

structure World where
  manager : TunnelManager
  system : System
  /-- The devices of packet loops that were told to stop. -/
  closing : List String

def World.connection (w : World) (name : String) : Option ActiveConnection :=
  w.manager.connections[name]?

/-- What the calls behind `up` answer. Calls in a loop are told apart by their position. -/
structure UpAnswers where
  resolve : Except String (List String)
  createTun : Except String String
  tunName : Option String
  setAddr : Nat → Answer
  addRoute : Nat → Answer
  dns : DnsAnswers
  bindUdp : Option String
  compiledIn : Bool
  construct : Option String

/-- What the calls behind `down` answer, and whether the device is let go of before it returns. -/
structure DownAnswers where
  removeRoute : Nat → Answer
  dns : DnsAnswers
  reaped : Bool

def BackendKind.display : BackendKind → String
  | .boringtun => "boringtun"
  | .neptun => "neptun"
  | .gotatun => "gotatun"

def failIf (error : Option String) (message : String → String) : Os WgError Unit :=
  match error with
  | none => pure ()
  | some e => throw (.tunnel (message e))

/-- The first of the addresses counts. -/
def resolveEndpoint (a : UpAnswers) (endpoint : String) : Os WgError String :=
  match a.resolve with
  | .error e => throw (.tunnel s!"failed to resolve endpoint {endpoint}: {e}")
  | .ok [] => throw (.tunnel s!"no addresses found for {endpoint}")
  | .ok (addr :: _) => pure addr

/-- The name of a new device is one that no interface has. -/
def createTun (a : UpAnswers) : Os WgError String := do
  match a.createTun with
  | .error e => throw (.tunnel s!"failed to create TUN device: {e}")
  | .ok tun =>
    if ((← get).interfaces tun).isSome then
      throw (.tunnel "failed to create TUN device: Device or resource busy")
    else
      modify (·.createInterface tun)
      pure tun

/-- The device goes with its handle when the rest of a call fails. -/
def holding {α : Type} (tun : String) (body : Os WgError α) : Os WgError α := fun s =>
  match body.run s with
  | .ok a s => .ok a s
  | .error e s => .error e (s.dropInterface tun)

theorem run_holding {α : Type} (tun : String) (body : Os WgError α) (s : System) :
    (holding tun body).run s =
      match body.run s with
      | .ok a s => .ok a s
      | .error e s => .error e (s.dropInterface tun) := rfl

def createUdpSocket (a : UpAnswers) (port : UInt16) : Os WgError Unit :=
  failIf a.bindUdp fun e => s!"failed to bind UDP socket on port {port}: {e}"

def createBackend (a : UpAnswers) (kind : BackendKind) : Os WgError Unit :=
  if a.compiledIn then failIf a.construct id else throw (.backendUnavailable (BackendKind.display kind))

/-- The connection a name stands for in the configuration: its first peer is the one that counts. -/
structure Plan where
  config : WgConfig
  peer : PeerConfig
  endpoint : String

def TunnelManager.plan (m : TunnelManager) (name : String) : Except WgError Plan :=
  if m.connections.contains name then .error (.tunnel s!"connection {name} is already up")
  else match m.config.get name with
    | none => .error (.tunnel s!"connection {name} not found in config")
    | some config => match config.peers.head? with
      | none => .error (.tunnel s!"connection {name} has no peers")
      | some peer => match peer.endpoint with
        | none => .error (.tunnel s!"connection {name} has no endpoint")
        | some endpoint => .ok ⟨config, peer, endpoint⟩

def configureTun (a : UpAnswers) (plan : Plan) (tun : String) : Os WgError Unit := do
  failIf a.tunName fun e => s!"failed to get TUN name: {e}"
  plan.config.interface.addresses.zipIdx.forM fun (addr, i) => setInterfaceAddr (a.setAddr i) tun addr
  plan.peer.allowedIps.zipIdx.forM fun (cidr, i) => addRoute (a.addRoute i) cidr tun

def openTransport (a : UpAnswers) (kind : BackendKind) (plan : Plan) : Os WgError Unit := do
  createUdpSocket a plan.config.interface.listenPort
  createBackend a kind

section

variable [Externals]

/-- What is done once there is a device. That DNS fails is passed over. -/
def bringUp (platform : Platform) (a : UpAnswers) (kind : BackendKind) (plan : Plan) (tun : String) :
    Os WgError (Option DnsState) := do
  configureTun a plan tun
  let dnsState ← passOver
    (applyDns platform a.dns tun plan.config.interface.dns plan.config.interface.dnsSearch) none
  openTransport a kind plan
  pure dnsState

def establish (platform : Platform) (a : UpAnswers) (kind : BackendKind) (plan : Plan) :
    Os WgError (String × Option DnsState) := do
  let _ ← resolveEndpoint a plan.endpoint
  let tun ← createTun a
  let dnsState ← holding tun (bringUp platform a kind plan tun)
  pure (tun, dnsState)

abbrev Daemon := EStateM WgError World

def World.insert (w : World) (name : String) (conn : ActiveConnection) : World :=
  { w with manager := { w.manager with connections := w.manager.connections.insert name conn } }

omit [Externals] in
theorem World.connection_insert (w : World) (name other : String) (conn : ActiveConnection) :
    (w.insert name conn).connection other = if other = name then some conn else w.connection other := by
  simp only [World.connection, World.insert, Std.ExtTreeMap.getElem?_insert]
  by_cases same : name = other
  · simp [same]
  · simp [same, Ne.symm same]

def up (platform : Platform) (a : UpAnswers) (name : String) (kind : BackendKind) : Daemon Unit := fun w =>
  match w.manager.plan name with
  | .error e => .error e w
  | .ok plan =>
    match (establish platform a kind plan).run w.system with
    | .error e s => .error e { w with system := s }
    | .ok (tun, dnsState) s =>
      .ok () ({ w with system := s }.insert name ⟨kind, tun, plan.peer.endpoint, dnsState⟩)

/-- Every CIDR that the current configuration lists for the connection, of any of its peers. -/
def TunnelManager.listedRoutes (m : TunnelManager) (name : String) : List String :=
  (m.config.get name).elim [] fun config => config.peers.flatMap (·.allowedIps)

def removeRoutes (a : DownAnswers) (cidrs : List String) : Os WgError Unit :=
  cidrs.zipIdx.forM fun (cidr, i) => passOver (removeRoute (a.removeRoute i) cidr) ()

/-- The undo record is used only when no other connection has one. -/
def revertDns (a : DnsAnswers) (dnsState : Option DnsState)
    (others : BTreeMap ActiveConnection) : Os WgError Unit :=
  match dnsState with
  | none => pure ()
  | some st =>
    if others.toList.any (·.2.dnsState.isSome) then pure () else passOver (removeDns a st) ()

def letGo (tun : String) (w : World) : World :=
  { w with system := w.system.dropInterface tun, closing := w.closing.erase tun }

def down (a : DownAnswers) (name : String) : Daemon Unit := fun w =>
  match w.connection name with
  | none => .error (.tunnel s!"connection {name} is not up") w
  | some conn =>
    let others := w.manager.connections.erase name
    let s := after (removeRoutes a (w.manager.listedRoutes name)) w.system
    let s := after (revertDns a.dns conn.dnsState others) s
    let w := { w with
      manager := { w.manager with connections := others }
      system := s
      closing := conn.tunName :: w.closing }
    .ok () (if a.reaped then letGo conn.tunName w else w)

/-- The first failure ends it; what is up already is skipped. -/
def upAll (platform : Platform) (a : String → UpAnswers) (kind : BackendKind) : Daemon Unit := do
  (← get).manager.config.connectionNames.forM fun name => do
    if (← get).manager.connections.contains name then pure () else up platform (a name) name kind

/-- In whatever order the names come out of the map. -/
def downAll (a : String → DownAnswers) (names : List String) : Daemon Unit :=
  names.forM fun name => passOver (down (a name) name) ()

def reloadConfig (config : AppConfig) (w : World) : World :=
  { w with manager := { w.manager with config := config } }

end

namespace TunnelSample

/-- No key, file or address is ever read here. -/
@[reducible] def externals : Externals := .tabulated [] [] []

def wgWith (dnsSearch allowedIps : List String) : WgConfig :=
  ⟨⟨⟨.replicate 32 0⟩, 0, [], [], dnsSearch, 0, 0, [], [], [], []⟩,
   [⟨"peer", ⟨.replicate 32 0⟩, none, some "192.0.2.9:51820", allowedIps, 0⟩]⟩

/-- A manager that was just made, on a system with a search domain and a default route. -/
def worldOf (config : AppConfig) : World :=
  { manager := ⟨config, ∅⟩
    system := {
      interfaces := fun iface => if iface = "en0" then some ["192.0.2.7"] else none
      routes := fun cidr => if cidr = "0.0.0.0/0" then some "en0" else none
      servers := fun _ => []
      searchDomains := fun _ => ["lan"]
      resolvConf := "search lan\n"
      links := fun _ => ⟨[], []⟩ }
    closing := [] }

theorem worldOf_wellFormed (config : AppConfig) : (worldOf config).system.WellFormed where
  routed cidr iface through := by
    simp only [worldOf] at through ⊢
    split at through <;> cases through
    rfl
  linked _ _ := rfl

def dnsAnswers : DnsAnswers :=
  ⟨.ok "Wi-Fi", .done, .done, .done, .done, false, .done, .done, .done, .done⟩

/-- Every command succeeds. -/
def upAnswers (tun : String) : UpAnswers :=
  ⟨.ok ["192.0.2.9:51820"], .ok tun, none, fun _ => .done, fun _ => .done, dnsAnswers, none, true, none⟩

def downAnswers : DownAnswers := ⟨fun _ => .done, dnsAnswers, true⟩

end TunnelSample

end FerroWg.Tunnel
