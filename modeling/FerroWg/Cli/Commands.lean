import FerroWg.Core.Key
import FerroWg.Daemon.ActiveSet
import FerroWg.Daemon.Rpc

/-!
# The commands of the command line

`ferro-wg up`, `down`, `status` and `daemon --stop`: one request to the daemon each, and what is
printed of its answer. Every element of an output is what one `println!` prints.
-/

namespace FerroWg.Cli

open Lib Daemon Tunnel

abbrev Output := Except String (List String)

/-- `daemon_command`, over what the client got. -/
def daemonCommand (result : Except DaemonClientError DaemonResponse) :
    Except String DaemonResponse :=
  result.mapError fun e =>
    if e.isNotRunning then
      "daemon is not running.\n\nStart it with:\n  sudo ferro-wg daemon\n\n" ++
        "Or in the background:\n  sudo ferro-wg daemon --daemonize"
    else e.display

/-- What three of the commands make of a response. -/
def expectOk (done : String) : DaemonResponse → Output
  | .ok => .ok [done]
  | .error e => .error e
  | _ => .error "unexpected response from daemon"

def statusWord (connected : Bool) : String := if connected then "connected" else "disconnected"

def configLines [Externals] (publicKey : PrivateKey → PublicKey) (wg : WgConfig) : List String :=
  s!"  public key: {(publicKey wg.interface.privateKey).toBase64}" ::
    (if wg.interface.addresses = [] then []
      else ["  address: " ++ String.intercalate ", " wg.interface.addresses]) ++
    wg.peers.map fun p => "  allowed ips: " ++ String.intercalate ", " p.allowedIps

def statsLines (stats : TunnelStats) : List String :=
  s!"  tx: {stats.txBytes} bytes" :: s!"  rx: {stats.rxBytes} bytes" ::
    (if stats.rxBytes = 0 ∧ 0 < stats.txBytes then
      ["  \x1b[33mwarning: sending but not receiving — " ++
        "server may not have this public key\x1b[0m"] else []) ++
    (stats.lastHandshake.map fun hs => s!"  last handshake: {hs / 1000000000}s ago").toList

/-- The lines behind the first two of a connection. -/
def detailLines [Externals] (publicKey : PrivateKey → PublicKey) (config : Option AppConfig)
    (peer : PeerStatus) : List String :=
  let endpoint := peer.endpoint.getD "-"
  let iface := peer.interface.getD "-"
  s!"  backend: {BackendKind.display peer.backend}" :: s!"  endpoint: {endpoint}" ::
    s!"  interface: {iface}" ::
    ((config.bind (·.get peer.name)).elim [] (configLines publicKey)) ++
    (if peer.connected then statsLines peer.stats else []) ++ [""]

def connectionLine (name : String) : String := "connection: " ++ name

def statusLine (connected : Bool) : String := "  status: " ++ statusWord connected

def peerLines [Externals] (publicKey : PrivateKey → PublicKey) (config : Option AppConfig)
    (peer : PeerStatus) : List String :=
  connectionLine peer.name :: statusLine peer.connected :: detailLines publicKey config peer

def statusLines [Externals] (publicKey : PrivateKey → PublicKey) (config : Option AppConfig)
    (peers : List PeerStatus) : List String :=
  if peers = [] then ["No connections configured."]
  else peers.flatMap (peerLines publicKey config)

section

variable [Externals] (json : SerdeJson) (platform : Platform) (publicKey : PrivateKey → PublicKey)

def cmdUp (peer : Option String) (p : Passage) (s : Process) : Process × Output :=
  let (t, result) := exchange json platform p (.up peer .boringtun) s
  let target := peer.getD "all connections"
  (t, daemonCommand result >>= expectOk s!"Brought up: {target}")

def cmdDown (peer : Option String) (p : Passage) (s : Process) : Process × Output :=
  let (t, result) := exchange json platform p (.down peer) s
  let target := peer.getD "all connections"
  (t, daemonCommand result >>= expectOk s!"Tore down: {target}")

def cmdDaemonStop (p : Passage) (s : Process) : Process × Output :=
  let (t, result) := exchange json platform p .shutdown s
  (t, daemonCommand result >>= expectOk "Daemon stopped.")

/-- The configuration is only for the details; without one there are none. -/
def cmdStatus (io : Io) (disk : Disk) (configPath : OsPath) (p : Passage) (s : Process) :
    Process × Output :=
  let (t, result) := exchange json platform p .status s
  let appConfig :=
    if (disk configPath).isSome then (loadAppConfig io disk configPath).toOption else none
  (t, daemonCommand result >>= fun
    | .status peers => .ok (statusLines publicKey appConfig peers)
    | .error e => .error e
    | .logEntry _ => .error "unexpected log entry response"
    | _ => .error "unexpected response from daemon")

inductive Subcommand where
  | up (peer : Option String)
  | down (peer : Option String)
  | status (io : Io) (disk : Disk) (configPath : OsPath)
  | daemonStop

def Subcommand.command : Subcommand → DaemonCommand
  | .up peer => .up peer .boringtun
  | .down peer => .down peer
  | .status _ _ _ => .status
  | .daemonStop => .shutdown

def Subcommand.invoke (subcommand : Subcommand) (p : Passage) (s : Process) : Process × Output :=
  match subcommand with
  | .up peer => cmdUp json platform peer p s
  | .down peer => cmdDown json platform peer p s
  | .status io disk configPath => cmdStatus json platform publicKey io disk configPath p s
  | .daemonStop => cmdDaemonStop json platform p s

end

/-! ## What one knows from reading the output -/

/-- Whether a connection is up, as far as one knows. -/
abbrev Knowledge := String → Option Bool

/-- The line behind the first one that names the connection. -/
def saysOf (printed : List String) (name : String) : Option Bool :=
  match printed.dropWhile (· != connectionLine name) with
  | _ :: line :: _ =>
    if line = statusLine true then some true
    else if line = statusLine false then some false
    else none
  | _ => none

/-- What is known after a command that cannot have brought a connection to anything but `up`. -/
def Knowledge.only (known : Knowledge) (up : Bool) : Knowledge := fun name =>
  (known name).filter (· = up)

/-- A failure may be one of the answer only: what was asked for may have happened. -/
def Knowledge.doubt (known : Knowledge) (up : Bool) : Option String → Knowledge
  | some peer => Function.update known peer (known.only up peer)
  | none => known.only up

/-- What a command tells, once the daemon is done with it: what is still up when the daemon is
stopped is torn down behind its answer. -/
def Knowledge.learn (known : Knowledge) (subcommand : Subcommand) (output : Output) : Knowledge :=
  match subcommand, output with
  | .up (some peer), .ok _ => Function.update known peer (some true)
  | .up peer, _ => known.doubt true peer
  | .down (some peer), .ok _ => Function.update known peer (some false)
  | .down none, .ok _ => fun _ => some false
  | .down peer, .error _ => known.doubt false peer
  | .status _ _ _, .ok printed => fun name => (saysOf printed name).or (known name)
  | .status _ _ _, .error _ => known
  | .daemonStop, .ok _ => fun _ => some false
  | .daemonStop, .error _ => known.only false

/-- What is known is so. -/
def Knows (known : Knowledge) (w : World) : Prop :=
  ∀ name up, known name = some up → (w.connection name).isSome = up

section

variable [Externals] {publicKey : PrivateKey → PublicKey}

/-- A line that does not begin as one that names a connection. -/
def Nameless (line : String) : Prop := line.toList.head? ≠ some 'c'

instance (line : String) : Decidable (Nameless line) :=
  inferInstanceAs (Decidable (line.toList.head? ≠ some 'c'))

omit [Externals] in
theorem Nameless.ne {line : String} (nameless : Nameless line) (name : String) :
    line ≠ connectionLine name := by
  rintro rfl
  apply nameless
  rw [connectionLine, String.toList_append]
  rfl

omit [Externals] in
theorem Nameless.indented {label : String} (blank : label.toList.head? = some ' ') (rest : String) :
    Nameless (label ++ rest) := by
  rw [Nameless, String.toList_append, List.head?_append, blank]
  simp

theorem configLines_nameless (wg : WgConfig) :
    ∀ line ∈ configLines publicKey wg, Nameless line := by
  intro line member
  simp only [configLines, List.cons_append, List.mem_cons, List.mem_append, List.mem_map] at member
  rcases member with rfl | member | ⟨p, _, rfl⟩
  · exact .indented rfl _
  · split at member
    · cases member
    · rw [List.mem_singleton.mp member]
      exact .indented rfl _
  · exact .indented rfl _

omit [Externals] in
theorem statsLines_nameless (stats : TunnelStats) : ∀ line ∈ statsLines stats, Nameless line := by
  intro line member
  simp only [statsLines, List.cons_append, List.mem_cons, List.mem_append, Option.mem_toList,
    Option.map_eq_some_iff] at member
  rcases member with rfl | rfl | member | ⟨hs, _, rfl⟩
  · rw [String.append_assoc]
    exact .indented rfl _
  · rw [String.append_assoc]
    exact .indented rfl _
  · split at member
    · rw [List.mem_singleton.mp member]
      exact .indented rfl _
    · cases member
  · rw [String.append_assoc]
    exact .indented rfl _

theorem detailLines_nameless (config : Option AppConfig) (peer : PeerStatus) :
    ∀ line ∈ detailLines publicKey config peer, Nameless line := by
  intro line member
  simp only [detailLines, List.cons_append, List.mem_cons, List.mem_append, List.not_mem_nil,
    or_false] at member
  rcases member with rfl | rfl | rfl | (member | member) | rfl
  · exact .indented rfl _
  · exact .indented rfl _
  · exact .indented rfl _
  · cases found : config.bind (·.get peer.name) with
    | none => simp [found] at member
    | some wg =>
      rw [found] at member
      exact configLines_nameless wg line member
  · split at member
    · exact statsLines_nameless _ line member
    · cases member
  · decide

omit [Externals] in
theorem saysOf_connection (name : String) (connected : Bool) (rest : List String) :
    saysOf (connectionLine name :: statusLine connected :: rest) name = some connected := by
  rw [saysOf, List.dropWhile_cons_of_neg (by simp)]
  have apart : statusLine false ≠ statusLine true := by decide
  cases connected with
  | true => simp
  | false => simp [apart]

omit [Externals] in
theorem saysOf_skip {name : String} {lines : List String}
    (others : ∀ line ∈ lines, line ≠ connectionLine name) (rest : List String) :
    saysOf (lines ++ rest) name = saysOf rest name := by
  rw [saysOf, saysOf, List.dropWhile_append_of_pos]
  exact fun line member => bne_iff_ne.mpr (others line member)

omit [Externals] in
theorem connectionLine_inj {a b : String} : connectionLine a = connectionLine b ↔ a = b :=
  ⟨fun same => String.append_right_inj _ |>.mp same, congrArg connectionLine⟩

theorem saysOf_peers (config : Option AppConfig) (peers : List PeerStatus) (name : String) :
    saysOf (peers.flatMap (peerLines publicKey config)) name =
      (peers.find? (·.name = name)).map (·.connected) := by
  induction peers with
  | nil => rfl
  | cons peer rest ih =>
    rw [List.flatMap_cons, List.find?_cons]
    by_cases same : peer.name = name
    · rw [decide_eq_true same, ← same, peerLines]
      exact saysOf_connection _ _ _
    · have others : ∀ line ∈ peerLines publicKey config peer, line ≠ connectionLine name := by
        rw [peerLines, List.forall_mem_cons, List.forall_mem_cons]
        refine ⟨mt connectionLine_inj.mp same, ?_, fun line member => ?_⟩
        · exact Nameless.ne (.indented rfl _) name
        · exact (detailLines_nameless config peer line member).ne name
      rw [decide_eq_false same, saysOf_skip others, ih]

/-- What the lines of a status say of a connection is what the status said of it. -/
theorem saysOf_statusLines (config : Option AppConfig) (peers : List PeerStatus) (name : String) :
    saysOf (statusLines publicKey config peers) name =
      (peers.find? (·.name = name)).map (·.connected) := by
  rw [statusLines]
  split
  · rename_i nothing
    have others : ∀ line ∈ ["No connections configured."], line ≠ connectionLine name :=
      List.forall_mem_singleton.mpr (Nameless.ne (by decide) name)
    rw [nothing]
    exact saysOf_skip others []
  · exact saysOf_peers config peers name

omit [Externals] in
theorem expectOk_ok_iff {done : String} {response : DaemonResponse} {printed : List String} :
    expectOk done response = .ok printed ↔ response = .ok ∧ printed = [done] := by
  cases response <;> simp [expectOk, eq_comm]

omit [Externals] in
theorem settled {result : Except DaemonClientError DaemonResponse} {done : String}
    {printed : List String} (ok : daemonCommand result >>= expectOk done = .ok printed) :
    result = .ok .ok := by
  obtain ⟨response, got, known⟩ := bind_eq_ok.mp ok
  rw [(expectOk_ok_iff.mp known).1] at got
  exact mapError_eq_ok.mp got

end

/-! ## What the commands do to the connections -/

/-- Only the connections that were asked for change, and only to `up`. -/
structure Toward (peer : Option String) (up : Bool) (w t : World) : Prop where
  others : ∀ asked ∈ peer, ∀ name ≠ asked, (t.connection name).isSome = (w.connection name).isSome
  kept : ∀ name, (w.connection name).isSome = up → (t.connection name).isSome = up

theorem Toward.refl (peer : Option String) (up : Bool) (w : World) : Toward peer up w w :=
  ⟨fun _ _ _ _ => rfl, fun _ => id⟩

theorem Knows.doubt {known : Knowledge} {peer : Option String} {up : Bool} {w t : World}
    (knows : Knows known w) (toward : Toward peer up w t) : Knows (known.doubt up peer) t := by
  have kept {name : String} {b : Bool} (still : known.only up name = some b) :
      (t.connection name).isSome = b := by
    obtain ⟨held, same⟩ := Option.filter_eq_some_iff.mp still
    obtain rfl : b = up := of_decide_eq_true same
    exact toward.kept name (knows name b held)
  intro name b held
  cases peer with
  | none => exact kept held
  | some asked =>
    rw [Knowledge.doubt, Function.update_apply] at held
    split at held
    · rename_i same
      exact kept (same ▸ held)
    · rename_i apart
      rw [toward.others asked rfl name apart]
      exact knows name b held

theorem Knows.update {known : Knowledge} {asked : String} {up : Bool} {w t : World}
    (knows : Knows known w) (toward : Toward (some asked) up w t)
    (done : (t.connection asked).isSome = up) :
    Knows (Function.update known asked (some up)) t := by
  intro name b held
  rw [Function.update_apply] at held
  split at held
  · rename_i same
    cases held
    rw [same, done]
  · rename_i apart
    rw [toward.others asked rfl name apart]
    exact knows name b held

section

variable [Externals] {platform : Platform} {a : CommandAnswers}
  {loaded : Except ConfigError AppConfig} {w : World}

omit [Externals] in
theorem reloadFromDisk_connection : (reloadFromDisk loaded w).connection = w.connection := by
  cases loaded <;> rfl

omit [Externals] in
theorem Toward.of_reloaded {peer : Option String} {up : Bool} {t : World}
    (toward : Toward peer up (reloadFromDisk loaded w) t) : Toward peer up w t := by
  have same : (reloadFromDisk loaded w).connection = w.connection := reloadFromDisk_connection
  refine ⟨fun asked member name apart => ?_, fun name => ?_⟩
  · rw [toward.others asked member name apart, same]
  · rw [← same]
    exact toward.kept name

/-- One connection that is asked for comes up, or nothing changes. -/
theorem up_one (a : UpAnswers) (name : String) (kind : BackendKind) (w : World) :
    let outcome := respond ((up platform a name kind).run w)
    Toward (some name) true w outcome.1 ∧
      (outcome.2 = .ok → (outcome.1.connection name).isSome) := by
  cases ran : (up platform a name kind).run w with
  | ok u t =>
    obtain ⟨_, _, conn, _, connection⟩ := up_ok ran
    refine ⟨⟨fun asked member other apart => ?_, fun other active => ?_⟩, fun _ => ?_⟩
    · cases member
      rw [respond, connection, if_neg apart]
    · rw [respond, connection]
      split
      · rfl
      · exact active
    · rw [respond, connection, if_pos rfl]
      rfl
  | error e t =>
    have same : t.connection = w.connection := by
      funext other
      rw [World.connection, up_error ran, World.connection]
    refine ⟨⟨fun _ _ other _ => ?_, fun other => ?_⟩, fun answered => ?_⟩
    · rw [respond, same]
    · rw [respond, same]
      exact id
    · cases answered

theorem up_every (a : String → UpAnswers) (kind : BackendKind) (w : World) :
    let outcome := respond ((upAll platform a kind).run w)
    Toward none true w outcome.1 ∧
      (outcome.2 = .ok → ∀ name ∈ outcome.1.manager.config.connectionNames,
        (outcome.1.connection name).isSome) := by
  have spec := upAll_spec platform a kind w
  cases ran : (upAll platform a kind).run w with
  | ok u t =>
    rw [ran, after_of_ok ran] at spec
    have grown := spec.done rfl
    exact ⟨⟨nofun, fun name active => (grown.active name).mpr (.inl active)⟩,
      fun _ name member => (grown.active name).mpr (.inr (grown.config ▸ member))⟩
  | error e t =>
    rw [ran, after_of_error ran] at spec
    obtain ⟨before, _, _, _, _, _, grown, _⟩ := spec.failed e rfl
    exact ⟨⟨nofun, fun name active => (grown.active name).mpr (.inl active)⟩, nofun⟩

theorem up_toward (peer : Option String) (kind : BackendKind) :
    Toward peer true w (processCommand platform a loaded (.up peer kind) w).1 := by
  apply Toward.of_reloaded
  cases peer with
  | none => exact (up_every a.up kind (reloadFromDisk loaded w)).1
  | some name => exact (up_one (a.up name) name kind (reloadFromDisk loaded w)).1

theorem down_one (a : DownAnswers) (name : String) (w : World) :
    let outcome := respond ((down a name).run w)
    Toward (some name) false w outcome.1 ∧ (outcome.1.connection name).isSome = false := by
  have connection := down_connection a name w
  rw [← respond_fst] at connection
  refine ⟨⟨fun asked member other apart => ?_, fun other inactive => ?_⟩, ?_⟩
  · cases member
    rw [connection, if_neg apart]
  · rw [connection]
    split
    · rfl
    · exact inactive
  · rw [connection, if_pos rfl]
    rfl

theorem down_every (a : CommandAnswers) (w : World) (name : String) :
    ((downEach a w).connection name).isSome = false := by
  let names := w.manager.connections.keys
  have all : (if a.order.Perm names then a.order else names).Perm names := by
    split
    · assumption
    · rfl
  have taken : stepCall .macos w
      (.downAll (if a.order.Perm names then a.order else names) a.down) =
        some (after (downAll a.down (if a.order.Perm names then a.order else names)) w) := by
    rw [stepCall, if_pos all]
  have gone := (call_spec .macos taken).2 name
  exact Option.isSome_eq_false_iff.mpr (Option.isNone_iff_eq_none.mpr gone)

theorem down_toward (peer : Option String) :
    Toward peer false w (processCommand platform a loaded (.down peer) w).1 := by
  cases peer with
  | none => exact ⟨nofun, fun name _ => down_every a w name⟩
  | some name => exact (down_one (a.down name) name w).1

omit [Externals] in
/-- What a status says of a connection is so, and it speaks of all that are configured. -/
theorem status_find (m : TunnelManager) (stats : String → TunnelStats) (name : String) :
    (∀ up, ((m.status stats).find? (·.name = name)).map (·.connected) = some up →
      (m.connections[name]?).isSome = up) ∧
    (name ∈ m.config.connectionNames →
      (((m.status stats).find? (·.name = name)).map (·.connected)).isSome) := by
  have spec := status_spec m stats
  constructor
  · intro up said
    obtain ⟨entry, found, rfl⟩ := Option.map_eq_some_iff.mp said
    obtain rfl : entry.name = name := of_decide_eq_true (List.find?_some found :)
    exact Bool.eq_iff_iff.mpr (spec.connected entry (List.mem_of_find?_eq_some found)).symm
  · intro configured
    rw [← spec.names, List.mem_map] at configured
    obtain ⟨entry, member, rfl⟩ := configured
    rw [Option.isSome_map, List.find?_isSome]
    exact ⟨entry, member, decide_eq_true rfl⟩

end

/-! ## Sessions at the shell -/

section

variable [Externals] (json : SerdeJson) (platform : Platform) (publicKey : PrivateKey → PublicKey)

abbrev Invocation := Passage × Subcommand

/-- A command is run, and its output read. -/
def shell (s : Process × Knowledge) (request : Invocation) : Option (Process × Knowledge) :=
  let (t, output) := request.2.invoke json platform publicKey request.1 s.1
  some (t, s.2.learn request.2 output)

/-- Either side reads what the other means. -/
def ReadsShell (s : Process × Knowledge) (request : Invocation) : Prop :=
  json.Sends request.2.command ∧
    json.Answers (processCommand platform request.1.answers request.1.loaded request.2.command
      s.1.world).2

variable {json platform publicKey} {p : Passage} {subcommand : Subcommand} {s : Process}
  {known : Knowledge}

theorem invoke_fst : (subcommand.invoke json platform publicKey p s).1 =
    (exchange json platform p subcommand.command s).1 := by
  cases subcommand <;> rfl

omit [Externals] in
theorem command_single : subcommand.command ≠ .streamLogs := by
  cases subcommand <;> exact nofun

theorem exchange_toward {command : DaemonCommand} (one : Exchanged json platform p command s)
    {peer : Option String} {up : Bool}
    (acts : Toward peer up s.world (carryOut platform p command s.world).1) :
    Toward peer up s.world (exchange json platform p command s).1.world := by
  rw [one.world]
  split
  · exact acts
  · exact .refl _ _ _

/-- A success is the daemon's. -/
theorem exchange_settled {command : DaemonCommand} (one : Exchanged json platform p command s)
    {done : String} {printed : List String}
    (ok : daemonCommand (exchange json platform p command s).2 >>= expectOk done = .ok printed) :
    (exchange json platform p command s).1.world = (carryOut platform p command s.world).1 ∧
      (processCommand platform p.answers p.loaded command s.world).2 = .ok := by
  obtain ⟨got, response⟩ := one.answered .ok (Cli.settled ok)
  exact ⟨by rw [one.world, if_pos got], response.symm⟩

theorem exchange_status (one : Exchanged json platform p .status s) :
    (exchange json platform p .status s).1.world.connection = s.world.connection := by
  rw [one.world]
  split
  · exact reloadFromDisk_connection
  · rfl

/-- The status that is printed is the daemon's. -/
theorem cmdStatus_ok {io : Io} {disk : Disk} {configPath : OsPath} {printed : List String}
    (one : Exchanged json platform p .status s)
    (ok : (cmdStatus json platform publicKey io disk configPath p s).2 = .ok printed) :
    ∃ config, printed = statusLines publicKey config
      ((exchange json platform p .status s).1.world.manager.status p.answers.stats) := by
  obtain ⟨response, got, known⟩ := bind_eq_ok.mp ok
  obtain ⟨reached, rfl⟩ := one.answered response (mapError_eq_ok.mp got)
  have world := one.world
  rw [if_pos reached] at world
  rw [world]
  exact ⟨_, (Except.ok.inj known).symm⟩

/-- What one knows stays so, and what is printed is so too. -/
theorem Knows.learn (knows : Knows known s.world)
    (one : Exchanged json platform p subcommand.command s) :
    Knows (known.learn subcommand (subcommand.invoke json platform publicKey p s).2)
      (exchange json platform p subcommand.command s).1.world := by
  cases subcommand with
  | up peer =>
    have toward := exchange_toward one (up_toward peer .boringtun)
    cases peer with
    | none => exact knows.doubt toward
    | some asked =>
      cases output : (cmdUp json platform (some asked) p s).2 with
      | error e =>
        simp only [Subcommand.invoke, output]
        exact knows.doubt toward
      | ok printed =>
        obtain ⟨world, done⟩ := exchange_settled one output
        have active := (up_one (p.answers.up asked) asked .boringtun
          (reloadFromDisk p.loaded s.world)).2 done
        simp only [Subcommand.invoke, output]
        exact knows.update toward (world ▸ active)
  | down peer =>
    have toward := exchange_toward one (down_toward peer)
    cases output : (cmdDown json platform peer p s).2 with
    | error e =>
      simp only [Subcommand.invoke, output]
      cases peer <;> exact knows.doubt toward
    | ok printed =>
      obtain ⟨world, _⟩ := exchange_settled one output
      simp only [Subcommand.invoke, output]
      cases peer with
      | none =>
        intro name up same
        cases same
        exact world ▸ down_every p.answers s.world name
      | some asked =>
        have inactive := (down_one (p.answers.down asked) asked s.world).2
        exact knows.update toward (world ▸ inactive)
  | status io disk configPath =>
    have connection := exchange_status one
    cases output : (cmdStatus json platform publicKey io disk configPath p s).2 with
    | error e =>
      simp only [Subcommand.invoke, output]
      intro name up held
      exact connection ▸ knows name up held
    | ok printed =>
      obtain ⟨config, rfl⟩ := cmdStatus_ok one output
      simp only [Subcommand.invoke, output]
      intro name up held
      simp only [Knowledge.learn, saysOf_statusLines] at held
      rcases Option.or_eq_some_iff.mp held with said | ⟨_, before⟩
      · exact (status_find _ _ name).1 up said
      · exact connection ▸ knows name up before
  | daemonStop =>
    have dropped : Toward none false s.world (carryOut platform p .shutdown s.world).1 :=
      ⟨nofun, fun name _ => down_every p.answers s.world name⟩
    have toward := exchange_toward one dropped
    cases output : (cmdDaemonStop json platform p s).2 with
    | error e =>
      simp only [Subcommand.invoke, output]
      exact knows.doubt toward
    | ok printed =>
      obtain ⟨world, _⟩ := exchange_settled one output
      simp only [Subcommand.invoke, output]
      intro name up same
      cases same
      exact world ▸ down_every p.answers s.world name

/-- A status that nothing happens to tells all, while the daemon runs, and a success for all is one
for each. -/
structure Informs (request : Invocation) (output : Output) (t : Process × Knowledge) : Prop where
  status : request.2.command = .status → request.1.Fair → t.1.stopped = false →
    ∀ name ∈ t.1.world.manager.config.connectionNames,
      t.2 name = some (t.1.world.connection name).isSome
  all : request.2 = .up none → ∀ printed, output = .ok printed →
    ∀ name ∈ t.1.world.manager.config.connectionNames, (t.1.world.connection name).isSome

theorem learn_status {io : Io} {disk : Disk} {configPath : OsPath}
    (one : Exchanged json platform p .status s) (running : s.stopped = false) (fair : p.Fair)
    (name : String)
    (configured : name ∈
      (exchange json platform p .status s).1.world.manager.config.connectionNames) :
    known.learn (.status io disk configPath)
        (cmdStatus json platform publicKey io disk configPath p s).2 name =
      some ((exchange json platform p .status s).1.world.connection name).isSome := by
  obtain ⟨_, got⟩ := one.fair running fair
  obtain ⟨printed, output⟩ : ∃ printed,
      (cmdStatus json platform publicKey io disk configPath p s).2 = .ok printed :=
    ⟨_, bind_eq_ok.mpr ⟨_, mapError_eq_ok.mpr got, rfl⟩⟩
  obtain ⟨config, rfl⟩ := cmdStatus_ok one output
  have found := status_find
    (exchange json platform p .status s).1.world.manager p.answers.stats name
  obtain ⟨up, said⟩ := Option.isSome_iff_exists.mp (found.2 configured)
  rw [output]
  simp only [Knowledge.learn, saysOf_statusLines, said, Option.some_or, Option.some.injEq]
  exact (found.1 up said).symm

theorem informs (one : Exchanged json platform p subcommand.command s) :
    let served := subcommand.invoke json platform publicKey p s
    Informs (p, subcommand) served.2 (served.1, known.learn subcommand served.2) := by
  constructor
  · intro asked fair running name configured
    cases subcommand with
    | status io disk configPath =>
      have before : s.stopped = false :=
        (Bool.or_eq_false_iff.mp (one.stopped.symm.trans running)).1
      exact learn_status one before fair name configured
    | _ => cases asked
  · rintro ⟨⟩ printed ok name configured
    obtain ⟨world, done⟩ := exchange_settled one ok
    simp only [invoke_fst] at configured ⊢
    rw [world] at configured ⊢
    refine (up_every p.answers.up .boringtun (reloadFromDisk p.loaded s.world)).2 done name ?_
    exact configured

theorem shell_exchanged {s : Process × Knowledge} {request : Invocation}
    (reads : ReadsShell json platform s request) :
    Exchanged json platform request.1 request.2.command s.1 :=
  exchanged reads.1 reads.2 command_single

/-- For one who starts with knowing nothing and believes what is printed, however the connections
to the daemon break: what is known of a connection is so after every command, also when that was the
end of the daemon; it is known of all after a status that nothing happened to while the daemon ran,
and all are up when bringing up all was a success. -/
theorem cli_knows {requests : List Invocation} {s : Process}
    (reads : Along (shell json platform publicKey) (ReadsShell json platform) requests
      (s, fun _ => none)) :
    Always (shell json platform publicKey) (fun s => Knows s.2 s.1.world) requests
        (s, fun _ => none) ∧
      Along (shell json platform publicKey) (fun s request => ∀ t,
        shell json platform publicKey s request = some t →
          Informs request (request.2.invoke json platform publicKey request.1 s.1).2 t) requests
        (s, fun _ => none) := by
  constructor
  · refine always_of_along (fun request _ s t knows reads taken => ?_) nofun reads
    cases taken
    have known := @Knows.learn _ json platform publicKey _ _ _ _ knows (shell_exchanged reads)
    rwa [← invoke_fst] at known
  · refine Along.strengthen (p := fun _ => True) (fun s request _ reads t taken => ?_)
      (always_of_step (fun _ _ _ _ _ => trivial) _ trivial) reads
    cases taken
    exact informs (shell_exchanged reads)

end

namespace ShellSample

open RpcSample (whole broken)
open TunnelSample

def line : String := "\x7b\"Up\":\x7b\"connection_name\":\"home\",\"backend\":\"Boringtun\"\x7d\x7d"

/-- The texts of two commands and their answer. -/
def json : SerdeJson where
  client := {
    encode := fun
      | .up (some "home") .boringtun => .ok line
      | .shutdown => .ok "\"Shutdown\""
      | _ => .error "another"
    decode := fun s => if s = "\"Ok\"" then .ok .ok else .error "EOF while parsing" }
  daemon := {
    encode := fun
      | .ok => .ok "\"Ok\""
      | _ => .error "another"
    decode := fun s =>
      if s = line then .ok (.up (some "home") .boringtun)
      else if s = "\"Shutdown\"" then .ok .shutdown
      else .error "EOF while parsing" }

theorem sends_up : json.Sends (.up (some "home") .boringtun) :=
  ⟨line, rfl, .of_inits (by decide +kernel) (by decide +kernel) (by decide +kernel)
    (by decide +kernel) (by decide +kernel)⟩

theorem sends_shutdown : json.Sends .shutdown :=
  ⟨_, rfl, .of_inits (by decide) (by decide) (by decide +kernel) (by decide +kernel)
    (by decide +kernel)⟩

theorem answers_ok : json.Answers .ok :=
  ⟨"\"Ok\"", rfl, .of_only (by decide) (by decide) (by decide +kernel)
    (by simp [json, Except.toOption]) fun _ other => by simp [json, other, Except.toOption]⟩

def server : Process :=
  ⟨⟨worldOf ((default : AppConfig).insert "home" (wgWith [] [])), [], 0⟩, false⟩

def publicKey (key : PrivateKey) : PublicKey := ⟨key.bytes⟩

/-- The pipe of the first command breaks. -/
def ups : List Invocation := [(broken, .up (some "home")), (whole, .up (some "home"))]

theorem up_answer : (@processCommand externals .macos whole.answers whole.loaded
    (.up (some "home") .boringtun) server.world).2 = .ok := by rfl

end ShellSample

open ShellSample Tunnel.TunnelSample in
open RpcSample (broken whole) in
/-- One knows that the connection is up, only from the second command on, and with the last one that
it is not any more. -/
theorem cli_knows_home :
    ∃ up final, run (@shell externals json .macos publicKey) ups (server, fun _ => none) =
        some up ∧ up.2 "home" = some true ∧ Knows up.2 up.1.world ∧
      run (@shell externals json .macos publicKey) [(whole, .daemonStop)] up = some final ∧
        final.2 "home" = some false ∧ Knows final.2 final.1.world := by
  have there : (run (@shell externals json .macos publicKey) ups (server, fun _ => none)).map
      (fun up => up.2 "home") = some (some true) := by decide +kernel
  obtain ⟨up, reached, known⟩ := Option.map_eq_some_iff.mp there
  have ended : (run (@shell externals json .macos publicKey) (ups ++ [(whole, .daemonStop)])
      (server, fun _ => none)).map (fun final => final.2 "home") = some (some false) := by
    decide +kernel
  obtain ⟨final, all, gone⟩ := Option.map_eq_some_iff.mp ended
  have last := all
  rw [run_append, reached, Option.bind_some] at last
  have always := (@cli_knows externals json .macos publicKey (ups ++ [(whole, .daemonStop)]) server
    ?_).1
  · refine ⟨up, final, reached, known, ?_, last, gone, always.last all⟩
    rw [always_iff_reached] at always
    exact always ups [(whole, .daemonStop)] rfl up reached
  · have answers : @ReadsShell externals json .macos (server, fun _ => none)
        (broken, .up (some "home")) :=
      ⟨sends_up, (congrArg json.Answers up_answer).mpr answers_ok⟩
    refine fun next taken => ⟨answers, fun later _ =>
      ⟨⟨sends_up, ?_⟩, fun end' _ => ⟨⟨sends_shutdown, answers_ok⟩, trivial⟩⟩⟩
    have missed : server.gets json broken (.up (some "home") .boringtun) = false := by
      decide +kernel
    have world := @Exchanged.world externals _ _ _ _ _ (@shell_exchanged externals _ _ _ _ answers)
    simp only [Subcommand.command, missed, Bool.false_eq_true, if_false] at world
    have same : next.1.world = server.world :=
      (congrArg (·.1.world) (Option.some.inj taken)).symm.trans world
    rw [same]
    exact (congrArg json.Answers up_answer).mpr answers_ok

end FerroWg.Cli
