import FerroWg.Daemon.Commands
import FerroWg.Tui.CrashSafe

/-!
# Saving and reconnecting

The task that saves a draft goes on to send a `Down` and an `Up`, whatever has become of the
save and whether or not the connection is up, and asks for `boringtun`.
-/

namespace FerroWg.Tui

open Lib Lib.Undo

/-- The daemon with the configuration file that it was started with. -/
structure RunningDaemon where
  world : Tunnel.World
  configPath : OsPath

/-- What the task can reach. A client finds no socket when the daemon is not running. -/
structure Machine where
  disk : Disk
  mail : List DaemonMessage
  daemon : Option RunningDaemon

/-- A command that reached the daemon, with its answer. -/
abbrev Exchange := DaemonCommand × DaemonResponse

/-- How the system answers the two programs. -/
structure SaveAnswers where
  io : Io
  daemonIo : Io
  down : CommandAnswers
  up : CommandAnswers

section

variable [Externals]

def sendCommand (platform : Tunnel.Platform) (io : Io) (a : CommandAnswers)
    (command : DaemonCommand) (m : Machine) : Machine × List Exchange :=
  match m.daemon with
  | none => (m, [])
  | some daemon =>
    let (world, response) := Daemon.processCommand platform a
      (loadAppConfig io m.disk daemon.configPath) command daemon.world
    ({ m with daemon := some { daemon with world := world } }, [(command, response)])

/-- `spawn_save_config_task`; what the two commands come to is not looked at. -/
def saveConfigTask (platform : Tunnel.Platform) (a : SaveAnswers) (connectionName : String)
    (draft : WgConfig) (reconnect : Bool) (configPath : OsPath) (m : Machine) :
    Machine × List Exchange :=
  let (disk, message) := trySaveConfig a.io m.disk connectionName draft configPath
  let m := { m with disk := disk, mail := m.mail ++ [message] }
  if reconnect then
    let (m, first) :=
      sendCommand platform a.daemonIo a.down (.down (some connectionName)) m
    let (m, second) :=
      sendCommand platform a.daemonIo a.up (.up (some connectionName) .boringtun) m
    (m, first ++ second)
  else (m, [])

/-- Every step of a save goes well. -/
def SaveSucceeds (io : Io) (disk : Disk) (connectionName : String) (draft : WgConfig)
    (configPath : OsPath) : Prop :=
  ¬FailsEarly io disk connectionName draft configPath ∧ io.writeError configPath = none

theorem saveDraft_ok_iff {io : Io} {disk : Disk} {name : String} {draft : WgConfig}
    {p : OsPath} :
    (∃ config, (saveDraft io disk name draft p).2 = .ok config) ↔
      SaveSucceeds io disk name draft p := by
  rw [SaveSucceeds, FailsEarly, saveDraft]
  cases loadAppConfig io disk p with
  | error e => simp
  | ok existing =>
    simp only
    cases saveAppConfigString existing with
    | error e => simp
    | ok backup =>
      simp only [writeFile]
      cases io.writeError (p.withExtension "toml.bak") with
      | some failure => simp
      | none =>
        simp only [saveAppConfig]
        cases saveAppConfigString (existing.insert name draft) with
        | error e => simp
        | ok contents =>
          cases io.createDirError with
          | some e => simp
          | none =>
            simp only [writeFile]
            cases io.writeError p <;> simp [Except.mapError]

/-- The connection went down and came up with the draft for its configuration. -/
def Restarted (connectionName : String) (draft : WgConfig) (after : RunningDaemon)
    (exchanges : List Exchange) : Prop :=
  exchanges = [(.down (some connectionName), .ok), (.up (some connectionName) .boringtun, .ok)] ∧
    after.world.manager.config.get connectionName = some draft

/-- The reconnect leaves up what was up, on the backend it was on. -/
structure Reconnected (connectionName : String) (draft : WgConfig)
    (before after : RunningDaemon) (exchanges : List Exchange) : Prop where
  active : ∀ name, (after.world.connection name).isSome = (before.world.connection name).isSome
  backends : ∀ name conn conn', before.world.connection name = some conn →
    after.world.connection name = some conn' → conn'.backendKind = conn.backendKind
  restarted : Restarted connectionName draft after exchanges ↔
    (before.world.connection connectionName).isSome

/-- The daemon reads its file and, with the connection down, brings it up. -/
def DaemonSucceeds (platform : Tunnel.Platform) (a : SaveAnswers) (connectionName : String)
    (disk : Disk) (daemon : RunningDaemon) : Prop :=
  ∃ config w, loadAppConfig a.daemonIo disk daemon.configPath = .ok config ∧
    (Tunnel.up platform (a.up.up connectionName) connectionName .boringtun).run
      (Tunnel.reloadConfig config
        (after (Tunnel.down (a.down.down connectionName) connectionName) daemon.world)) = .ok () w

/-- A save that fails reaches no tunnel; one that succeeds restarts the connection if it is
up and, as long as the daemon succeeds, leaves up what was up. -/
def SafeReconnect (platform : Tunnel.Platform) (a : SaveAnswers) (connectionName : String)
    (draft : WgConfig) (configPath : OsPath) (m : Machine) : Prop :=
  let (last, exchanges) := saveConfigTask platform a connectionName draft true configPath m
  match (saveDraft a.io m.disk connectionName draft configPath).2 with
  | .error _ => exchanges = [] ∧ last.daemon = m.daemon
  | .ok _ => ∀ daemon, m.daemon = some daemon → ∀ daemon', last.daemon = some daemon' →
      DaemonSucceeds platform a connectionName last.disk daemon →
      Reconnected connectionName draft daemon daemon' exchanges

section

variable {platform : Tunnel.Platform} {a : SaveAnswers} {name : String} {draft : WgConfig}
  {p : OsPath} {m : Machine}

theorem saveConfigTask_stopped (stopped : m.daemon = none) :
    (saveConfigTask platform a name draft true p m).1.daemon = none ∧
      (saveConfigTask platform a name draft true p m).2 = [] := by
  simp [saveConfigTask, sendCommand, stopped]

theorem saveConfigTask_running {daemon : RunningDaemon} (running : m.daemon = some daemon) :
    let saved := (saveDraft a.io m.disk name draft p).1
    let first := Daemon.respond ((Tunnel.down (a.down.down name) name).run daemon.world)
    let second := Daemon.respond ((Tunnel.up platform (a.up.up name) name .boringtun).run
      (Daemon.reloadFromDisk (loadAppConfig a.daemonIo saved daemon.configPath) first.1))
    (saveConfigTask platform a name draft true p m).1.disk = saved ∧
      (saveConfigTask platform a name draft true p m).1.daemon =
        some { daemon with world := second.1 } ∧
      (saveConfigTask platform a name draft true p m).2 =
        [(.down (some name), first.2), (.up (some name) .boringtun, second.2)] := by
  simp only [saveConfigTask, sendCommand, running, if_true]
  rw [trySaveConfig_disk]
  exact ⟨rfl, rfl, rfl⟩

/-- Once the `Up` is answered with `Ok`, the connection is up on `boringtun`. -/
theorem reconnected_iff {daemon : RunningDaemon} {config : AppConfig} {w : Tunnel.World}
    (done : (Tunnel.up platform (a.up.up name) name .boringtun).run (Tunnel.reloadConfig config
      (after (Tunnel.down (a.down.down name) name) daemon.world)) = .ok () w) :
    Reconnected name draft daemon { daemon with world := w }
        [(.down (some name),
          (Daemon.respond ((Tunnel.down (a.down.down name) name).run daemon.world)).2),
        (.up (some name) .boringtun, .ok)] ↔
      (∃ conn, daemon.world.connection name = some conn ∧ conn.backendKind = .boringtun) ∧
        config.get name = some draft := by
  obtain ⟨_, configured, new, backend, connection⟩ := Daemon.up_ok done
  have torn (other : String) := Daemon.down_connection (a.down.down name) name daemon.world other
  have others (other : String) : w.connection other =
      if other = name then some new else daemon.world.connection other := by
    rw [connection]
    split
    · rfl
    · rename_i apart
      exact (torn other).trans (if_neg apart)
  have answer := Daemon.down_answer (a.down.down name) name daemon.world
  have current : w.manager.config.get name = config.get name := by rw [configured]; rfl
  constructor
  · intro safe
    have active := safe.active name
    simp only [others, if_true, Option.isSome_some] at active
    obtain ⟨conn, there⟩ := Option.isSome_iff_exists.mp active.symm
    have same := safe.backends name conn new there (by simp [others])
    refine ⟨⟨conn, there, same.symm.trans backend⟩, ?_⟩
    exact current.symm.trans (safe.restarted.mpr active.symm).2
  · rintro ⟨⟨conn, there, boringtun⟩, new⟩
    constructor
    · intro other
      simp only [others]
      split
      · rename_i same
        simp [same, there]
      · rfl
    · intro other conn₁ conn₂ before after
      simp only [others] at after
      split at after
      · rename_i same
        obtain rfl : conn = conn₁ := by simpa [same, there] using before
        cases after
        exact backend.trans boringtun.symm
      · rw [before] at after
        cases after
        rfl
    · simp [Restarted, there, answer, current, new]

theorem safeReconnect_stopped (stopped : m.daemon = none) :
    SafeReconnect platform a name draft p m := by
  obtain ⟨still, quiet⟩ :=
    @saveConfigTask_stopped _ platform a name draft p m stopped
  cases saved : (saveDraft a.io m.disk name draft p).2 with
  | error e => simp [SafeReconnect, saved, quiet, still, stopped]
  | ok updated => simp [SafeReconnect, saved, stopped]

/-- The commands are sent all the same. -/
theorem not_safeReconnect_failed {daemon : RunningDaemon} (running : m.daemon = some daemon)
    {e : String} (failed : (saveDraft a.io m.disk name draft p).2 = .error e) :
    ¬SafeReconnect platform a name draft p m := by
  obtain ⟨_, _, exchanges⟩ :=
    @saveConfigTask_running _ platform a name draft p m daemon running
  simp [SafeReconnect, failed, exchanges]

theorem safeReconnect_saved_iff {daemon : RunningDaemon} (running : m.daemon = some daemon)
    {updated : AppConfig} (saved : (saveDraft a.io m.disk name draft p).2 = .ok updated) :
    SafeReconnect platform a name draft p m ↔
      (DaemonSucceeds platform a name (saveDraft a.io m.disk name draft p).1 daemon →
        (∃ conn, daemon.world.connection name = some conn ∧ conn.backendKind = .boringtun) ∧
          ∀ config, loadAppConfig a.daemonIo (saveDraft a.io m.disk name draft p).1
            daemon.configPath = .ok config → config.get name = some draft) := by
  obtain ⟨disk, daemon', exchanges⟩ :=
    @saveConfigTask_running _ platform a name draft p m daemon running
  simp only [Daemon.respond_fst] at daemon' exchanges
  simp only [SafeReconnect, saved, running, disk, daemon', exchanges, Option.some.injEq,
    forall_eq']
  refine forall_congr' fun succeeds => ?_
  obtain ⟨config, w, loaded, done⟩ := succeeds
  have reloaded : Daemon.reloadFromDisk (.ok config)
      (after (Tunnel.down (a.down.down name) name) daemon.world) = Tunnel.reloadConfig config _ := rfl
  simp only [loaded, reloaded, done, after_of_ok done, Daemon.respond, Except.ok.injEq,
    forall_eq']
  exact reconnected_iff done

/-- When the file of the daemon is the one that was saved, it has the draft. -/
theorem loads_draft (roundTrip : TomlRoundTrip) {io daemonIo : Io} {disk : Disk}
    {updated config : AppConfig} (saved : (saveDraft io disk name draft p).2 = .ok updated)
    (loaded : loadAppConfig daemonIo (saveDraft io disk name draft p).1 p = .ok config) :
    config.get name = some draft := by
  obtain ⟨has, text, encoded, written⟩ := saveDraft_ok saved
  obtain ⟨s, there, decoded⟩ := (holds_of_load loaded).1
  obtain rfl : text = s := by simpa [written] using there
  obtain rfl : updated = config :=
    Except.ok.inj ((roundTrip updated text encoded).symm.trans decoded)
  exact has

theorem safeReconnect_one_file_iff (roundTrip : TomlRoundTrip) {daemon : RunningDaemon}
    (running : m.daemon = some daemon) (oneFile : daemon.configPath = p) {updated : AppConfig}
    (saved : (saveDraft a.io m.disk name draft p).2 = .ok updated) :
    SafeReconnect platform a name draft p m ↔
      (DaemonSucceeds platform a name (saveDraft a.io m.disk name draft p).1 daemon →
        ∃ conn, daemon.world.connection name = some conn ∧ conn.backendKind = .boringtun) := by
  rw [safeReconnect_saved_iff running saved, oneFile]
  refine forall_congr' fun _ => and_iff_left fun config loaded => ?_
  exact loads_draft roundTrip saved loaded

end

/-- Saving and reconnecting is safe exactly when the daemon is not running, or the save goes
well and, unless the daemon itself fails, the connection is up on `boringtun` and the file of
the daemon has the draft. -/
theorem reconnect_safe_iff (platform : Tunnel.Platform) (a : SaveAnswers)
    (connectionName : String) (draft : WgConfig) (configPath : OsPath) (m : Machine) :
    SafeReconnect platform a connectionName draft configPath m ↔
      ∀ daemon, m.daemon = some daemon →
        SaveSucceeds a.io m.disk connectionName draft configPath ∧
        (DaemonSucceeds platform a connectionName
            (saveDraft a.io m.disk connectionName draft configPath).1 daemon →
          (∃ conn, daemon.world.connection connectionName = some conn ∧
            conn.backendKind = .boringtun) ∧
          ∀ config, loadAppConfig a.daemonIo
              (saveDraft a.io m.disk connectionName draft configPath).1 daemon.configPath =
            .ok config → config.get connectionName = some draft) := by
  cases running : m.daemon with
  | none => exact iff_of_true (safeReconnect_stopped running) nofun
  | some daemon =>
    simp only [← saveDraft_ok_iff, Option.some.injEq, forall_eq']
    cases saved : (saveDraft a.io m.disk connectionName draft configPath).2 with
    | error e => simp [not_safeReconnect_failed running saved]
    | ok updated =>
      simp only [Except.ok.injEq, exists_eq', true_and]
      exact safeReconnect_saved_iff running saved

end

namespace ReconnectSample

open ImportSample (zeroKey interfaceToml tomlEnd config)
open Tunnel.TunnelSample (wgWith worldOf upAnswers downAnswers)

def homeWith (cidr : String) : AppConfig := AppConfig.insert default "home" (wgWith [] [cidr])

def homeToml (cidr : String) : String :=
  interfaceToml "connections.home.interface" ++
  "\n[[connections.home.peers]]\nname = \"peer\"\npublic_key = \"" ++ zeroKey ++
  "\"\nendpoint = \"192.0.2.9:51820\"\nallowed_ips = [\"" ++ cidr ++
  "\"]\npersistent_keepalive = 0\n\n" ++ tomlEnd

def draft : WgConfig := wgWith [] ["10.1.0.0/16"]

@[reducible] def externals : Externals :=
  .tabulated [(zeroKey, List.replicate 32 0)] []
    [(homeToml "10.0.0.0/8", homeWith "10.0.0.0/8"), (homeToml "10.1.0.0/16", homeWith "10.1.0.0/16")]

theorem roundTrip : @TomlRoundTrip externals := tabulated_roundTrip (by decide +kernel)

/-- One file for both programs, and a daemon with these connections. -/
def machine (connections : List (String × Tunnel.ActiveConnection)) : Machine where
  disk p := if p = config then some (.text (homeToml "10.0.0.0/8")) else none
  mail := []
  daemon := some ⟨connections.foldl (fun w (name, conn) => w.insert name conn)
    (worldOf (homeWith "10.0.0.0/8")), config⟩

def onNeptun : Tunnel.ActiveConnection := ⟨.neptun, "utun3", some "192.0.2.9:51820", none⟩

/-- Every call of the daemon succeeds. -/
def answers (io : Io) : SaveAnswers :=
  let commands : CommandAnswers :=
    ⟨fun _ => upAnswers "utun4", fun _ => downAnswers, [], fun _ => ⟨0, 0, none, 0, none⟩⟩
  ⟨io, .clean, commands, commands⟩

def diskFull : Io :=
  { Io.clean with writeError := fun _ => some ⟨"No space left on device (os error 28)", some (.text "")⟩ }

end ReconnectSample

open ReconnectSample in
/-- With the disk full, a tunnel is moved to another backend all the same; and a connection
that is not up is brought up. -/
theorem reconnect_unsafe :
    (∃ e, (@saveDraft externals diskFull (machine [("home", onNeptun)]).disk "home" draft
        ImportSample.config).2 = .error e) ∧
      ¬@SafeReconnect externals .macos (answers diskFull) "home" draft ImportSample.config
        (machine [("home", onNeptun)]) ∧
      ¬@SafeReconnect externals .macos (answers .clean) "home" draft ImportSample.config
        (machine []) := by
  have full : (@saveDraft externals diskFull (machine [("home", onNeptun)]).disk "home" draft
      ImportSample.config).2 =
        .error "Could not write backup: No space left on device (os error 28)" := by
    decide +kernel
  have saved : (@saveDraft externals .clean (machine []).disk "home" draft
      ImportSample.config).2 = .ok (homeWith "10.1.0.0/16") := by
    decide +kernel
  refine ⟨⟨_, full⟩, ?_, ?_⟩
  · exact @not_safeReconnect_failed externals .macos _ _ _ _ _ _ rfl _ full
  · rw [@safeReconnect_saved_iff externals .macos (answers .clean) _ _ _ _ _ rfl _ saved]
    intro kept
    have loaded : @loadAppConfig externals .clean (@saveDraft externals .clean (machine []).disk
        "home" draft ImportSample.config).1 ImportSample.config = .ok (homeWith "10.1.0.0/16") := by
      decide +kernel
    obtain ⟨⟨conn, there, _⟩, _⟩ := kept ⟨_, _, loaded, rfl⟩
    cases there

end FerroWg.Tui
