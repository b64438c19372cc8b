import FerroWg.Import
import FerroWg.Tui.State

/-!
# Background tasks

What the event loop hands to a task, and the message the task answers with. Import and save
are the two that touch the disk.
-/

namespace FerroWg.Tui

open Lib

inductive TuiError where
  | daemonClient (message : String)
  | unknownBackend (backend : String)
  | streamClosed
  | daemonResponse (message : String)
  | executableNotFound (message : String)
  | daemonStartFailed (message : String)
  | configImportFailed (message : String)
  | generic (message : String)
  deriving DecidableEq, Repr

def TuiError.display : TuiError → String
  | .daemonClient message => message
  | .unknownBackend backend => s!"unknown benchmark backend: {backend}"
  | .streamClosed => "stream closed unexpectedly"
  | .daemonResponse message => s!"daemon error: {message}"
  | .executableNotFound message => s!"could not find ferro-wg executable: {message}"
  | .daemonStartFailed message =>
    s!"could not start daemon: run 'sudo ferro-wg daemon --daemonize' ({message})"
  | .configImportFailed message => s!"config import failed: {message}"
  | .generic message => message

inductive DaemonMessage where
  | statusUpdate (peers : List PeerStatus)
  | commandOk (message : String)
  | commandError (error : TuiError)
  | unreachable
  | reloadConfig (config : AppConfig) (message : String)
  | benchmarkProgress (progress : BenchmarkProgress)
  | benchmarkComplete (result : BenchmarkResult)

variable [Externals]

def importAndPersist (io : Io) (disk : Disk) (importPath configPath : OsPath) :
    Disk × DaemonMessage :=
  match tryImport io disk importPath configPath with
  | (disk, .ok (config, name)) => (disk, .reloadConfig config s!"Imported: {name}")
  | (disk, .error e) => (disk, .commandError (.configImportFailed e))

/-- The steps of a save up to its result: load, back up, insert, write. -/
def saveDraft (io : Io) (disk : Disk) (connectionName : String) (draft : WgConfig)
    (configPath : OsPath) : Disk × Except String AppConfig :=
  match loadAppConfig io disk configPath with
  | .error e => (disk, .error s!"Could not load config: {e.display}")
  | .ok existing =>
    match saveAppConfigString existing with
    | .error e => (disk, .error s!"Could not serialise backup: {e.display}")
    | .ok backup =>
      match writeFile io disk (configPath.withExtension "toml.bak") backup with
      | (disk, .error e) => (disk, .error s!"Could not write backup: {e}")
      | (disk, .ok ()) =>
        let updated := existing.insert connectionName draft
        match saveAppConfig io disk updated configPath with
        | (disk, .error e) => (disk, .error s!"Could not write config: {e.display}")
        | (disk, .ok ()) => (disk, .ok updated)

def trySaveConfig (io : Io) (disk : Disk) (connectionName : String) (draft : WgConfig)
    (configPath : OsPath) : Disk × DaemonMessage :=
  match saveDraft io disk connectionName draft configPath with
  | (disk, .ok config) => (disk, .reloadConfig config "Config saved")
  | (disk, .error e) => (disk, .commandError (.generic e))

/-- A save that is refused before the write leaves the file alone. -/
theorem saveAppConfig_cases (roundTrip : TomlRoundTrip) {io : Io} (disk : Disk)
    (config : AppConfig) {p : OsPath} (writable : io.writeError p = none) :
    (saveAppConfig io disk config p).1 = disk ∨
      (saveAppConfig io disk config p).1.Holds p config := by
  rw [saveAppConfig]
  cases encoded : saveAppConfigString config with
  | error e => exact .inl rfl
  | ok s =>
    cases dir : io.createDirError with
    | some e => exact .inl rfl
    | none =>
      refine .inr ⟨s, ?_, roundTrip config s (mapError_eq_ok.mp encoded)⟩
      simp [writeFile, writable, Disk.put]

/-- The backup has the configuration too, so it does no harm should its path be the same. -/
theorem backup_holds (roundTrip : TomlRoundTrip) {io : Io} {disk : Disk} {p : OsPath}
    {existing : AppConfig} {backup : String} (writable : io.writeError p = none)
    (holds : disk.Holds p existing) (encoded : Externals.appToToml existing = .ok backup)
    (q : OsPath) : (writeFile io disk q backup).1.Holds p existing := by
  by_cases same : p = q
  · subst same
    exact ⟨backup, by simp [writeFile, writable, Disk.put], roundTrip existing backup encoded⟩
  · obtain ⟨s, there, decoded⟩ := holds
    exact ⟨s, by rw [writeFile_other disk backup same, there], decoded⟩

theorem saveDraft_holds (roundTrip : TomlRoundTrip) {io : Io} {disk : Disk} {name : String}
    {draft : WgConfig} {p : OsPath} {existing : AppConfig} (writable : io.writeError p = none)
    (loaded : loadAppConfig io disk p = .ok existing) :
    (saveDraft io disk name draft p).1.Holds p existing ∨
      (saveDraft io disk name draft p).1.Holds p (existing.insert name draft) := by
  obtain ⟨holds, _⟩ := holds_of_load loaded
  rw [saveDraft]
  simp only [loaded]
  cases encoded : saveAppConfigString existing with
  | error e => exact .inl holds
  | ok backup =>
    have kept := backup_holds roundTrip writable holds (mapError_eq_ok.mp encoded)
      (p.withExtension "toml.bak")
    simp only
    generalize writeFile io disk (p.withExtension "toml.bak") backup = written at kept ⊢
    obtain ⟨between, _ | _⟩ := written
    · exact .inl kept
    · have last := saveAppConfig_cases roundTrip between (existing.insert name draft) writable
      simp only
      generalize saveAppConfig io between (existing.insert name draft) p = saved at last ⊢
      obtain ⟨after, _ | _⟩ := saved <;>
        exact last.imp (fun same : after = between => same ▸ kept) id

theorem trySaveConfig_disk (io : Io) (disk : Disk) (name : String) (draft : WgConfig)
    (p : OsPath) : (trySaveConfig io disk name draft p).1 = (saveDraft io disk name draft p).1 := by
  rw [trySaveConfig]
  split <;> simp [*]

theorem saveDraft_ok {io : Io} {disk : Disk} {name : String} {draft : WgConfig} {p : OsPath}
    {config : AppConfig} (saved : (saveDraft io disk name draft p).2 = .ok config) :
    config.get name = some draft ∧ ∃ text, Externals.appToToml config = .ok text ∧
      (saveDraft io disk name draft p).1 p = some (.text text) := by
  rw [saveDraft] at saved ⊢
  cases loaded : loadAppConfig io disk p with
  | error e => simp [loaded] at saved
  | ok existing =>
    simp only [loaded] at saved ⊢
    cases serialised : saveAppConfigString existing with
    | error e => simp [serialised] at saved
    | ok backup =>
      simp only [serialised] at saved ⊢
      generalize writeFile io disk (p.withExtension "toml.bak") backup = written at saved ⊢
      obtain ⟨between, _ | _⟩ := written
      · cases saved
      · simp only at saved ⊢
        have write := @saveAppConfig_ok _ io between (existing.insert name draft) p
        generalize saveAppConfig io between (existing.insert name draft) p = last at saved write ⊢
        obtain ⟨after, _ | _⟩ := last
        · cases saved
        · cases saved
          obtain ⟨text, encoded, put⟩ := write rfl
          refine ⟨by simp, text, encoded, ?_⟩
          simp only at put
          simp [put, Disk.put]

/-- A save that asks for a reload has written the file it reloads. -/
theorem trySaveConfig_reload {io : Io} {disk : Disk} {name message : String} {draft : WgConfig}
    {p : OsPath} {config : AppConfig}
    (saved : (trySaveConfig io disk name draft p).2 = .reloadConfig config message) :
    config.get name = some draft ∧ ∃ text, Externals.appToToml config = .ok text ∧
      (trySaveConfig io disk name draft p).1 p = some (.text text) := by
  rw [trySaveConfig_disk]
  apply saveDraft_ok
  rw [trySaveConfig] at saved
  split at saved
  · rename_i done
    cases saved
    rw [done]
  · cases saved

/-- As long as the file itself can be written, a save ends with the old configuration or with
the new one in it, however far it got; so it loads if the draft and its name are valid. -/
theorem trySaveConfig_loads (roundTrip : TomlRoundTrip) {io : Io} {disk : Disk} {name : String}
    {draft : WgConfig} {p : OsPath} {existing : AppConfig} (writable : io.writeError p = none)
    (loaded : loadAppConfig io disk p = .ok existing) (goodName : ValidName name)
    (valid : draft.validate = .ok ()) :
    ∃ after, loadAppConfig .clean (trySaveConfig io disk name draft p).1 p = .ok after := by
  have before := (holds_of_load loaded).2
  have entries := ((AppConfig.validate_ok_iff existing).mp before).2
  rw [trySaveConfig_disk]
  rcases @saveDraft_holds _ roundTrip _ _ name draft _ _ writable loaded with old | new
  · exact ⟨existing, (old.load_iff _).mpr ⟨rfl, before⟩⟩
  · exact ⟨_, (new.load_iff _).mpr
      ⟨rfl, (AppConfig.validate_insert_iff entries name draft).mpr ⟨goodName, valid⟩⟩⟩

end FerroWg.Tui
