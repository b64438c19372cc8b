import FerroWg.Lib.Script
import FerroWg.Tui.Tasks

/-!
# The operations on the configuration file, step by step

`try_save_config`, `try_import` and `cmd_import` as programs whose steps another task, another
process or a crash can come between. How a file is written is a parameter: in one step, or
truncated and then filled byte by byte.
-/

namespace FerroWg.Tui

open Lib

/-- The files, and what the tasks have sent to the event loop. -/
structure World where
  disk : Disk
  mail : List DaemonMessage

inductive FileStep where
  | check
  | load
  | backup
  | write
  | send
  deriving DecidableEq, Repr

abbrev FileTask := Script FileStep World

def World.put (world : World) (p : OsPath) (contents : Option Contents) : World :=
  { world with disk := world.disk.put p contents }

/-- A way to write a file: whatever the steps, they add up to one write, and they touch
nothing else. -/
structure Writer (io : Io) where
  write : FileStep → OsPath → String → FileTask (Except String Unit)
  run_write : ∀ label p s world, (write label p s).run world =
    ({ world with disk := (writeFile io world.disk p s).1 }, (writeFile io world.disk p s).2)
  stops_write : ∀ label p s world, ∀ stop ∈ (write label p s).stops world,
    stop.mail = world.mail ∧ ∀ q ≠ p, stop.disk q = world.disk q

/-- The write as one step. -/
def writeWhole (io : Io) (label : FileStep) (p : OsPath) (s : String) :
    FileTask (Except String Unit) :=
  .step label (fun world => { world with disk := (writeFile io world.disk p s).1 }) fun world =>
    .done (writeFile io world.disk p s).2

def Writer.whole (io : Io) : Writer io where
  write := writeWhole io
  run_write _ _ _ _ := rfl
  stops_write label p s world stop member := by
    simp only [writeWhole, Script.stops, List.mem_cons, List.not_mem_nil, or_false] at member
    rcases member with rfl | rfl
    · exact ⟨rfl, fun _ _ => rfl⟩
    · exact ⟨rfl, fun q other => writeFile_other _ _ other⟩

/-- The bytes still to be written, one at a time. -/
def fill (label : FileStep) (p : OsPath) (s : String) : Nat → FileTask (Except String Unit)
  | 0 => .done (.ok ())
  | left + 1 => .step label (·.put p (some (Contents.cut s (s.utf8ByteSize - left)))) fun _ =>
      fill label p s left

/-- `std::fs::write`: open and truncate, then `write_all`. -/
def writeBytes (io : Io) (label : FileStep) (p : OsPath) (s : String) :
    FileTask (Except String Unit) :=
  match io.writeError p with
  | some failure => .step label (·.put p failure.left) fun _ => .done (.error failure.reason)
  | none => .step label (·.put p (some (Contents.cut s 0))) fun _ =>
      fill label p s s.utf8ByteSize

@[simp] theorem World.put_put (world : World) (p : OsPath) (first second : Option Contents) :
    (world.put p first).put p second = world.put p second := by
  simp [put, Disk.put]

theorem World.put_other (world : World) {p q : OsPath} (other : q ≠ p)
    (contents : Option Contents) : (world.put p contents).disk q = world.disk q := by
  simp [put, Disk.put, Function.update_of_ne other]

theorem run_fill (label : FileStep) (p : OsPath) (s : String) (left : Nat) (world : World) :
    (fill label p s left).run (world.put p (some (Contents.cut s (s.utf8ByteSize - left)))) =
      (world.put p (some (.text s)), .ok ()) := by
  induction left with
  | zero => simp [fill, Script.run, Contents.cut_all]
  | succ left ih => simpa [fill, Script.run] using ih

theorem stops_fill {label : FileStep} {p : OsPath} {s : String} {left : Nat} {world stop : World}
    (member : stop ∈ (fill label p s left).stops world) :
    stop.mail = world.mail ∧ ∀ q ≠ p, stop.disk q = world.disk q := by
  induction left generalizing world with
  | zero =>
    obtain rfl := List.mem_singleton.mp member
    exact ⟨rfl, fun _ _ => rfl⟩
  | succ left ih =>
    rcases List.mem_cons.mp member with rfl | later
    · exact ⟨rfl, fun _ _ => rfl⟩
    · obtain ⟨mail, kept⟩ := ih later
      exact ⟨mail, fun q other => (kept q other).trans (world.put_other other _)⟩

def Writer.bytewise (io : Io) : Writer io where
  write := writeBytes io
  run_write label p s world := by
    cases refused : io.writeError p with
    | some failure => simp [writeBytes, writeFile, refused, Script.run, World.put]
    | none =>
      have filled := run_fill label p s s.utf8ByteSize world
      rw [Nat.sub_self] at filled
      rw [writeBytes, refused]
      exact filled.trans (by simp [writeFile, refused, World.put])
  stops_write label p s world stop member := by
    cases refused : io.writeError p with
    | some failure =>
      simp only [writeBytes, refused, Script.stops, List.mem_cons, List.not_mem_nil, or_false]
        at member
      rcases member with rfl | rfl
      · exact ⟨rfl, fun _ _ => rfl⟩
      · exact ⟨rfl, fun q other => world.put_other other _⟩
    | none =>
      simp only [writeBytes, refused, Script.stops, List.mem_cons] at member
      rcases member with rfl | later
      · exact ⟨rfl, fun _ _ => rfl⟩
      · obtain ⟨mail, kept⟩ := stops_fill later
        exact ⟨mail, fun q other => (kept q other).trans (world.put_other other _)⟩

section

variable [Externals]

def saveAppConfigTask {io : Io} (writer : Writer io) (config : AppConfig) (p : OsPath) :
    FileTask (Except ConfigError Unit) :=
  match saveAppConfigString config with
  | .error e => .done (.error e)
  | .ok contents =>
    match io.createDirError with
    | some e => .done (.error (.tomlParse s!"create dir: {e}"))
    | none => (writer.write .write p contents).bind fun result =>
        .done (result.mapError .tomlParse)

def saveTask {io : Io} (writer : Writer io) (connectionName : String) (draft : WgConfig)
    (configPath : OsPath) : FileTask (Except String AppConfig) :=
  .step .load id fun world =>
    match loadAppConfig io world.disk configPath with
    | .error e => .done (.error s!"Could not load config: {e.display}")
    | .ok existing =>
      match saveAppConfigString existing with
      | .error e => .done (.error s!"Could not serialise backup: {e.display}")
      | .ok backup =>
        (writer.write .backup (configPath.withExtension "toml.bak") backup).bind fun
          | .error e => .done (.error s!"Could not write backup: {e}")
          | .ok () =>
            let updated := existing.insert connectionName draft
            (saveAppConfigTask writer updated configPath).bind fun
              | .error e => .done (.error s!"Could not write config: {e.display}")
              | .ok () => .done (.ok updated)

/-- What the file to import holds does not depend on the configuration file; it has been
read and parsed. -/
def importTask {io : Io} (writer : Writer io) (parsed : Except ConfigError WgConfig)
    (importPath configPath : OsPath) : FileTask (Except String AppConfig) :=
  match connectionNameFromPath importPath with
  | .error e => .done (.error e)
  | .ok name =>
    match parsed with
    | .error e => .done (.error s!"Import failed: {e.display}")
    | .ok wgConfig =>
      .step .load id fun world =>
        match loadAppConfig io world.disk configPath with
        | .error e => .done (.error s!"Could not load config: {e.display}")
        | .ok existing =>
          let config := existing.insert name wgConfig
          (saveAppConfigTask writer config configPath).bind fun
            | .error e => .done (.error s!"Could not save config: {e.display}")
            | .ok () => .done (.ok config)

/-- `exists`, then the load. -/
def loadOrDefaultTask (io : Io) (p : OsPath) : FileTask (Except ConfigError AppConfig) :=
  .step .check id fun world =>
    if (world.disk p).isSome then
      .step .load id fun world => .done (loadAppConfig io world.disk p)
    else .done (.ok default)

def cmdImportTask {io : Io} (writer : Writer io) (parsed : Except ConfigError WgConfig)
    (src dst : OsPath) : FileTask (Except ConfigError AppConfig) :=
  match parsed with
  | .error e => .done (.error e)
  | .ok wgConfig =>
    let connName := (src.fileStem.bind OsPath.toStr).getD "default"
    let wgConfig := { wgConfig with peers := nameImportedPeers connName wgConfig.peers }
    (loadOrDefaultTask io dst).bind fun
      | .error e => .done (.error e)
      | .ok existing =>
        let config := existing.insert connName wgConfig
        (saveAppConfigTask writer config dst).bind fun result =>
          .done (result.map fun () => config)

theorem run_saveAppConfigTask {io : Io} (writer : Writer io) (config : AppConfig) (p : OsPath)
    (world : World) : (saveAppConfigTask writer config p).run world =
      ({ world with disk := (saveAppConfig io world.disk config p).1 },
        (saveAppConfig io world.disk config p).2) := by
  rw [saveAppConfigTask, saveAppConfig]
  cases saveAppConfigString config with
  | error e => rfl
  | ok contents =>
    cases io.createDirError with
    | some e => rfl
    | none => simp [Script.run_bind, writer.run_write, Script.run]

/-- Undisturbed, the steps of a save come to the save. -/
theorem run_saveTask {io : Io} (writer : Writer io) (name : String) (draft : WgConfig)
    (p : OsPath) (world : World) : (saveTask writer name draft p).run world =
      ({ world with disk := (saveDraft io world.disk name draft p).1 },
        (saveDraft io world.disk name draft p).2) := by
  rw [saveTask, saveDraft]
  simp only [Script.run, id_eq]
  cases loadAppConfig io world.disk p with
  | error e => rfl
  | ok existing =>
    simp only
    cases saveAppConfigString existing with
    | error e => rfl
    | ok backup =>
      simp only [Script.run_bind, writer.run_write]
      rcases writeFile io world.disk (p.withExtension "toml.bak") backup with ⟨between, _ | _⟩
      · rfl
      · simp only [Script.run_bind, run_saveAppConfigTask]
        rcases saveAppConfig io between (existing.insert name draft) p with ⟨after, _ | _⟩ <;> rfl

theorem run_importTask {io : Io} (writer : Writer io) (source p : OsPath) (world : World) :
    (importTask writer (loadFromFile io world.disk source) source p).run world =
      ({ world with disk := (tryImport io world.disk source p).1 },
        (tryImport io world.disk source p).2.map Prod.fst) := by
  rw [importTask, tryImport]
  cases connectionNameFromPath source with
  | error e => rfl
  | ok name =>
    cases loadFromFile io world.disk source with
    | error e => rfl
    | ok parsed =>
      simp only [Script.run, id_eq]
      cases loadAppConfig io world.disk p with
      | error e => rfl
      | ok existing =>
        simp only [Script.run_bind, run_saveAppConfigTask]
        rcases saveAppConfig io world.disk (existing.insert name parsed) p with
          ⟨after, _ | _⟩ <;> rfl

theorem run_loadOrDefaultTask (io : Io) (p : OsPath) (world : World) :
    (loadOrDefaultTask io p).run world = (world, loadOrDefault io world.disk p) := by
  rw [loadOrDefaultTask, loadOrDefault]
  simp only [Script.run, id_eq]
  split <;> rfl

theorem run_cmdImportTask {io : Io} (writer : Writer io) (source p : OsPath) (world : World) :
    ((cmdImportTask writer (loadFromFile io world.disk source) source p).run world).1 =
        { world with disk := (cmdImport io world.disk source p).1 } ∧
      ((cmdImportTask writer (loadFromFile io world.disk source) source p).run world).2.map
        (fun _ => ()) = (cmdImport io world.disk source p).2 := by
  unfold cmdImportTask cmdImport
  cases loadFromFile io world.disk source with
  | error e => exact ⟨rfl, rfl⟩
  | ok parsed =>
    simp only [Script.run_bind, run_loadOrDefaultTask]
    cases loadOrDefault io world.disk p with
    | error e => exact ⟨rfl, rfl⟩
    | ok existing =>
      simp only [Script.run_bind, run_saveAppConfigTask]
      generalize saveAppConfig io world.disk _ p = saved
      rcases saved with ⟨after, _ | _⟩ <;> exact ⟨rfl, rfl⟩

end

end FerroWg.Tui
