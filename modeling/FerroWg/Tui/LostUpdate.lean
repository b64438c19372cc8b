import FerroWg.Lib.Register
import FerroWg.Tui.FileTasks

/-!
# Two operations on the configuration file at a time

A save, an import at the prompt and an import on the command line all load the file, change
one entry and write the whole back; the two of the TUI then send what they wrote to the event
loop. No lock and no second look at the file stands between the load and the write.
-/

namespace FerroWg.Tui

open Lib

/-- An import comes with what its source file was parsed to. -/
inductive Operation where
  | save (connectionName : String) (draft : WgConfig)
  | tuiImport (importPath : OsPath) (parsed : WgConfig)
  | cliImport (src : OsPath) (parsed : WgConfig)

namespace Operation

def name : Operation → String
  | save connectionName _ => connectionName
  | tuiImport source _ | cliImport source _ => ImportPath.connectionName source

/-- What the operation puts under its name. -/
def entry : Operation → WgConfig
  | save _ draft => draft
  | tuiImport _ parsed => parsed
  | cliImport src parsed => ImportPath.cli.connection (ImportPath.connectionName src) parsed

def update (operation : Operation) (config : AppConfig) : AppConfig :=
  config.insert operation.name operation.entry

/-- A configuration that has the operation's entry. -/
def KeptIn (operation : Operation) (config : AppConfig) : Prop :=
  config.get operation.name = some operation.entry

instance (operation : Operation) (config : AppConfig) : Decidable (operation.KeptIn config) :=
  inferInstanceAs (Decidable (_ = _))

theorem keptIn_update (operation : Operation) (config : AppConfig) :
    operation.KeptIn (operation.update config) := by
  simp [KeptIn, update]

theorem keptIn_update_other {operation other : Operation} (distinct : operation.name ≠ other.name)
    (config : AppConfig) :
    operation.KeptIn (other.update config) ↔ operation.KeptIn config := by
  simp [KeptIn, update, distinct]

end Operation

def saveMessage : Except String AppConfig → DaemonMessage
  | .ok config => .reloadConfig config "Config saved"
  | .error e => .commandError (.generic e)

def importMessage (name : String) : Except String AppConfig → DaemonMessage
  | .ok config => .reloadConfig config s!"Imported: {name}"
  | .error e => .commandError (.configImportFailed e)

/-- The result goes to the event loop. -/
def sending (message : Except String AppConfig → DaemonMessage)
    (task : FileTask (Except String AppConfig)) : FileTask (Except String AppConfig) :=
  task.bind fun result =>
    .step .send (fun world => { world with mail := world.mail ++ [message result] }) fun _ =>
      .done result

def DaemonMessage.reloaded : DaemonMessage → Option AppConfig
  | .reloadConfig config _ => some config
  | _ => none

def FileStep.access : FileStep → Access
  | .check | .load => .look
  | .backup => .aside
  | .write => .commit
  | .send => .announce

section

variable [Externals]

def Operation.task (io : Io) (configPath : OsPath) :
    Operation → FileTask (Except String AppConfig)
  | .save connectionName draft =>
    sending saveMessage (saveTask (.whole io) connectionName draft configPath)
  | .tuiImport importPath parsed =>
    sending (importMessage (ImportPath.connectionName importPath))
      (importTask (.whole io) (.ok parsed) importPath configPath)
  | .cliImport src parsed =>
    (cmdImportTask (.whole io) (.ok parsed) src configPath).bind fun result =>
      .done (result.mapError ConfigError.display)

/-- The file as a register: an absent one shows the empty configuration. -/
def configRegister (configPath : OsPath) : Register World AppConfig where
  shows world config :=
    (world.disk configPath = none ∧ config = default) ∨ world.disk.Holds configPath config
  announced world := world.mail.filterMap DaemonMessage.reloaded

/-- What the file holds before anything happens to it. -/
def startConfig (disk : Disk) (configPath : OsPath) : AppConfig :=
  (loadOrDefault .clean disk configPath).toOption.getD default

theorem follows_write (roundTrip : TomlRoundTrip) {io : Io} {p : OsPath}
    {update : AppConfig → AppConfig} {seen : AppConfig}
    {next : Except ConfigError Unit → FileTask (Except String AppConfig)}
    (fails : ∀ e, (next (.error e)).Fails)
    (later : Follows (configRegister p) FileStep.access update (next (.ok ()))
      (.committed seen)) :
    Follows (configRegister p) FileStep.access update
      ((saveAppConfigTask (.whole io) (update seen) p).bind next) (.holding seen) := by
  rw [saveAppConfigTask]
  cases encoded : saveAppConfigString (update seen) with
  | error e => exact Follows.of_fails (fails e)
  | ok contents =>
    cases io.createDirError with
    | some e => exact Follows.of_fails (fails _)
    | none =>
      intro world
      simp only [Script.bind]
      cases written : (writeFile io world.disk p contents).2 with
      | error e => exact .inl (fails _)
      | ok _ =>
        refine .inr ⟨.inr ⟨contents, ?_, roundTrip _ _ (mapError_eq_ok.mp encoded)⟩, rfl, later⟩
        simp [(writeFile_ok written).2, Disk.put]

theorem follows_send {p : OsPath} {update : AppConfig → AppConfig}
    {message : Except String AppConfig → DaemonMessage}
    (carries : ∀ config, (message (.ok config)).reloaded = some config) (seen : AppConfig) :
    Follows (configRegister p) FileStep.access update
      (sending message (.done (.ok (update seen)))) (.committed seen) := by
  intro world
  refine .inr ⟨fun _ => id, ?_, fun value result => ?_⟩
  · simp [configRegister, carries]
  · cases result
    rfl

omit [Externals] in
theorem sending_fails {message : Except String AppConfig → DaemonMessage} (e : String) :
    (sending message (.done (.error e))).Fails := by
  intro _ value result
  cases result

theorem shown_unique {p : OsPath} {world : World} {config other : AppConfig}
    (holds : world.disk.Holds p config) (shown : (configRegister p).shows world other) :
    config = other := by
  obtain ⟨s, there, decoded⟩ := holds
  rcases shown with ⟨absent, _⟩ | ⟨s', there', decoded'⟩
  · simp [absent] at there
  · obtain rfl : s = s' := by simpa [there] using there'
    rw [decoded] at decoded'
    exact Except.ok.inj decoded'

/-- A load sees what the register shows. -/
theorem load_shows {io : Io} {world : World} {p : OsPath} {loaded config : AppConfig}
    (loads : loadAppConfig io world.disk p = .ok loaded)
    (shown : (configRegister p).shows world config) : loaded = config :=
  shown_unique (holds_of_load loads).1 shown

/-- The backup is what was seen, so it matters little if its path is that of the file. -/
theorem follows_backup (roundTrip : TomlRoundTrip) {io : Io} {p q : OsPath}
    {update : AppConfig → AppConfig} {seen : AppConfig} {backup : String}
    (encoded : saveAppConfigString seen = .ok backup)
    {next : Except String Unit → FileTask (Except String AppConfig)}
    (fails : ∀ e, (next (.error e)).Fails)
    (later : Follows (configRegister p) FileStep.access update (next (.ok ())) (.holding seen)) :
    Follows (configRegister p) FileStep.access update
      (((Writer.whole io).write .backup q backup).bind next) (.holding seen) := by
  intro world
  simp only [Script.bind]
  cases written : (writeFile io world.disk q backup).2 with
  | error e => exact .inl (fails _)
  | ok _ =>
    refine .inr ⟨fun v shown => ?_, rfl, later⟩
    by_cases same : p = q
    · subst same
      refine .inr (.inr ⟨backup, ?_, roundTrip _ _ (mapError_eq_ok.mp encoded)⟩)
      simp [(writeFile_ok written).2, Disk.put]
    · have kept := @writeFile_other io world.disk q p backup same
      refine .inl ?_
      simpa only [configRegister, Disk.Holds, kept] using shown

theorem save_follows (roundTrip : TomlRoundTrip) (io : Io) (name : String) (draft : WgConfig)
    (p : OsPath) : Follows (configRegister p) FileStep.access (Operation.save name draft).update
      ((Operation.save name draft).task io p) .looking := by
  intro world
  simp only
  cases loaded : loadAppConfig io world.disk p with
  | error e => exact .inl (sending_fails _)
  | ok existing =>
    cases encoded : saveAppConfigString existing with
    | error e =>
      simp only [encoded]
      exact .inl (sending_fails _)
    | ok backup =>
      refine .inr ⟨fun _ => id, rfl, fun v shown => .inr ?_⟩
      obtain rfl := load_shows loaded shown
      simp only [encoded, Script.bind_assoc]
      apply follows_backup roundTrip encoded (fun e => sending_fails _)
      rw [Script.bind_assoc]
      exact follows_write roundTrip
        (fun e => sending_fails _) (follows_send (fun _ => rfl) existing)

theorem tuiImport_follows (roundTrip : TomlRoundTrip) (io : Io) (source : OsPath)
    (parsed : WgConfig) (p : OsPath) :
    Follows (configRegister p) FileStep.access (Operation.tuiImport source parsed).update
      ((Operation.tuiImport source parsed).task io p) .looking := by
  simp only [Operation.task, importTask]
  cases stem : connectionNameFromPath source with
  | error e => exact Follows.of_fails (sending_fails _)
  | ok name =>
    intro world
    simp only
    cases loaded : loadAppConfig io world.disk p with
    | error e => exact .inl (sending_fails _)
    | ok existing =>
      refine .inr ⟨fun _ => id, rfl, fun v shown => .inr ?_⟩
      obtain rfl := load_shows loaded shown
      obtain rfl := ImportPath.connectionName_of_path stem
      rw [Script.bind_assoc]
      exact follows_write roundTrip (fun e => sending_fails _)
        (follows_send (fun _ => rfl) existing)

theorem cliImport_follows (roundTrip : TomlRoundTrip) (io : Io) (source : OsPath)
    (parsed : WgConfig) (p : OsPath) :
    Follows (configRegister p) FileStep.access (Operation.cliImport source parsed).update
      ((Operation.cliImport source parsed).task io p) .looking := by
  -- the write and the report, once there is a configuration to add to
  have rest (existing : AppConfig) : Follows (configRegister p) FileStep.access
      (Operation.cliImport source parsed).update
      ((saveAppConfigTask (.whole io) ((Operation.cliImport source parsed).update existing)
        p).bind fun result => .done ((result.map fun () =>
          (Operation.cliImport source parsed).update existing).mapError ConfigError.display))
      (.holding existing) := by
    refine follows_write roundTrip (fun e => nofun) fun value result => ?_
    cases result
    rfl
  intro world
  simp only
  split
  · refine .inr ⟨fun _ => id, rfl, fun _ _ => .inl fun later => ?_⟩
    simp only [Script.bind]
    cases loaded : loadAppConfig io later.disk p with
    | error e => exact .inl nofun
    | ok existing =>
      refine .inr ⟨fun _ => id, rfl, fun v shown => .inr ?_⟩
      obtain rfl := load_shows loaded shown
      rw [Script.bind_assoc]
      exact rest existing
  · rename_i absent
    refine .inr ⟨fun _ => id, rfl, fun v shown => .inr ?_⟩
    obtain rfl : v = default := by
      rcases shown with ⟨_, rfl⟩ | ⟨s, there, _⟩
      · rfl
      · simp [there] at absent
    simp only [Script.bind]
    rw [Script.bind_assoc]
    exact rest default

theorem task_follows (roundTrip : TomlRoundTrip) (operation : Operation) (io : Io) (p : OsPath) :
    Follows (configRegister p) FileStep.access operation.update (operation.task io p) .looking := by
  cases operation with
  | save name draft => exact save_follows roundTrip io name draft p
  | tuiImport source parsed => exact tuiImport_follows roundTrip io source parsed p
  | cliImport source parsed => exact cliImport_follows roundTrip io source parsed p

/-- A file that is there and does not load. -/
def Unloadable (p : OsPath) (world : World) : Prop :=
  ∀ config, loadOrDefault .clean world.disk p ≠ .ok config

theorem Unloadable.load {p : OsPath} {world : World} (unloadable : Unloadable p world) (io : Io) :
    (world.disk p).isSome ∧ ∃ e, loadAppConfig io world.disk p = .error e := by
  have present : (world.disk p).isSome := by
    by_contra absent
    exact unloadable default (if_neg absent)
  refine ⟨present, ?_⟩
  cases loaded : loadAppConfig io world.disk p with
  | error e => exact ⟨e, rfl⟩
  | ok config =>
    obtain ⟨holds, valid⟩ := holds_of_load loaded
    refine absurd ?_ (unloadable config)
    rw [loadOrDefault, if_pos present]
    exact (holds.load_iff config).mpr ⟨rfl, valid⟩

theorem sending_stuck (p : OsPath) {message : Except String AppConfig → DaemonMessage}
    (e : String) : (sending message (.done (.error e))).StuckIn (Unloadable p) :=
  fun _ unloadable => ⟨unloadable, fun config same => by cases same⟩

theorem task_stuck (operation : Operation) (io : Io) (p : OsPath) :
    (operation.task io p).StuckIn (Unloadable p) := by
  cases operation with
  | save name draft =>
    refine fun world unloadable => ⟨unloadable, ?_⟩
    obtain ⟨_, e, refused⟩ := unloadable.load io
    simp only [refused]
    exact sending_stuck p _
  | tuiImport source parsed =>
    simp only [Operation.task, importTask]
    split
    · exact sending_stuck p _
    · refine fun world unloadable => ⟨unloadable, ?_⟩
      obtain ⟨_, e, refused⟩ := unloadable.load io
      simp only [refused]
      exact sending_stuck p _
  | cliImport source parsed =>
    refine fun world unloadable => ⟨unloadable, ?_⟩
    obtain ⟨present, _⟩ := unloadable.load io
    simp only [present, if_true]
    refine fun later still => ⟨still, ?_⟩
    obtain ⟨_, e, refused⟩ := still.load io
    simp only [refused]
    intro config same
    cases same

theorem start_shows {disk : Disk} {p : OsPath} {mail : List DaemonMessage} {config : AppConfig}
    (loads : loadOrDefault .clean disk p = .ok config) :
    (configRegister p).shows ⟨disk, mail⟩ (startConfig disk p) := by
  have start : startConfig disk p = config := by simp [startConfig, loads, Except.toOption]
  rw [start]
  rw [loadOrDefault] at loads
  split at loads
  · exact .inr (holds_of_load loads).1
  · rename_i absent
    cases loads
    exact .inl ⟨by simpa using absent, rfl⟩

/-- The two operations, each about to take its first step. -/
def together (ios : Side → Io) (operations : Side → Operation) (disk : Disk) (p : OsPath) :
    Shared Side FileStep World (Except String AppConfig) :=
  ⟨⟨disk, []⟩, fun side => (operations side).task (ios side) p, []⟩

/-- The configuration that the event loop is left with. -/
def lastReload (mail : List DaemonMessage) : Option AppConfig :=
  (mail.filterMap DaemonMessage.reloaded).getLast?

theorem together_outcome (roundTrip : TomlRoundTrip) {ios : Side → Io}
    {operations : Side → Operation} {disk : Disk} {p : OsPath} {turns : List Side}
    {final : Shared Side FileStep World (Except String AppConfig)} {results : Side → AppConfig}
    (reached : run Shared.advance turns (together ios operations disk p) = some final)
    (finished : final.Finished fun side => .ok (results side)) :
    (∀ side, results side = (operations side).update
      (if (Order.of FileStep.access final.trace).fresh side
        then results side.other else startConfig disk p)) ∧
      (∃ last, (Order.of FileStep.access final.trace).lastCommit = some last ∧
        (configRegister p).shows final.state (results last)) ∧
      lastReload final.state.mail =
        (Order.of FileStep.access final.trace).lastAnnounce.map results := by
  cases loads : loadOrDefault .clean disk p with
  | error e =>
    have unloadable : Unloadable p (together ios operations disk p).state :=
      fun config loaded => by simp [together, loads] at loaded
    have stuck := Shared.stuckIn_of_run (fun side => task_stuck (operations side) (ios side) p)
      unloadable reached .left
    rw [finished .left] at stuck
    exact absurd rfl (stuck _)
  | ok config =>
    exact clients_outcome (fun side => task_follows roundTrip (operations side) (ios side) p)
      (start_shows loads) rfl reached finished

/-- When each of the two has looked, written and sent. -/
def orderOf (final : Shared Side FileStep World (Except String AppConfig)) : Order :=
  .of FileStep.access final.trace

/-- What one operation wrote has both entries exactly when it loaded the other's, or the
other's was there from the start. -/
theorem result_keeps_iff {operations : Side → Operation} {disk : Disk} {p : OsPath}
    {order : Order} {results : Side → AppConfig}
    (distinct : (operations .left).name ≠ (operations .right).name)
    (made : ∀ side, results side = (operations side).update
      (if order.fresh side then results side.other else startConfig disk p)) (side : Side) :
    (∀ each, (operations each).KeptIn (results side)) ↔
      order.fresh side ∨ (operations side.other).KeptIn (startConfig disk p) := by
  have apart : (operations side.other).name ≠ (operations side).name := by
    cases side
    · exact distinct.symm
    · exact distinct
  have own (each : Side) : (operations each).KeptIn (results each) := by
    rw [made each]
    exact Operation.keptIn_update _ _
  have others : (operations side.other).KeptIn (results side) ↔
      order.fresh side ∨ (operations side.other).KeptIn (startConfig disk p) := by
    rw [made side, Operation.keptIn_update_other apart]
    by_cases fresh : order.fresh side <;> simp [fresh, own]
  constructor
  · exact fun all => others.mp (all side.other)
  · intro seen each
    rcases each.eq_or_other side with rfl | rfl
    · exact own each
    · exact others.mpr seen

/-- Both entries are in the file at the end and in the configuration the event loop is left
with exactly when the operation that wrote last and the one that sent last loaded what the
other had written, or the other's entry was in the file from the start. -/
theorem updates_kept_iff (roundTrip : TomlRoundTrip) (ios : Side → Io)
    (operations : Side → Operation) (disk : Disk) (p : OsPath)
    (distinct : (operations .left).name ≠ (operations .right).name) (turns : List Side)
    (final : Shared Side FileStep World (Except String AppConfig)) (results : Side → AppConfig)
    (reached : run Shared.advance turns (together ios operations disk p) = some final)
    (finished : final.Finished fun side => .ok (results side)) :
    ((∃ config, final.state.disk.Holds p config ∧ ∀ side, (operations side).KeptIn config) ∧
      ∀ config, lastReload final.state.mail = some config →
        ∀ side, (operations side).KeptIn config) ↔
      ∀ side, (orderOf final).lastCommit = some side ∨ (orderOf final).lastAnnounce = some side →
        (orderOf final).fresh side ∨ (operations side.other).KeptIn (startConfig disk p) := by
  obtain ⟨made, ⟨last, lastCommit, shown⟩, reload⟩ := together_outcome roundTrip reached finished
  have keeps := result_keeps_iff distinct made
  have holds : final.state.disk.Holds p (results last) := by
    rcases shown with ⟨_, empty⟩ | holds
    · have own : (operations last).KeptIn (results last) := by
        rw [made last]
        exact Operation.keptIn_update _ _
      rw [empty] at own
      cases own
    · exact holds
  have file : (∃ config, final.state.disk.Holds p config ∧
      ∀ side, (operations side).KeptIn config) ↔ ∀ side, (operations side).KeptIn (results last) :=
    ⟨fun ⟨config, there, kept⟩ => shown_unique there (.inr holds) ▸ kept, fun kept => ⟨_, holds, kept⟩⟩
  rw [file, reload, keeps]
  simp only [orderOf, lastCommit, Option.map_eq_some_iff, Option.some.injEq]
  constructor
  · rintro ⟨written, sent⟩ side (rfl | announced)
    · exact written
    · exact (keeps side).mp (sent _ ⟨side, announced, rfl⟩)
  · intro seen
    refine ⟨seen last (.inl rfl), ?_⟩
    rintro _ ⟨side, announced, rfl⟩
    exact (keeps side).mpr (seen side (.inr announced))

end

namespace LostUpdateSample

open ImportSample

def homeConfig (peer : String) : AppConfig := AppConfig.insert default "home" (wgNamed peer)

def withOffice (config : AppConfig) : AppConfig := config.insert "office" (wgNamed "office")

def officeToml : String := tomlSection "office" "office" ++ tomlEnd

def editedToml : String := tomlSection "home" "house" ++ tomlEnd

/-- The file with its one connection as it was and as edited, each with `office` and without. -/
@[reducible] def externals : Externals :=
  .tabulated [(zeroKey, List.replicate 32 0)] []
    [(tomlSection "home" "home" ++ tomlEnd, homeConfig "home"),
     (editedToml, homeConfig "house"),
     (tomlSection "home" "home" ++ officeToml, withOffice (homeConfig "home")),
     (tomlSection "home" "house" ++ officeToml, withOffice (homeConfig "house"))]

theorem roundTrip : @TomlRoundTrip externals := tabulated_roundTrip (by decide +kernel)

/-- `home` is saved after an edit, while the command line imports `office.conf`. -/
def operations : Side → Operation
  | .left => .save "home" (wgNamed "house")
  | .right => .cliImport office (wgNamed "")

def start : Shared Side FileStep World (Except String AppConfig) :=
  @together externals (fun _ => .clean) operations disk config

/-- The import writes between the load and the write of the save. -/
def within : List Side := [.left, .right, .right, .right, .left, .left, .left]

/-- The save starts when the import is done. -/
def after : List Side := [.right, .right, .right, .left, .left, .left, .left]

structure Ending where
  file : Option Contents
  reload : Option AppConfig
  left : Option (Except String AppConfig)
  right : Option (Except String AppConfig)
  trace : List (Side × FileStep)
  deriving DecidableEq

def ending (final : Shared Side FileStep World (Except String AppConfig)) : Ending :=
  ⟨final.state.disk config, lastReload final.state.mail, final.result .left,
    final.result .right, final.trace⟩

def resultsOf (left right : AppConfig) : Side → AppConfig
  | .left => left
  | .right => right

theorem ends {turns : List Side} {file : Option Contents} {reload : Option AppConfig}
    {left right : AppConfig} {trace : List (Side × FileStep)}
    (ran : (run Shared.advance turns start).map ending =
      some ⟨file, reload, some (.ok left), some (.ok right), trace⟩) :
    ∃ final, run Shared.advance turns start = some final ∧ final.state.disk config = file ∧
      lastReload final.state.mail = reload ∧
      final.Finished (fun side => .ok (resultsOf left right side)) ∧ final.trace = trace := by
  obtain ⟨final, reached, same⟩ := Option.map_eq_some_iff.mp ran
  simp only [ending, Ending.mk.injEq] at same
  obtain ⟨there, sent, first, second, taken⟩ := same
  refine ⟨final, reached, there, sent, Shared.finished_iff.mpr fun side => ?_, taken⟩
  cases side
  · exact first
  · exact second

end LostUpdateSample

open LostUpdateSample in
/-- The import succeeds, and its connection is nowhere to be found. -/
theorem updates_lost_within :
    @TomlRoundTrip externals ∧ (operations .left).name ≠ (operations .right).name ∧
      ∃ (final : Shared Side FileStep World (Except String AppConfig)) (results : Side → AppConfig),
        run Shared.advance within start = some final ∧
        final.Finished (fun side => .ok (results side)) ∧
        (¬∃ saved, @Disk.Holds externals final.state.disk ImportSample.config saved ∧
          ∀ side, (operations side).KeptIn saved) ∧
        ∃ reloaded, lastReload final.state.mail = some reloaded ∧
          ¬∀ side, (operations side).KeptIn reloaded := by
  obtain ⟨final, reached, file, reload, finished, _⟩ := @ends within (some (.text editedToml))
    (some (homeConfig "house")) (homeConfig "house") (withOffice (homeConfig "home"))
    [(.left, .load), (.right, .check), (.right, .load), (.right, .write), (.left, .backup),
      (.left, .write), (.left, .send)] (by decide +kernel)
  have lost : ¬(operations .right).KeptIn (homeConfig "house") := by decide +kernel
  refine ⟨roundTrip, by decide, final, _, reached, finished, ?_, _, reload,
    fun kept => lost (kept .right)⟩
  rintro ⟨saved, ⟨s, there, decoded⟩, kept⟩
  obtain rfl : editedToml = s := by simpa [file] using there
  have house : @Externals.appFromToml externals editedToml = .ok (homeConfig "house") := by
    decide +kernel
  obtain rfl : homeConfig "house" = saved := Except.ok.inj (house.symm.trans decoded)
  exact lost (kept .right)

open LostUpdateSample in
/-- One after the other, both are kept. -/
theorem updates_kept_after :
    ∃ final, run Shared.advance after start = some final ∧
      ((∃ saved, @Disk.Holds externals final.state.disk ImportSample.config saved ∧
          ∀ side, (operations side).KeptIn saved) ∧
        ∀ reloaded, lastReload final.state.mail = some reloaded →
          ∀ side, (operations side).KeptIn reloaded) := by
  obtain ⟨final, reached, _, _, finished, trace⟩ := @ends after
    (some (.text (ImportSample.tomlSection "home" "house" ++ officeToml)))
    (some (withOffice (homeConfig "house"))) (withOffice (homeConfig "house"))
    (withOffice (homeConfig "home"))
    [(.right, .check), (.right, .load), (.right, .write), (.left, .load), (.left, .backup),
      (.left, .write), (.left, .send)] (by decide +kernel)
  refine ⟨final, reached, (@updates_kept_iff externals roundTrip (fun _ => .clean) operations _ _
    (by decide) after final _ reached finished).mpr fun side last => .inl ?_⟩
  simp only [orderOf, trace] at last ⊢
  revert last
  cases side <;> decide

end FerroWg.Tui
