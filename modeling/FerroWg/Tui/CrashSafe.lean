import FerroWg.Tui.FileTasks

/-!
# A save that is cut short

The backup is complete before the configuration file is touched, and is not touched after.
-/

namespace FerroWg.Tui

open Lib

theorem Writer.safely {io : Io} (writer : Writer io) (label : FileStep) (p : OsPath) (s : String)
    (world : World) : (writer.write label p s).Safely
      (fun stop => ∀ q ≠ p, stop.disk q = world.disk q)
      (fun after result => after.disk = (writeFile io world.disk p s).1 ∧
        result = (writeFile io world.disk p s).2) world := by
  rw [Script.safely_iff, writer.run_write]
  exact ⟨fun stop member => (writer.stops_write label p s world stop member).2, rfl, rfl⟩

variable [Externals]

/-- A file the loader accepts and takes for `config`. -/
def LoadsAs (config : AppConfig) (p : OsPath) (world : World) : Prop :=
  loadAppConfig .clean world.disk p = .ok config

theorem LoadsAs.of_same {config : AppConfig} {p : OsPath} {world other : World}
    (loads : LoadsAs config p world) (same : other.disk p = world.disk p) :
    LoadsAs config p other := by
  obtain ⟨s, read, decoded⟩ := loadAppConfig_ok_iff.mp loads
  refine loadAppConfig_ok_iff.mpr ⟨s, ?_, decoded⟩
  rw [readToString_clean] at read ⊢
  exact same.trans read

theorem LoadsAs.of_written (roundTrip : TomlRoundTrip) {config : AppConfig} {s : String}
    {p : OsPath} {world : World} (valid : config.validate = .ok ())
    (encoded : saveAppConfigString config = .ok s) (written : world.disk p = some (.text s)) :
    LoadsAs config p world :=
  loadAppConfig_ok_iff.mpr ⟨s, readToString_clean.mpr written,
    roundTrip config s (mapError_eq_ok.mp encoded), valid⟩

/-- The file, or else its backup, still loads as it did. -/
def OldKept (existing : AppConfig) (configPath : OsPath) (world : World) : Prop :=
  LoadsAs existing configPath world ∨
    LoadsAs existing (configPath.withExtension "toml.bak") world

/-- Writing the configuration leaves every other file alone, wherever it stops. -/
theorem saveAppConfigTask_safely {io : Io} (writer : Writer io) (config : AppConfig) (p : OsPath)
    (world : World) : (saveAppConfigTask writer config p).Safely
      (fun stop => ∀ q ≠ p, stop.disk q = world.disk q)
      (fun after _ => ∀ q ≠ p, after.disk q = world.disk q) world := by
  rw [saveAppConfigTask]
  cases saveAppConfigString config with
  | error e => exact ⟨fun _ _ => rfl, fun _ _ => rfl⟩
  | ok contents =>
    cases io.createDirError with
    | some e => exact ⟨fun _ _ => rfl, fun _ _ => rfl⟩
    | none =>
      have writing : (writer.write .write p contents).Safely
          (fun stop => ∀ q ≠ p, stop.disk q = world.disk q)
          (fun after _ => ∀ q ≠ p, after.disk q = world.disk q) world := by
        refine (writer.safely .write p contents world).mono (fun _ => id) fun after _ done q other => ?_
        rw [done.1]
        exact writeFile_other _ _ other
      exact writing.bind fun _ _ kept => ⟨kept, kept⟩

theorem saveAppConfigTask_refused {io : Io} (writer : Writer io) {config : AppConfig} {p : OsPath}
    (refused : (∃ e, saveAppConfigString config = .error e) ∨ ∃ e, io.createDirError = some e) :
    ∃ e, saveAppConfigTask writer config p = .done (.error e) := by
  rw [saveAppConfigTask]
  cases encoded : saveAppConfigString config with
  | error e => exact ⟨_, rfl⟩
  | ok contents =>
    obtain ⟨e, dir⟩ := refused.resolve_left (by simp [encoded])
    rw [dir]
    exact ⟨_, rfl⟩

/-- One of the steps before the write of the configuration file is an error. -/
def FailsEarly (io : Io) (disk : Disk) (connectionName : String) (draft : WgConfig)
    (configPath : OsPath) : Prop :=
  match loadAppConfig io disk configPath with
  | .error _ => True
  | .ok existing =>
    (∃ e, saveAppConfigString existing = .error e) ∨
      (∃ failure, io.writeError (configPath.withExtension "toml.bak") = some failure) ∨
      (∃ e, saveAppConfigString (existing.insert connectionName draft) = .error e) ∨
      ∃ e, io.createDirError = some e

section

variable {io : Io} (writer : Writer io) {world : World} {p : OsPath} {existing : AppConfig}
  (apart : p ≠ p.withExtension "toml.bak")

include apart

theorem saveTask_keeps_old (roundTrip : TomlRoundTrip) (loads : LoadsAs existing p world)
    (name : String) (draft : WgConfig) : (saveTask writer name draft p).Safely
      (OldKept existing p) (fun _ _ => True) world := by
  refine ⟨.inl loads, ?_⟩
  simp only [id_eq]
  cases loaded : loadAppConfig io world.disk p with
  | error e => exact ⟨.inl loads, trivial⟩
  | ok found =>
    obtain rfl : existing = found :=
      (((holds_of_load loaded).1.load_iff existing).mp loads).1
    have valid := (holds_of_load loaded).2
    simp only
    cases encoded : saveAppConfigString existing with
    | error e => exact ⟨.inl loads, trivial⟩
    | ok backup =>
      -- until the backup is there, the file itself is as it was
      refine ((writer.safely .backup (p.withExtension "toml.bak") backup world).mono
        (fun stop kept => .inl (loads.of_same (kept p apart))) (fun _ _ => id)).bind
        fun between result done => ?_
      cases result with
      | error e =>
        refine ⟨.inl (loads.of_same ?_), trivial⟩
        rw [done.1]
        exact writeFile_other _ _ apart
      | ok _ =>
        -- from there on, the backup is
        have backedUp : LoadsAs existing (p.withExtension "toml.bak") between := by
          apply LoadsAs.of_written roundTrip valid encoded
          rw [done.1]
          simp [(writeFile_ok done.2.symm).2, Disk.put]
        have reads (stop : World) (kept : ∀ q ≠ p, stop.disk q = between.disk q) :=
          backedUp.of_same (kept _ apart.symm)
        refine ((saveAppConfigTask_safely writer (existing.insert name draft) p between).mono
          (fun stop kept => .inr (reads stop kept)) (fun _ _ => id)).bind
          fun after result kept => ?_
        cases result <;> exact ⟨.inr (reads after kept), trivial⟩

/-- What fails early leaves the file as it was, byte for byte. -/
theorem saveTask_untouched {name : String} {draft : WgConfig}
    (early : FailsEarly io world.disk name draft p) : (saveTask writer name draft p).Safely
      (fun stop => stop.disk p = world.disk p) (fun _ _ => True) world := by
  refine ⟨rfl, ?_⟩
  rw [FailsEarly] at early
  simp only [id_eq]
  cases loaded : loadAppConfig io world.disk p with
  | error e => exact ⟨rfl, trivial⟩
  | ok existing =>
    simp only [loaded] at early ⊢
    cases encoded : saveAppConfigString existing with
    | error e => exact ⟨rfl, trivial⟩
    | ok backup =>
      refine ((writer.safely .backup (p.withExtension "toml.bak") backup world).mono
        (fun stop kept => kept p apart) (fun _ _ => id)).bind fun between result done => ?_
      have same : between.disk p = world.disk p := by
        rw [done.1]
        exact writeFile_other _ _ apart
      cases result with
      | error e => exact ⟨same, trivial⟩
      | ok _ =>
        have backedUp := (writeFile_ok done.2.symm).1
        obtain ⟨e, refused⟩ := saveAppConfigTask_refused writer
          ((early.resolve_left (by simp [encoded])).resolve_left (by simp [backedUp]))
        rw [refused]
        exact ⟨same, trivial⟩

end

/-- Wherever a save stops, the file or its backup still loads as what was there, and unless
every step before the write of the file went well, the file is what it was. -/
theorem save_crash_safe (roundTrip : TomlRoundTrip) (io : Io) (disk : Disk)
    (mail : List DaemonMessage) (connectionName : String) (draft : WgConfig) (configPath : OsPath)
    (existing : AppConfig) (loaded : loadAppConfig .clean disk configPath = .ok existing)
    (apart : configPath ≠ configPath.withExtension "toml.bak") :
    (∀ stop ∈ (saveTask (.bytewise io) connectionName draft configPath).stops ⟨disk, mail⟩,
      loadAppConfig .clean stop.disk configPath = .ok existing ∨
        loadAppConfig .clean stop.disk (configPath.withExtension "toml.bak") = .ok existing) ∧
      (FailsEarly io disk connectionName draft configPath →
        ∀ stop ∈ (saveTask (.bytewise io) connectionName draft configPath).stops ⟨disk, mail⟩,
          stop.disk configPath = disk configPath) := by
  have loads : LoadsAs existing configPath ⟨disk, mail⟩ := loaded
  have safe := saveTask_keeps_old (.bytewise io) apart roundTrip loads connectionName draft
  refine ⟨(Script.safely_iff.mp safe).1, fun early => ?_⟩
  have unready : FailsEarly io (World.mk disk mail).disk connectionName draft configPath := early
  exact (Script.safely_iff.mp (saveTask_untouched (.bytewise io) apart unready)).1

omit [Externals] in
open ImportSample in
/-- A save that adds a connection to `home`. -/
theorem save_crash_safe_office :
    (∀ stop ∈ (@saveTask externals _ (.bytewise .clean) "office" (wgNamed "office") config).stops
        ⟨disk, []⟩,
      @loadAppConfig externals .clean stop.disk config = .ok home ∨
        @loadAppConfig externals .clean stop.disk (config.withExtension "toml.bak") = .ok home) ∧
      (@FailsEarly externals .clean disk "office" (wgNamed "office") config →
        ∀ stop ∈ (@saveTask externals _ (.bytewise .clean) "office" (wgNamed "office")
            config).stops ⟨disk, []⟩,
          stop.disk config = disk config) :=
  @save_crash_safe externals roundTrip .clean disk [] "office" (wgNamed "office") config home
    (loadExisting_home .tui) (by decide)

end FerroWg.Tui
