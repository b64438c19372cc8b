import FerroWg.Import

/-!
# The two ways to import, compared

The command line and the import prompt on the same files. Only the command line names the peers,
and only it starts a configuration that is not there.
-/

namespace FerroWg

open Lib

section

variable [Externals]

/-- Both fail, or the file comes to hold the same configuration either way. -/
def ImportsAgree (io : Io) (disk : Disk) (source config : OsPath) : Prop :=
  let cli := ImportPath.cli.importFile io disk source config
  let tui := ImportPath.tui.importFile io disk source config
  (cli.2 = false ∧ tui.2 = false) ∨
    (cli.2 = true ∧ tui.2 = true ∧ ∃ after, cli.1.Holds config after ∧ tui.1.Holds config after)

/-- What is done to files that are there, and beside them, succeeds. -/
structure Io.Works (io : Io) (disk : Disk) : Prop where
  read : ∀ p, (disk p).isSome → io.readError p = none
  write : ∀ p, (disk p).isSome → io.writeError p = none ∧ io.createDirError = none

/-- A configuration file that is neither there nor can be made. -/
def CannotCreate (io : Io) (disk : Disk) (config : OsPath) : Prop :=
  disk config = none ∧ (io.createDirError.isSome ∨ (io.writeError config).isSome)

/-- The configurations that the command line makes of the two files can be serialised. -/
def Encodes (io : Io) (disk : Disk) (source config : OsPath) : Prop :=
  ∀ parsed existing, loadFromFile io disk source = .ok parsed →
    loadOrDefault io disk config = .ok existing →
    ∃ s, Externals.appToToml (existing.insert (ImportPath.connectionName source)
      (ImportPath.cli.connection (ImportPath.connectionName source) parsed)) = .ok s

variable {io : Io} {disk : Disk} {source config : OsPath} {parsed : WgConfig} {existing : AppConfig}

theorem saveAppConfig_ok_iff {p : OsPath} {c : AppConfig} :
    (saveAppConfig io disk c p).2 = .ok () ↔
      (∃ s, Externals.appToToml c = .ok s) ∧ io.createDirError = none ∧ io.writeError p = none := by
  unfold saveAppConfig saveAppConfigString writeFile
  cases Externals.appToToml c with
  | error e => simp [Except.mapError]
  | ok s =>
    cases io.createDirError with
    | some e => simp [Except.mapError]
    | none => cases io.writeError p <;> simp [Except.mapError]

/-- The command line succeeds when it has two configurations to put together and a file to put
them in. -/
theorem cli_reports_iff (works : io.Works disk) (encodes : Encodes io disk source config) :
    (ImportPath.cli.importFile io disk source config).2 = true ↔
      (∃ parsed, loadFromFile io disk source = .ok parsed) ∧
        (∃ existing, loadOrDefault io disk config = .ok existing) ∧
        ¬ CannotCreate io disk config := by
  cases read : loadFromFile io disk source with
  | error e => simp [ImportPath.importFile, cmdImport, read, Except.isOk, Except.toBool]
  | ok parsed =>
    cases loaded : loadOrDefault io disk config with
    | error e => simp [ImportPath.importFile, cmdImport, read, loaded, Except.isOk, Except.toBool]
    | ok existing =>
      have saves := @ImportPath.importFile_eq _ .cli io disk source config _ _ read loaded
        fun tui => by cases tui
      rw [saves]
      simp only [isOk_iff, saveAppConfig_ok_iff, encodes parsed existing read loaded,
        Except.ok.injEq, exists_eq', true_and, CannotCreate]
      cases there : disk config with
      | none => simp [Option.isSome_iff_ne_none]
      | some contents => simp [works.write config (by simp [there])]

/-- An absent file is no configuration to the prompt. -/
theorem loadExisting_tui (loaded : ImportPath.tui.loadExisting io disk config = .ok existing) :
    ImportPath.cli.loadExisting io disk config = .ok existing := by
  obtain ⟨⟨s, there, _⟩, _⟩ := holds_of_load loaded
  simp only [ImportPath.loadExisting, loadOrDefault, there, Option.isSome_some, if_true] at loaded ⊢
  exact loaded

theorem tui_reports (reported : (ImportPath.tui.importFile io disk source config).2 = true) :
    ∃ parsed existing, loadFromFile io disk source = .ok parsed ∧
      ImportPath.tui.loadExisting io disk config = .ok existing := by
  simp only [ImportPath.importFile, tryImport] at reported
  split at reported
  · simp [Except.isOk, Except.toBool] at reported
  · cases read : loadFromFile io disk source with
    | error e => simp [read, Except.isOk, Except.toBool] at reported
    | ok parsed =>
      cases loaded : loadAppConfig io disk config with
      | error e => simp [read, loaded, Except.isOk, Except.toBool] at reported
      | ok existing => exact ⟨parsed, existing, rfl, loaded⟩

/-- The prompt succeeds only where the command line does. -/
theorem cli_reports_of_tui (works : io.Works disk) (encodes : Encodes io disk source config)
    (reported : (ImportPath.tui.importFile io disk source config).2 = true) :
    (ImportPath.cli.importFile io disk source config).2 = true := by
  obtain ⟨parsed, existing, read, loaded⟩ := tui_reports reported
  have loaded' := loadExisting_tui loaded
  obtain ⟨⟨s, there, _⟩, _⟩ := holds_of_load loaded
  refine (cli_reports_iff works encodes).mpr ⟨⟨parsed, read⟩, ⟨existing, loaded'⟩, fun absent => ?_⟩
  rw [absent.1] at there
  cases there

omit [Externals] in
theorem connectionName_ne_empty (source : OsPath) : ImportPath.connectionName source ≠ "" := by
  rw [ImportPath.connectionName]
  cases stem : source.fileStem with
  | none => decide
  | some name =>
    cases text : name.toStr with
    | none => simp [text]
    | some s =>
      rw [Option.bind_some, text, Option.getD_some]
      exact OsPath.toStr_ne_empty text (OsPath.fileStem_ne_nil stem)

omit [Externals] in
theorem importedPeerName_ne_empty {name : String} (given : name ≠ "") (peerCount i : Nat) :
    importedPeerName name peerCount i ≠ "" := by
  rw [importedPeerName]
  split
  · exact given
  · intro empty
    have := congrArg String.length empty
    simp at this

/-- A file always has a peer, which only the command line names. -/
theorem connection_differs (read : loadFromFile io disk source = .ok parsed) {name : String}
    (given : name ≠ "") :
    ImportPath.cli.connection name parsed ≠ ImportPath.tui.connection name parsed := by
  obtain ⟨valid, unnamed⟩ := loadFromFile_ok read
  have nonempty := ((WgConfig.validate_ok_iff _).mp valid).1
  intro same
  have peers : nameImportedPeers name parsed.peers = parsed.peers := congrArg WgConfig.peers same
  cases listed : parsed.peers with
  | nil => exact nonempty listed
  | cons peer rest =>
    have none : peer.name = "" := unnamed peer (by simp [listed])
    rw [listed, nameImportedPeers, List.mapIdx_cons, List.cons.injEq] at peers
    have named := congrArg PeerConfig.name peers.1
    rw [if_pos none] at named
    exact importedPeerName_ne_empty given _ _ (named.trans none)

/-- Whatever both write is not the same. -/
theorem not_holds_both (roundTrip : TomlRoundTrip)
    (cli : (ImportPath.cli.importFile io disk source config).2 = true)
    (tui : (ImportPath.tui.importFile io disk source config).2 = true) (after : AppConfig) :
    ¬ ((ImportPath.cli.importFile io disk source config).1.Holds config after ∧
      (ImportPath.tui.importFile io disk source config).1.Holds config after) := by
  obtain ⟨parsed, existing, read, loaded⟩ := tui_reports tui
  have whole (entry : ImportPath) (reported : (entry.importFile io disk source config).2 = true)
      (loaded : entry.loadExisting io disk config = .ok existing)
      (holds : (entry.importFile io disk source config).1.Holds config after) :
      after = existing.insert (ImportPath.connectionName source)
        (entry.connection (ImportPath.connectionName source) parsed) := by
    have saves := ImportPath.importFile_eq read loaded (ImportPath.importFile_named reported)
    have success := isOk_iff.mp ((congrArg Prod.snd saves).symm.trans reported)
    obtain ⟨s, there, decoded⟩ := holds
    obtain ⟨s', there', decoded'⟩ := holds_of_save roundTrip success
    rw [saves, there', Option.some.injEq, Contents.text.injEq] at there
    rw [there, decoded] at decoded'
    exact Except.ok.inj decoded'
  rintro ⟨first, second⟩
  have same := (whole .cli cli (loadExisting_tui loaded) first).symm.trans
    (whole .tui tui loaded second)
  have entry := congrArg (·.get (ImportPath.connectionName source)) same
  simp only [AppConfig.get_insert, if_true, Option.some.injEq] at entry
  exact connection_differs read (connectionName_ne_empty source) entry

/-- The two ways agree exactly where there is nothing to import, or nothing to import it into. -/
theorem imports_agree_iff (roundTrip : TomlRoundTrip) (io : Io) (disk : Disk)
    (source config : OsPath) (works : io.Works disk) (encodes : Encodes io disk source config) :
    ImportsAgree io disk source config ↔
      (∀ parsed, loadFromFile io disk source ≠ .ok parsed) ∨
      (∀ existing, loadOrDefault io disk config ≠ .ok existing) ∨
      CannotCreate io disk config := by
  have fails : ImportsAgree io disk source config ↔
      (ImportPath.cli.importFile io disk source config).2 ≠ true := by
    constructor
    · rintro (⟨cli, _⟩ | ⟨cli, tui, after, holds⟩)
      · simp [cli]
      · exact absurd holds (not_holds_both roundTrip cli tui after)
    · intro cli
      have tui := fun reported => cli (cli_reports_of_tui works encodes reported)
      exact .inl ⟨by simpa using cli, by simpa using tui⟩
  rw [fails, ne_eq, cli_reports_iff works encodes]
  simp only [not_and_or, not_exists, not_not]

end

open ImportSample in
/-- Neither way finds `none.conf`. Both import `office.conf`, but not with the same name of its
peer. -/
theorem imports_agree_none :
    @ImportsAgree externals .clean disk (.ofString "/tmp/none.conf") config ∧
      ¬ @ImportsAgree externals .clean disk office config := by
  have works : Io.Works .clean disk := ⟨fun _ _ => rfl, fun _ _ => ⟨rfl, rfl⟩⟩
  have read : @loadFromFile externals .clean disk (.ofString "/tmp/none.conf") =
      .error (.tomlParse "No such file or directory (os error 2)") := by decide +kernel
  have missing parsed :
      @loadFromFile externals .clean disk (.ofString "/tmp/none.conf") ≠ .ok parsed := by
    rw [read]
    nofun
  have found : @loadFromFile externals .clean disk office = .ok (wgNamed "") :=
    loadFromFile_conf rfl
  have there : @loadOrDefault externals .clean disk config = .ok home := loadExisting_home .cli
  have encodes : @Encodes externals .clean disk office config := by
    intro parsed existing read loaded
    obtain rfl := Except.ok.inj (found.symm.trans read)
    obtain rfl := Except.ok.inj (there.symm.trans loaded)
    exact ⟨tomlSection "home" "home" ++ tomlSection "office" "office" ++ tomlEnd, by decide +kernel⟩
  refine ⟨(@imports_agree_iff externals roundTrip .clean disk _ config works
    fun _ _ parsed => absurd parsed (missing _)).mpr (.inl missing), ?_⟩
  rw [@imports_agree_iff externals roundTrip .clean disk office config works encodes]
  rintro (unread | absent | ⟨gone, _⟩)
  · exact unread _ found
  · exact absent _ there
  · cases gone

open ImportSample in
/-- Either way `my vpn.conf` is imported, but only the command line calls its peer `my vpn`. -/
theorem imports_disagree_my_vpn :
    @TomlRoundTrip externals ∧ ¬ @ImportsAgree externals .clean disk myVpn config := by
  have reports (entry : ImportPath) :
      (@ImportPath.importFile externals entry .clean disk myVpn config).2 = true := by
    have saved : (@saveAppConfig externals .clean disk (home.insert "my vpn"
        (entry.connection "my vpn" (wgNamed ""))) config).2 = .ok () := by
      cases entry <;> decide +kernel
    rw [importFile_sample entry rfl stem_myVpn]
    exact isOk_iff.mpr saved
  refine ⟨roundTrip, ?_⟩
  rintro (⟨fails, _⟩ | ⟨_, _, after, holds⟩)
  · rw [reports .cli] at fails
    cases fails
  · exact @not_holds_both externals _ _ _ _ roundTrip (reports .cli) (reports .tui) after holds

end FerroWg
