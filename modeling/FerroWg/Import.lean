import FerroWg.Core.Disk
import FerroWg.Core.WgQuick

/-!
# Importing a `wg-quick` file

The two ways in: the command line (`cmd_import`) and the import prompt (`try_import`). Both
name the connection after the file, and neither looks at the name.
-/

namespace FerroWg

open Lib

/-- The name the command line gives to the peer at `i` when the file gave it none. -/
def importedPeerName (connName : String) (peerCount i : Nat) : String :=
  if peerCount = 1 then connName else s!"{connName}-{i}"

def nameImportedPeers (connName : String) (peers : List PeerConfig) : List PeerConfig :=
  peers.mapIdx fun i peer =>
    if peer.name = "" then { peer with name := importedPeerName connName peers.length i } else peer

theorem nameImportedPeers_length (name : String) (peers : List PeerConfig) :
    (nameImportedPeers name peers).length = peers.length := by
  simp [nameImportedPeers]

section

variable [Externals]

def loadFromFile (io : Io) (disk : Disk) (p : OsPath) : Except ConfigError WgConfig := do
  let contents ← (readToString io disk p).mapError .tomlParse
  loadFromStr contents

/-- The configuration the command line adds to: an absent file counts as an empty one. -/
def loadOrDefault (io : Io) (disk : Disk) (p : OsPath) : Except ConfigError AppConfig :=
  if (disk p).isSome then loadAppConfig io disk p else .ok default

def cmdImport (io : Io) (disk : Disk) (src dst : OsPath) : Disk × Except ConfigError Unit :=
  match loadFromFile io disk src with
  | .error e => (disk, .error e)
  | .ok wgConfig =>
    let connName := (src.fileStem.bind OsPath.toStr).getD "default"
    let wgConfig := { wgConfig with peers := nameImportedPeers connName wgConfig.peers }
    match loadOrDefault io disk dst with
    | .error e => (disk, .error e)
    | .ok appConfig => saveAppConfig io disk (appConfig.insert connName wgConfig) dst

def connectionNameFromPath (p : OsPath) : Except String String :=
  match p.fileStem.bind OsPath.toStr with
  | some name => .ok name
  | none => .error s!"cannot derive connection name from path: {p.display}"

def tryImport (io : Io) (disk : Disk) (importPath configPath : OsPath) :
    Disk × Except String (AppConfig × String) :=
  match connectionNameFromPath importPath with
  | .error e => (disk, .error e)
  | .ok name =>
    match loadFromFile io disk importPath with
    | .error e => (disk, .error s!"Import failed: {e.display}")
    | .ok wgConfig =>
      match loadAppConfig io disk configPath with
      | .error e => (disk, .error s!"Could not load config: {e.display}")
      | .ok appConfig =>
        let appConfig := appConfig.insert name wgConfig
        let (disk, saved) := saveAppConfig io disk appConfig configPath
        (disk, match saved with
          | .error e => .error s!"Could not save config: {e.display}"
          | .ok () => .ok (appConfig, name))

/-- Which of the two functions runs. -/
inductive ImportPath where
  | cli
  | tui
  deriving DecidableEq, Repr

namespace ImportPath

/-- The disk afterwards, and whether success was reported. -/
def importFile (entry : ImportPath) (io : Io) (disk : Disk) (source config : OsPath) :
    Disk × Bool :=
  match entry with
  | .cli => ((cmdImport io disk source config).1, (cmdImport io disk source config).2.isOk)
  | .tui => ((tryImport io disk source config).1, (tryImport io disk source config).2.isOk)

def loadExisting (entry : ImportPath) (io : Io) (disk : Disk) (config : OsPath) :
    Except ConfigError AppConfig :=
  match entry with
  | .cli => loadOrDefault io disk config
  | .tui => loadAppConfig io disk config

/-- The connection name; the prompt refuses a file that has none to give. -/
def connectionName (source : OsPath) : String :=
  (source.fileStem.bind OsPath.toStr).getD "default"

omit [Externals] in
theorem connectionName_of_path {source : OsPath} {name : String}
    (named : connectionNameFromPath source = .ok name) :
    connectionName source = name := by
  rw [connectionNameFromPath] at named
  split at named
  · rename_i stem
    cases named
    rw [connectionName, stem]
    rfl
  · cases named

def connection (entry : ImportPath) (name : String) (parsed : WgConfig) : WgConfig :=
  match entry with
  | .cli => { parsed with peers := nameImportedPeers name parsed.peers }
  | .tui => parsed

/-- Once both files are read, an import is the save of one more entry. -/
theorem importFile_eq {entry : ImportPath} {io : Io} {disk : Disk} {source config : OsPath}
    {parsed : WgConfig} {existing : AppConfig}
    (read : loadFromFile io disk source = .ok parsed)
    (loaded : entry.loadExisting io disk config = .ok existing)
    (named : entry = .tui → (source.fileStem.bind OsPath.toStr).isSome) :
    entry.importFile io disk source config =
      let save := saveAppConfig io disk (existing.insert (connectionName source)
        (entry.connection (connectionName source) parsed)) config
      (save.1, save.2.isOk) := by
  cases entry with
  | cli =>
    simp only [loadExisting] at loaded
    simp only [importFile, cmdImport, read, loaded]
    rfl
  | tui =>
    simp only [loadExisting] at loaded
    obtain ⟨name, stem⟩ := Option.isSome_iff_exists.mp (named rfl)
    simp only [importFile, tryImport, connectionNameFromPath, connectionName, connection, stem,
      read, loaded, Option.getD_some]
    generalize saveAppConfig io disk _ config = save
    obtain ⟨_, _ | _⟩ := save <;> rfl

theorem importFile_named {entry : ImportPath} {io : Io} {disk : Disk} {source config : OsPath}
    (reported : (entry.importFile io disk source config).2 = true) :
    entry = .tui → (source.fileStem.bind OsPath.toStr).isSome := by
  rintro rfl
  by_contra unnamed
  rw [Bool.not_eq_true, Option.isSome_eq_false_iff, Option.isNone_iff_eq_none] at unnamed
  simp [importFile, tryImport, connectionNameFromPath, unnamed, Except.isOk, Except.toBool]
    at reported

end ImportPath

/-- Naming unnamed peers keeps a configuration valid exactly when the names are. -/
theorem validate_named_iff {parsed : WgConfig} (valid : parsed.validate = .ok ())
    (unnamed : ∀ peer ∈ parsed.peers, peer.name = "") (name : String) :
    ({ parsed with peers := nameImportedPeers name parsed.peers } : WgConfig).validate = .ok () ↔
      ∀ i < parsed.peers.length, importedPeerName name parsed.peers.length i = "" ∨
        ValidName (importedPeerName name parsed.peers.length i) := by
  obtain ⟨some, each⟩ := (WgConfig.validate_ok_iff _).mp valid
  rw [WgConfig.validate_ok_iff]
  have nonempty : nameImportedPeers name parsed.peers ≠ [] := by
    simpa [nameImportedPeers] using some
  have entry (i : Nat) (bound : i < parsed.peers.length)
      (named : i < (nameImportedPeers name parsed.peers).length) :
      (nameImportedPeers name parsed.peers)[i] =
        { parsed.peers[i] with name := importedPeerName name parsed.peers.length i } := by
    simp [nameImportedPeers, unnamed _ (List.getElem_mem bound)]
  constructor
  · rintro ⟨_, all⟩ i bound
    have := (all _ (List.getElem_mem (by rwa [nameImportedPeers_length]))).name
    rwa [entry i bound] at this
  · intro names
    refine ⟨nonempty, fun peer member => ?_⟩
    obtain ⟨i, bound, rfl⟩ := List.mem_iff_getElem.mp member
    rw [nameImportedPeers_length] at bound
    rw [entry i bound]
    exact ⟨names i bound, (each _ (List.getElem_mem bound)).allowedIps⟩

theorem loadFromFile_ok {io : Io} {disk : Disk} {p : OsPath} {config : WgConfig}
    (read : loadFromFile io disk p = .ok config) :
    config.validate = .ok () ∧ ∀ peer ∈ config.peers, peer.name = "" := by
  obtain ⟨contents, _, parsed⟩ := bind_eq_ok.mp read
  exact loadFromStr_ok parsed

theorem loadExisting_valid {entry : ImportPath} {io : Io} {disk : Disk} {config : OsPath}
    {existing : AppConfig} (loaded : entry.loadExisting io disk config = .ok existing) :
    existing.EntriesValid := by
  have of_load (h : loadAppConfig io disk config = .ok existing) : existing.EntriesValid := by
    obtain ⟨_, _, _, valid⟩ := loadAppConfig_ok_iff.mp h
    exact ((AppConfig.validate_ok_iff _).mp valid).2
  cases entry with
  | tui => exact of_load loaded
  | cli =>
    simp only [ImportPath.loadExisting, loadOrDefault] at loaded
    split at loaded
    · exact of_load loaded
    · cases loaded
      exact AppConfig.entriesValid_default

/-- What the two ways in put into the map, under a name the loader accepts. -/
theorem connection_valid_iff (entry : ImportPath) {parsed : WgConfig} {name : String}
    (goodName : ValidName name) (valid : parsed.validate = .ok ())
    (unnamed : ∀ peer ∈ parsed.peers, peer.name = "") :
    (entry.connection name parsed).validate = .ok () ↔
      (entry = .cli → 1 < parsed.peers.length → ∀ i < parsed.peers.length,
        ValidName s!"{name}-{i}") := by
  cases entry with
  | tui => simp [ImportPath.connection, valid]
  | cli =>
    have nonempty := ((WgConfig.validate_ok_iff _).mp valid).1
    have positive : 0 < parsed.peers.length := List.length_pos_iff.mpr nonempty
    simp only [ImportPath.connection, validate_named_iff valid unnamed, true_imp_iff]
    by_cases single : parsed.peers.length = 1
    · simp [importedPeerName, single, goodName]
    · have several : 1 < parsed.peers.length := by omega
      simp only [importedPeerName, single, if_false, several, true_imp_iff]
      refine forall₂_congr fun i _ => or_iff_right ?_
      intro empty
      have := congrArg String.length empty
      simp at this

/-- An import leaves a configuration that loads, with every other connection as it was,
exactly when the names it makes up are names the loader accepts. -/
theorem import_keeps_config_loadable_iff (roundTrip : TomlRoundTrip) (entry : ImportPath)
    (io : Io) (disk : Disk) (source config : OsPath) (parsed : WgConfig) (existing : AppConfig)
    (read : loadFromFile io disk source = .ok parsed)
    (loaded : entry.loadExisting io disk config = .ok existing)
    (reported : (entry.importFile io disk source config).2 = true) :
    (∃ after, loadAppConfig .clean (entry.importFile io disk source config).1 config = .ok after ∧
        ∀ other, other ≠ ImportPath.connectionName source → after.get other = existing.get other) ↔
      ValidName (ImportPath.connectionName source) ∧
        (entry = .cli → 1 < parsed.peers.length → ∀ i < parsed.peers.length,
          ValidName s!"{ImportPath.connectionName source}-{i}") := by
  have saves := ImportPath.importFile_eq read loaded (ImportPath.importFile_named reported)
  have success := isOk_iff.mp ((congrArg Prod.snd saves).symm.trans reported)
  have written := congrArg Prod.fst saves
  obtain ⟨valid, unnamed⟩ := loadFromFile_ok read
  have loads := load_saved_iff roundTrip success
  rw [AppConfig.validate_insert_iff (loadExisting_valid loaded)] at loads
  have accepted (goodName : ValidName (ImportPath.connectionName source)) :=
    connection_valid_iff entry goodName valid unnamed
  rw [written]
  constructor
  · rintro ⟨after, saved, _⟩
    obtain ⟨goodName, good⟩ := ((loads after).mp saved).2
    exact ⟨goodName, (accepted goodName).mp good⟩
  · rintro ⟨goodName, names⟩
    refine ⟨_, (loads _).mpr ⟨rfl, goodName, (accepted goodName).mpr names⟩, ?_⟩
    intro other different
    rw [AppConfig.get_insert, if_neg different]

end

namespace ImportSample

def zeroKey : String := "AAAAAAAAAAAAAAAAAAAAAAAAAAAAAAAAAAAAAAAAAAA="

def confFile : String :=
  "[Interface]\nPrivateKey = AAAAAAAAAAAAAAAAAAAAAAAAAAAAAAAAAAAAAAAAAAA=\n[Peer]\nPublicKey = AAAAAAAAAAAAAAAAAAAAAAAAAAAAAAAAAAAAAAAAAAA=\nAllowedIPs = 10.0.0.0/8"

def peerNamed (name : String) : PeerConfig :=
  ⟨name, ⟨.replicate 32 0⟩, none, none, ["10.0.0.0/8"], 0⟩

def wgNamed (peer : String) : WgConfig :=
  ⟨⟨⟨.replicate 32 0⟩, 0, [], [], [], 0, 0, [], [], [], []⟩, [peerNamed peer]⟩

def interfaceToml (header : String) : String :=
  s!"[{header}]\nprivate_key = \"{zeroKey}\"\nlisten_port = 0\naddresses = []\ndns = []\n" ++
  "dns_search = []\nmtu = 0\nfwmark = 0\npre_up = []\npost_up = []\npre_down = []\n" ++
  "post_down = []\n"

def peerToml (header peer : String) : String :=
  s!"\n[[{header}]]\nname = \"{peer}\"\npublic_key = \"{zeroKey}\"\n" ++
  "allowed_ips = [\"10.0.0.0/8\"]\npersistent_keepalive = 0\n"

/-- A connection without peers, on its own. -/
def wgToml : String := "peers = []\n\n" ++ interfaceToml "interface"

/-- A connection as it is written to the file, under its key. -/
def tomlSection (key peer : String) : String :=
  interfaceToml s!"connections.{key}.interface" ++ peerToml s!"connections.{key}.peers" peer ++ "\n"

def tomlEnd : String := "[log_display]\nshow_timestamps = true\ncolor_badges = true\n"

def home : AppConfig := AppConfig.insert default "home" (wgNamed "home")

def homeToml : String := tomlSection "home" "home" ++ tomlEnd

/-- The file that holds `home`, then an import under a good and under a bad name. -/
@[reducible] def externals : Externals :=
  .tabulated [(zeroKey, List.replicate 32 0)]
    [(wgToml, ⟨(wgNamed "").interface, []⟩),
     (interfaceToml "interface" ++ peerToml "peers" "home", wgNamed "home")]
    [(homeToml, home),
     (tomlSection "home" "home" ++ tomlSection "office" "office" ++ tomlEnd,
       home.insert "office" (wgNamed "office")),
     (tomlSection "\"my vpn\"" "my vpn" ++ tomlSection "home" "home" ++ tomlEnd,
       home.insert "my vpn" (wgNamed "my vpn")),
     (tomlSection "\"my vpn\"" "" ++ tomlSection "home" "home" ++ tomlEnd,
       home.insert "my vpn" (wgNamed ""))]

def config : OsPath := .ofString "/etc/ferro-wg/config.toml"
def office : OsPath := .ofString "/tmp/office.conf"
def myVpn : OsPath := .ofString "/tmp/my vpn.conf"

def disk : Disk := fun p =>
  if p = config then some (.text homeToml)
  else if p = office ∨ p = myVpn then some (.text confFile)
  else none

/-- The tables of the files make no difference to the format. -/
theorem loadFromStr_tabulated (keys : List (String × List UInt8))
    (wgs wgs' : List (String × WgConfig)) (files files' : List (String × AppConfig)) (s : String) :
    @loadFromStr (.tabulated keys wgs files) s = @loadFromStr (.tabulated keys wgs' files') s := rfl

theorem loadFromStr_confFile : @loadFromStr externals confFile = .ok (wgNamed "") := by
  decide +kernel

theorem loadFromFile_conf {source : OsPath} (there : disk source = some (.text confFile)) :
    @loadFromFile externals .clean disk source = .ok (wgNamed "") := by
  have contents : readToString .clean disk source = .ok confFile := readToString_clean.mpr there
  simp only [loadFromFile, contents, Except.mapError, bind, Except.bind]
  exact loadFromStr_confFile

theorem roundTrip : @TomlRoundTrip externals := tabulated_roundTrip (by decide +kernel)

theorem loadExisting_home (entry : ImportPath) :
    @ImportPath.loadExisting externals entry .clean disk config = .ok home := by
  cases entry <;> decide +kernel

theorem stem_office : office.fileStem.bind OsPath.toStr = some "office" := by
  have stem : office.fileStem = some (.ofString "office") := rfl
  rw [stem, Option.bind_some, OsPath.toStr_ofString]

theorem stem_myVpn : myVpn.fileStem.bind OsPath.toStr = some "my vpn" := by
  have stem : myVpn.fileStem = some (.ofString "my vpn") := rfl
  rw [stem, Option.bind_some, OsPath.toStr_ofString]

theorem importFile_sample {source : OsPath} {name : String} (entry : ImportPath)
    (there : disk source = some (.text confFile))
    (stem : source.fileStem.bind OsPath.toStr = some name) :
    @ImportPath.importFile externals entry .clean disk source config =
      let save := @saveAppConfig externals .clean disk (home.insert name
        (entry.connection name (wgNamed ""))) config
      (save.1, save.2.isOk) := by
  have named : ImportPath.connectionName source = name := by rw [ImportPath.connectionName, stem]; rfl
  rw [@ImportPath.importFile_eq externals _ _ _ _ _ _ _ (loadFromFile_conf there)
    (loadExisting_home entry) fun _ => by rw [stem]; rfl, named]

end ImportSample

open ImportSample in
/-- Importing `office.conf` on the command line. -/
theorem import_keeps_config_loadable_office :
    ∃ after, @loadAppConfig externals .clean
        (@ImportPath.importFile externals .cli .clean disk office config).1 config = .ok after ∧
      ∀ other, other ≠ "office" → after.get other = home.get other := by
  have saved : (@saveAppConfig externals .clean disk (home.insert "office"
      (ImportPath.connection .cli "office" (wgNamed ""))) config).2 = .ok () := rfl
  have reported : (@ImportPath.importFile externals .cli .clean disk office config).2 = true := by
    rw [importFile_sample .cli rfl stem_office]
    exact isOk_iff.mpr saved
  have named : ImportPath.connectionName office = "office" := by
    rw [ImportPath.connectionName, stem_office]
    rfl
  have iff := @import_keeps_config_loadable_iff externals roundTrip .cli .clean disk office config
    (wgNamed "") home (loadFromFile_conf rfl) (loadExisting_home _) reported
  rw [named] at iff
  exact iff.mpr ⟨by decide +kernel, fun _ several => absurd several (by decide)⟩

open ImportSample in
/-- Importing `my vpn.conf`, either way, leaves a file in which even `home` is lost. -/
theorem import_breaks_config_my_vpn :
    @TomlRoundTrip externals ∧ @loadAppConfig externals .clean disk config = .ok home ∧
      @loadFromFile externals .clean disk myVpn = .ok (wgNamed "") ∧
      ∀ entry : ImportPath,
        (@ImportPath.importFile externals entry .clean disk myVpn config).2 = true ∧
        ∀ after, @loadAppConfig externals .clean
          (@ImportPath.importFile externals entry .clean disk myVpn config).1 config ≠ .ok after := by
  refine ⟨roundTrip, loadExisting_home .tui, loadFromFile_conf rfl, fun entry => ?_⟩
  have saved : (@saveAppConfig externals .clean disk (home.insert "my vpn"
      (entry.connection "my vpn" (wgNamed ""))) config).2 = .ok () := by
    cases entry <;> rfl
  rw [importFile_sample entry rfl stem_myVpn]
  refine ⟨isOk_iff.mpr saved, fun after loads => ?_⟩
  have valid := ((@load_saved_iff externals roundTrip _ _ _ _ saved _).mp loads).2
  have homeValid := @loadExisting_valid externals _ _ _ _ _ (loadExisting_home entry)
  have badName := ((@AppConfig.validate_insert_iff externals _ homeValid _ _).mp valid).1
  exact absurd (badName.chars ' ' (by simp)) (by decide)

end FerroWg
