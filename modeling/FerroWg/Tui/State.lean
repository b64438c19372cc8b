import FerroWg.Tui.Action
import Mathlib.Data.Finset.Max

/-!
# The state of the interface

`AppState` and `dispatch` of `state.rs`. A handler that would panic answers `none`. What the
source reads from the clock is an argument.
-/

namespace FerroWg.Tui

open Lib

structure Clock where
  /-- `Instant::now()`, in nanoseconds. -/
  instant : Nat
  /-- Milliseconds since the epoch. -/
  unixMs : Nat

def toastDuration : Duration := .ofSecs 3
def maxVisibleToasts : Nat := 5
def staleHandshake : Duration := .ofSecs 180
def highPacketLoss : Float32 := 0.1
def benchmarkProgressHistoryCap : Nat := 60
def benchmarkHistoryCap : Nat := 50

inductive CompareView where
  | live
  | historical
  deriving DecidableEq, Repr

inductive ConnectionState where
  | connected
  | disconnected
  deriving DecidableEq, Repr

inductive ThemeKind where
  | mocha
  | latte
  deriving DecidableEq, Repr

def ThemeKind.toggle : ThemeKind → ThemeKind
  | .mocha => .latte
  | .latte => .mocha

structure ConnectionStatus where
  state : ConnectionState
  backend : BackendKind
  stats : TunnelStats
  endpoint : Option String
  interface : Option String
  healthWarning : Option String

structure ConnectionView where
  name : String
  config : WgConfig
  status : Option ConnectionStatus
  selectedPeerRow : Nat

structure ConfirmPending where
  message : String
  action : ConfirmAction
  deriving DecidableEq, Repr

structure Toast where
  message : String
  isError : Bool
  expiresAt : Nat
  deriving DecidableEq, Repr

structure BenchmarkRun where
  timestampMs : Int64
  connectionName : String
  results : BTreeMap BenchmarkResult

structure AppState where
  running : Bool
  activeTab : Tab
  inputMode : InputMode
  searchQuery : String
  connections : List ConnectionView
  visibleConnections : Finset String
  logEntries : List LogEntry
  themeKind : ThemeKind
  showHelp : Bool
  showConnectionFilter : Bool
  connectionFilterSearch : String
  daemonConnected : Bool
  toasts : List Toast
  logDisplay : LogDisplayConfig
  pendingConfirm : Option ConfirmPending
  benchmarkResults : BTreeMap BenchmarkResult
  benchmarkHistory : List BenchmarkRun
  benchmarkRunning : Bool
  benchmarkProgressHistory : List BenchmarkProgress
  compareView : CompareView
  configEdit : Option ConfigEditState
  configDiffPending : Option ConfigDiffPending

def connectionViews (config : AppConfig) : List ConnectionView :=
  config.connections.toList.map fun (name, config) => ⟨name, config, none, 0⟩

theorem connectionViews_names (config : AppConfig) :
    (connectionViews config).map ConnectionView.name = config.connectionNames := by
  rw [AppConfig.connectionNames, ← Std.ExtTreeMap.map_fst_toList_eq_keys, connectionViews,
    List.map_map]
  rfl

def allVisible (connections : List ConnectionView) : Finset String :=
  (connections.map (·.name)).toFinset

namespace AppState

def new (config : AppConfig) : AppState where
  running := true
  activeTab := .overview
  inputMode := .normal
  searchQuery := ""
  connections := connectionViews config
  visibleConnections := allVisible (connectionViews config)
  logEntries := []
  themeKind := .mocha
  showHelp := false
  showConnectionFilter := false
  connectionFilterSearch := ""
  daemonConnected := false
  toasts := []
  logDisplay := config.logDisplay
  pendingConfirm := none
  benchmarkResults := ∅
  benchmarkHistory := []
  benchmarkRunning := false
  benchmarkProgressHistory := []
  compareView := .live
  configEdit := none
  configDiffPending := none

def reloadFromConfig (s : AppState) (config : AppConfig) : AppState :=
  { s with
    connections := connectionViews config
    logDisplay := config.logDisplay
    visibleConnections := allVisible (connectionViews config) }

def findConnection (s : AppState) (name : String) : Option ConnectionView :=
  s.connections.find? fun c => c.name == name

/-- The least visible name, which stands for the selected connection throughout. -/
def minVisible (s : AppState) : Option String := s.visibleConnections.min

def pushToast (s : AppState) (now : Clock) (message : String) (isError : Bool) : AppState :=
  let toasts := s.toasts ++ [⟨message, isError, now.instant + toastDuration⟩]
  { s with toasts := if maxVisibleToasts < toasts.length then toasts.tail else toasts }

def clearExpiredToasts (s : AppState) (now : Clock) : AppState :=
  { s with toasts := s.toasts.dropWhile fun t => t.expiresAt ≤ now.instant }

def importBuffer (s : AppState) : Option String :=
  match s.inputMode with
  | .import buffer => some buffer
  | _ => none

def exportBuffer (s : AppState) : Option String :=
  match s.inputMode with
  | .export buffer => some buffer
  | _ => none

end AppState

/-- How a key edits a line of text. -/
def typeKey (key : KeyEvent) (buffer : String) : String :=
  match key.code with
  | .char c => buffer.push c
  | .backspace => Text.pop buffer
  | _ => buffer

def inSession (s : AppState) (f : ConfigEditState → AppState) : AppState :=
  match s.configEdit with
  | none => s
  | some edit => f edit

def editSession (s : AppState) (f : ConfigEditState → ConfigEditState) : AppState :=
  { s with configEdit := s.configEdit.map f }

def closeField (edit : ConfigEditState) : ConfigEditState :=
  { edit with editBuffer := none, fieldError := none }

def leaveEditField (s : AppState) : AppState :=
  if s.inputMode = .editField then { editSession s closeField with inputMode := .normal } else s

def startBenchmark (now : Clock) (s : AppState) : AppState :=
  if s.benchmarkRunning then s.pushToast now "benchmark already running" true
  else { s with benchmarkRunning := true, benchmarkResults := ∅, benchmarkProgressHistory := [] }

def benchmarkProgressUpdate (p : BenchmarkProgress) (s : AppState) : AppState :=
  let kept :=
    if benchmarkProgressHistoryCap ≤ s.benchmarkProgressHistory.length
    then s.benchmarkProgressHistory.tail else s.benchmarkProgressHistory
  { s with benchmarkProgressHistory := kept ++ [p] }

def capHistory (runs : List BenchmarkRun) (cap : Nat) : List BenchmarkRun :=
  runs.drop (runs.length - cap)

/-- The time has to fit in an `i64`. -/
def benchmarkComplete (now : Clock) (result : BenchmarkResult) (s : AppState) :
    Option AppState :=
  let results := s.benchmarkResults.insert result.backend result
  if now.unixMs < 2 ^ 63 then
    let run : BenchmarkRun := ⟨.ofNat now.unixMs, s.minVisible.getD "", results⟩
    some { s with
      benchmarkRunning := false
      benchmarkResults := results
      benchmarkHistory := capHistory (s.benchmarkHistory ++ [run]) benchmarkHistoryCap }
  else none

def toggleVisibility (name : String) (s : AppState) : AppState :=
  { s with visibleConnections :=
      if name ∈ s.visibleConnections then s.visibleConnections.erase name
      else insert name s.visibleConnections }

def isNewFocus (edit : ConfigEditState) : Bool :=
  match edit.focusedSection with
  | .peer i => i ∈ edit.newPeerIndices
  | .interface => false

def focusedFields (edit : ConfigEditState) : List EditableField :=
  fieldsForSection edit.focusedSection (isNewFocus edit)

def focusedField (edit : ConfigEditState) : EditableField :=
  (focusedFields edit)[edit.focusedFieldIdx]?.getD .listenPort

def focusNext (edit : ConfigEditState) : ConfigEditState :=
  { edit with focusedFieldIdx := (edit.focusedFieldIdx + 1) % (focusedFields edit).length }

def focusPrev (edit : ConfigEditState) : ConfigEditState :=
  { edit with focusedFieldIdx :=
      if edit.focusedFieldIdx = 0 then (focusedFields edit).length - 1
      else edit.focusedFieldIdx - 1 }

def focusOn (sect : ConfigSection) (edit : ConfigEditState) : ConfigEditState :=
  { edit with focusedSection := sect, focusedFieldIdx := 0 }

def typeIntoBuffer (key : KeyEvent) (edit : ConfigEditState) : ConfigEditState :=
  { edit with editBuffer := edit.editBuffer.map (typeKey key) }

theorem typeIntoBuffer_enter (control : Bool) (edit : ConfigEditState) :
    typeIntoBuffer ⟨.enter, control⟩ edit = edit := by
  have same : edit.editBuffer.map (typeKey ⟨.enter, control⟩) = edit.editBuffer := by
    cases edit.editBuffer <;> rfl
  rw [typeIntoBuffer, same]

/-- The key of a peer that was added until one is entered. -/
def placeholderKey : PublicKey := ⟨.replicate 32 0⟩

def newPeer : PeerConfig := ⟨"", placeholderKey, none, none, [], 0⟩

def addConfigPeer (edit : ConfigEditState) : ConfigEditState :=
  { edit with
    draft := { edit.draft with peers := edit.draft.peers ++ [newPeer] }
    newPeerIndices := insert edit.draft.peers.length edit.newPeerIndices
    focusedSection := .peer edit.draft.peers.length
    focusedFieldIdx := 0
    editBuffer := some ""
    fieldError := none }

/-- The indices left after the peer at `i` is gone. -/
def shiftIndices (i : Nat) (indices : Finset Nat) : Finset Nat :=
  (indices.erase i).image fun idx => if i < idx then idx - 1 else idx

theorem mem_shiftIndices {i j : Nat} {indices : Finset Nat} :
    j ∈ shiftIndices i indices ↔ (if j < i then j else j + 1) ∈ indices := by
  simp only [shiftIndices, Finset.mem_image, Finset.mem_erase]
  constructor
  · rintro ⟨idx, ⟨other, member⟩, rfl⟩
    split_ifs with above below below
    · omega
    · rwa [Nat.sub_add_cancel (by omega)]
    · exact member
    · omega
  · intro member
    split_ifs at member with before
    · exact ⟨j, ⟨by omega, member⟩, by simp; omega⟩
    · exact ⟨j + 1, ⟨by omega, member⟩, by simp; omega⟩

def clampFocus (edit : ConfigEditState) : ConfigEditState :=
  if edit.draft.peers = [] then { edit with focusedSection := .interface, focusedFieldIdx := 0 }
  else
    let sect := match edit.focusedSection with
      | .peer j => .peer (min j (edit.draft.peers.length - 1))
      | .interface => .interface
    let edit := { edit with focusedSection := sect }
    { edit with focusedFieldIdx := min edit.focusedFieldIdx ((focusedFields edit).length - 1) }

def deleteConfigPeer (i : Nat) (edit : ConfigEditState) : ConfigEditState :=
  if i < edit.draft.peers.length then
    clampFocus { edit with
      draft := { edit.draft with peers := edit.draft.peers.eraseIdx i }
      newPeerIndices := shiftIndices i edit.newPeerIndices }
  else edit

def setPublicKey (draft : WgConfig) (i : Nat) (key : PublicKey) : WgConfig :=
  { draft with peers := draft.peers.modify i fun p => { p with publicKey := key } }

section

variable [Externals]

def applyPeerUpdate (s : PeerStatus) (c : ConnectionView) : ConnectionView :=
  { c with status := some {
      state := if s.connected then .connected else .disconnected
      backend := s.backend
      stats := s.stats
      endpoint := s.endpoint
      interface := s.interface
      healthWarning :=
        if s.connected then
          if s.stats.lastHandshake.any (staleHandshake < ·) then some "stale handshake"
          else if highPacketLoss < s.stats.packetLoss then
            some s!"high packet loss ({Externals.formatRounded (s.stats.packetLoss * 100)}%)"
          else none
        else none } }

/-- Only the first connection of the name is updated; an unknown name is passed over. -/
def updateConnection (connections : List ConnectionView) (s : PeerStatus) : List ConnectionView :=
  match connections with
  | [] => []
  | c :: rest =>
    if c.name = s.name then applyPeerUpdate s c :: rest else c :: updateConnection rest s

def applyPeerUpdates (statuses : List PeerStatus) (s : AppState) : AppState :=
  { s with
    daemonConnected := true
    connections := statuses.foldl updateConnection s.connections }

/-- The draft is always a fresh copy of the stored configuration. A visible name that is no
connection is a panic. -/
def enterConfigEdit (sect : ConfigSection) (fieldIdx : Nat) (s : AppState) : Option AppState :=
  match s.minVisible with
  | none => some s
  | some name =>
    match s.findConnection name with
    | none => none
    | some conn =>
      let field := (fieldsForSection sect false)[fieldIdx]?.getD .listenPort
      some { s with
        configEdit := some {
          connectionName := conn.name
          draft := conn.config
          focusedSection := sect
          focusedFieldIdx := fieldIdx
          editBuffer := some (fieldCurrentValue field sect conn.config)
          fieldError := none
          newPeerIndices := ∅
          sessionError := none }
        inputMode := .editField }

/-- A value that passed its check is written to the draft. -/
def commitValue (edit : ConfigEditState) (value : String) : ConfigEditState :=
  closeField <|
    if focusedField edit = .peerPublicKey then
      match edit.focusedSection with
      | .interface => edit
      | .peer i =>
        let marks := edit.newPeerIndices.erase i
        { edit with
          draft := match PublicKey.fromBase64 value with
            | .ok key => setPublicKey edit.draft i key
            | .error _ => edit.draft
          newPeerIndices := marks
          sessionError := if marks = ∅ then none else edit.sessionError }
    else
      { edit with draft := applyField (focusedField edit) value edit.draft edit.focusedSection }

/-- What Enter and Esc do to the buffer; they type nothing into it. -/
def finishField (key : KeyEvent) (edit : ConfigEditState) (s : AppState) : AppState :=
  match key.code, edit.editBuffer with
  | .enter, some value =>
    match validateField (focusedField edit) value edit.draft edit.focusedSection with
    | .ok () => { s with configEdit := some (commitValue edit value), inputMode := .normal }
    | .error e => { s with configEdit := some { edit with fieldError := some e.display } }
  | .esc, some _ =>
    { s with
      configEdit := some (closeField edit)
      inputMode := .normal }
  | _, _ => { s with configEdit := some edit }

def configEditKey (key : KeyEvent) (edit : ConfigEditState) (s : AppState) : AppState :=
  finishField key (typeIntoBuffer key edit) s

def tomlOrEmpty (config : Option WgConfig) : String :=
  match config.map Externals.wgToToml with
  | some (.ok toml) => toml
  | _ => ""

/-- Peers without a key and a shown error stop the preview; the configuration is not validated. -/
def previewConfig (edit : ConfigEditState) (s : AppState) : AppState :=
  if edit.newPeerIndices ≠ ∅ then
    { s with configEdit := some { edit with
        sessionError := some "All new peers must have a public key before saving" } }
  else if edit.fieldError.isSome then s
  else
    let original := (s.findConnection edit.connectionName).map (·.config)
    { s with configDiffPending := some {
        connectionName := edit.connectionName
        draft := edit.draft
        diffLines := configDiff (tomlOrEmpty original) (tomlOrEmpty (some edit.draft))
        scrollOffset := 0 } }

def scrollDiff (s : AppState) (f : Nat → Nat) : AppState :=
  { s with configDiffPending := s.configDiffPending.map fun p =>
      { p with scrollOffset := f p.scrollOffset } }

/-- The handler of a confirmation deletes a peer itself, and leaves the other actions to the
event loop. -/
def confirmYes (s : AppState) : AppState :=
  match s.pendingConfirm with
  | some ⟨_, .deletePeer i⟩ => editSession { s with pendingConfirm := none } (deleteConfigPeer i)
  | _ => { s with pendingConfirm := none }

def dispatch (now : Clock) (action : Action) (s : AppState) : Option AppState :=
  match action with
  | .quit => some { s with running := false }
  | .nextTab => let s := leaveEditField s; some { s with activeTab := s.activeTab.next }
  | .prevTab => let s := leaveEditField s; some { s with activeTab := s.activeTab.prev }
  | .selectTab tab => some { leaveEditField s with activeTab := tab }
  | .enterSearch => some { s with inputMode := .search, searchQuery := "" }
  | .exitSearch => some { s with inputMode := .normal }
  | .clearSearch => some { s with inputMode := .normal, searchQuery := "" }
  | .searchInput c => some { s with searchQuery := s.searchQuery.push c }
  | .searchBackspace => some { s with searchQuery := Text.pop s.searchQuery }
  | .updatePeers statuses => some (applyPeerUpdates statuses s)
  | .daemonConnectivityChanged connected => some { s with daemonConnected := connected }
  | .daemonOk message => some (s.pushToast now message false)
  | .daemonError message => some (s.pushToast now message true)
  | .enterImport => some { s with inputMode := .import "" }
  | .importKey key => match s.inputMode with
    | .import buffer => some { s with inputMode := .import (typeKey key buffer) }
    | _ => some s
  | .startBenchmark | .startBenchmarkForBackend _ => some (startBenchmark now s)
  | .benchmarkProgressUpdate p => some (benchmarkProgressUpdate p s)
  | .benchmarkComplete result => benchmarkComplete now result s
  | .toggleCompareView => some { s with compareView := match s.compareView with
      | .live => .historical
      | .historical => .live }
  | .toggleTheme => some { s with themeKind := s.themeKind.toggle }
  | .showHelp => some { s with showHelp := true }
  | .hideHelp => some { s with showHelp := false }
  | .showConnectionFilter => some { s with showConnectionFilter := true }
  | .hideConnectionFilter =>
    some { s with showConnectionFilter := false, connectionFilterSearch := "" }
  | .toggleConnectionVisibility name => some (toggleVisibility name s)
  | .setConnectionFilterSearch query => some { s with connectionFilterSearch := query }
  | .enterExport => some { s with inputMode := .export "" }
  | .exportKey key => match s.inputMode with
    | .export buffer => some { s with inputMode := .export (typeKey key buffer) }
    | _ => some s
  | .submitImport | .exitImport | .submitExport | .exitExport =>
    some { s with inputMode := .normal }
  | .requestConfirm message action => some { s with pendingConfirm := some ⟨message, action⟩ }
  | .confirmYes => some (confirmYes s)
  | .confirmNo => some { s with pendingConfirm := none }
  | .enterConfigEdit sect fieldIdx => enterConfigEdit sect fieldIdx s
  | .configEditKey key => some (inSession s fun edit => configEditKey key edit s)
  | .configFocusNext => some (editSession s focusNext)
  | .configFocusPrev => some (editSession s focusPrev)
  | .configFocusInterface => some (editSession s (focusOn .interface))
  | .configFocusPeer i => some (editSession s (focusOn (.peer i)))
  | .addConfigPeer => some (inSession s fun edit =>
      { s with configEdit := some (addConfigPeer edit), inputMode := .editField })
  | .deleteConfigPeer i => some (editSession s (deleteConfigPeer i))
  | .previewConfig => some (inSession s fun edit => previewConfig edit s)
  | .configDiffScrollDown => some (scrollDiff s fun n => min (n + 1) (2 ^ 64 - 1))
  | .configDiffScrollUp => some (scrollDiff s fun n => n - 1)
  | .saveConfig _ => some { s with configEdit := none, configDiffPending := none }
  | .discardConfigEdits =>
    some { s with configEdit := none, configDiffPending := none, inputMode := .normal }
  -- Rows, connections, peers and the daemon are the business of components and of the event loop.
  | .nextRow | .prevRow | .tick | .selectNextConnection | .selectPrevConnection
  | .selectConnection _ | .connectPeer _ | .disconnectPeer _ | .cyclePeerBackend _ | .connectAll
  | .disconnectAll | .startDaemon | .stopDaemon | .switchBenchmarkBackend _ => some s

/-- An action with the time it is dispatched at, as a step of a run. -/
def act (s : AppState) (label : Clock × Action) : Option AppState := dispatch label.1 label.2 s

end

end FerroWg.Tui
