import FerroWg.Tui.State

/-!
# Components

The `handle_key` and `update` of each component that keeps a state or answers a key. Drawing is
left out, so a state holds for whatever the last drawing made of it.
-/

namespace FerroWg.Tui

open Lib

/-- Whether logs of every connection are shown, or those of the visible ones. -/
inductive ConnectionFilter where
  | all
  | active
  deriving DecidableEq, Repr

def ConnectionFilter.toggle : ConnectionFilter → ConnectionFilter
  | .all => .active
  | .active => .all

structure ScrollState where
  offset : Nat
  autoScroll : Bool
  viewHeight : Nat
  deriving DecidableEq, Repr

structure LogsComponent where
  scrollState : ScrollState
  minLevel : LogLevel
  connectionFilter : ConnectionFilter
  deriving DecidableEq, Repr

structure ConfigComponent where
  focusedSection : ConfigSection
  focusedFieldIdx : Nat
  deriving DecidableEq, Repr

/-- The selected row of a table or list; a drawing of an empty one selects nothing. -/
abbrev TableState := Option Nat

structure ComponentBundle where
  overview : TableState
  status : TableState
  peers : TableState
  compareTable : TableState
  compareList : TableState
  config : ConfigComponent
  logs : LogsComponent
  connectionFilter : TableState
  deriving DecidableEq, Repr

def ComponentBundle.new : ComponentBundle where
  overview := some 0
  status := some 0
  peers := some 0
  compareTable := some 0
  compareList := some 0
  config := ⟨.interface, 0⟩
  logs := ⟨⟨0, true, 0⟩, .debug, .all⟩
  connectionFilter := some 0

/-! ## Tables of rows -/

/-- How the table of a tab with `rows` rows follows an action. -/
def TableState.update (rows : Nat) (action : Action) (table : TableState) : TableState :=
  match action with
  | .nextRow => some (min (table.getD 0 + 1) (rows - 1))
  | .prevRow => some (table.getD 0 - 1)
  | .selectTab _ | .nextTab | .prevTab => some 0
  | _ => table

def visibleViews (s : AppState) : List ConnectionView :=
  s.connections.filter fun c => c.name ∈ s.visibleConnections

def overviewHandleKey (key : KeyEvent) (s : AppState) : Option Action :=
  match key.code with
  | .down | .char 'j' => some .nextRow
  | .up | .char 'k' => some .prevRow
  | .enter => some (.selectTab .status)
  | .char 'u' => some .connectAll
  | .char 'd' => some (.requestConfirm "Tear down all connections?" .disconnectAll)
  | .char 's' => if s.daemonConnected then none else some .startDaemon
  | .char 'S' =>
    if s.daemonConnected then some (.requestConfirm "Stop the running daemon?" .stopDaemon)
    else none
  | _ => none

def selectedConnectionName (s : AppState) (table : TableState) : Option String :=
  (visibleViews s)[table.getD 0]?.map (·.name)

def statusHandleKey (key : KeyEvent) (s : AppState) (table : TableState) : Option Action :=
  match key.code with
  | .down | .char 'j' => some .nextRow
  | .up | .char 'k' => some .prevRow
  | .enter | .char 'u' => (selectedConnectionName s table).map .connectPeer
  | .char 'd' => (selectedConnectionName s table).map .disconnectPeer
  | .char 'b' => (selectedConnectionName s table).map .cyclePeerBackend
  | .char 'f' => some .showConnectionFilter
  | _ => none

def peersHandleKey (key : KeyEvent) : Option Action :=
  match key.code with
  | .down | .char 'j' => some .nextRow
  | .up | .char 'k' => some .prevRow
  | _ => none

def benchmarkBackends : List String := ["boringtun", "neptun", "gotatun"]

def selectedBackend (table : TableState) : String :=
  benchmarkBackends[table.getD 0]?.getD "boringtun"

def compareHandleKey (key : KeyEvent) (table : TableState) : Option Action :=
  match key.code with
  | .down | .char 'j' => some .nextRow
  | .up | .char 'k' => some .prevRow
  | .char 'b' => some .startBenchmark
  | .enter => some (.startBenchmarkForBackend (selectedBackend table))
  | .char 'w' => some (.switchBenchmarkBackend (selectedBackend table))
  | .char 'h' => some .toggleCompareView
  | .char 'e' => some .enterExport
  | _ => none

/-! ## The configuration tab -/

/-- The connection of the least visible name, if any name is visible. A visible name that is no
connection is a panic. -/
def viewedConnection (s : AppState) : Option (Option ConnectionView) :=
  match s.minVisible with
  | none => some none
  | some name => (s.findConnection name).map some

namespace ConfigComponent

def fields (comp : ConfigComponent) : List EditableField :=
  fieldsForSection comp.focusedSection false

def focusNext (comp : ConfigComponent) : ConfigComponent :=
  if comp.fields = [] then comp
  else { comp with focusedFieldIdx := (comp.focusedFieldIdx + 1) % comp.fields.length }

def focusPrev (comp : ConfigComponent) : ConfigComponent :=
  if comp.fields = [] then comp
  else { comp with focusedFieldIdx :=
    if comp.focusedFieldIdx = 0 then comp.fields.length - 1 else comp.focusedFieldIdx - 1 }

def canEditCurrentField (comp : ConfigComponent) (config : WgConfig) : Bool :=
  match comp.fields[comp.focusedFieldIdx]? with
  | none => false
  | some .peerPublicKey => match comp.focusedSection with
    | .peer i => config.peers.length ≤ i
    | .interface => false
  | some _ => true

def keyOn (key : KeyEvent) (conn : ConnectionView) (comp : ConfigComponent) :
    ConfigComponent × Option Action :=
  match key.code with
  | .char 'j' | .down => (comp.focusNext, none)
  | .char 'k' | .up => (comp.focusPrev, none)
  | .char 'e' => (comp,
    if comp.canEditCurrentField conn.config
    then some (.enterConfigEdit comp.focusedSection comp.focusedFieldIdx) else none)
  | .char '+' => (comp, some .addConfigPeer)
  | .char 'x' => (comp, match comp.focusedSection with
    | .peer i =>
      if i < conn.config.peers.length
      then some (.requestConfirm s!"Delete peer {i}?" (.deletePeer i)) else none
    | .interface => none)
  | .char 'p' => (comp, some .previewConfig)
  | .esc => (comp, some .discardConfigEdits)
  | _ => (comp, none)

/-- Keys count on the tab itself in normal mode only, but the connection is looked up first. -/
def handleKey (key : KeyEvent) (s : AppState) (comp : ConfigComponent) :
    Option (ConfigComponent × Option Action) :=
  (viewedConnection s).map fun
    | none => (comp, none)
    | some conn =>
      if s.activeTab ≠ .config ∨ s.inputMode ≠ .normal then (comp, none)
      else comp.keyOn key conn

/-- What follows the deletion of the peer at `i`: the stored configuration, not the draft, says
whether any peer is left. -/
def peerDeleted (i : Nat) (s : AppState) (comp : ConfigComponent) : Option ConfigComponent :=
  match comp.focusedSection with
  | .interface => some comp
  | .peer focused =>
    if focused = i then
      (viewedConnection s).map fun
        | none => comp
        | some conn => if conn.config.peers = [] then ⟨.interface, 0⟩ else comp
    else if i < focused then some { comp with focusedSection := .peer (focused - 1) }
    else some comp

def update (action : Action) (s : AppState) (comp : ConfigComponent) : Option ConfigComponent :=
  match action with
  | .configFocusInterface => some ⟨.interface, 0⟩
  | .configFocusPeer i => some ⟨.peer i, 0⟩
  | .configFocusNext => (viewedConnection s).map fun c => if c.isSome then comp.focusNext else comp
  | .configFocusPrev => (viewedConnection s).map fun c => if c.isSome then comp.focusPrev else comp
  | .deleteConfigPeer i => comp.peerDeleted i s
  | _ => some comp

end ConfigComponent

/-! ## Logs -/

def LogLevel.severity : LogLevel → Nat
  | .trace => 0
  | .debug => 1
  | .info => 2
  | .warn => 3
  | .error => 4

def lineMatchesSearch (line query : String) : Bool :=
  query = "" || Text.contains query (Text.toAsciiLowercase line)

/-- The level alone decides here: the tab asks for entries of every connection. -/
def filteredLines (entries : List LogEntry) (search : String) (minLevel : LogLevel) :
    List LogEntry :=
  if minLevel = .debug ∧ search = "" then entries
  else entries.filter fun e =>
    (e.level = .trace || LogLevel.severity minLevel ≤ LogLevel.severity e.level) &&
      lineMatchesSearch e.message search

namespace LogsComponent

def filteredTotal (s : AppState) (comp : LogsComponent) : Nat :=
  let entries := filteredLines s.logEntries (Text.toAsciiLowercase s.searchQuery) comp.minLevel
  match comp.connectionFilter with
  | .all => entries.length
  | .active =>
    (entries.filter fun e => e.connectionName.all (· ∈ s.visibleConnections)).length

def toBottom (comp : LogsComponent) : LogsComponent :=
  { comp with scrollState := { comp.scrollState with autoScroll := true, offset := 0 } }

def scrollTo (offset : Nat) (comp : LogsComponent) : LogsComponent :=
  { comp with scrollState := { comp.scrollState with autoScroll := false, offset := offset } }

def scrollUp (comp : LogsComponent) : LogsComponent :=
  if 0 < comp.scrollState.offset then comp.scrollTo (comp.scrollState.offset - 1) else comp

def scrollDown (total : Nat) (comp : LogsComponent) : LogsComponent :=
  if comp.scrollState.offset < total - comp.scrollState.viewHeight
  then comp.scrollTo (comp.scrollState.offset + 1) else comp

def jumpToBottom (total : Nat) (comp : LogsComponent) : LogsComponent :=
  { comp with scrollState :=
    { comp.scrollState with autoScroll := true, offset := total - comp.scrollState.viewHeight } }

/-- No key of this tab makes an action. -/
def handleKey (key : KeyEvent) (s : AppState) (comp : LogsComponent) : LogsComponent :=
  match key.code with
  | .up | .char 'k' => comp.scrollUp
  | .char 'g' => comp.scrollTo 0
  | .down | .char 'j' => comp.scrollDown (comp.filteredTotal s)
  | .char 'G' => comp.jumpToBottom (comp.filteredTotal s)
  | .char 'l' => { comp with minLevel := comp.minLevel.cycle }.toBottom
  | .char 'c' => { comp with connectionFilter := comp.connectionFilter.toggle }.toBottom
  | _ => comp

end LogsComponent

/-! ## Overlays and bars -/

def connectionBarHandleKey (key : KeyEvent) : Option Action :=
  match key.code with
  | .char '[' => some .selectPrevConnection
  | .char ']' => some .selectNextConnection
  | _ => none

def statusBarHandleKey (key : KeyEvent) (s : AppState) : Option Action :=
  match s.inputMode with
  | .search => match key.code with
    | .esc | .enter => some .exitSearch
    | .backspace => some .searchBackspace
    | .char c => some (.searchInput c)
    | _ => none
  | .import _ => match key.code with
    | .esc => some .exitImport
    | .enter => some .submitImport
    | _ => some (.importKey key)
  | .export _ => match key.code with
    | .esc => some .exitExport
    | .enter => some .submitExport
    | _ => some (.exportKey key)
  | .normal | .editField => none

def confirmDialogHandleKey (key : KeyEvent) (s : AppState) : Option Action :=
  s.pendingConfirm.map fun _ => match key.code with
    | .char 'y' | .char 'Y' => .confirmYes
    | _ => .confirmNo

def diffPreviewHandleKey (key : KeyEvent) (s : AppState) : Option Action :=
  match s.configDiffPending with
  | none => none
  | some _ => match key.code with
    | .char 's' => some (.saveConfig false)
    | .char 'r' => some (.saveConfig true)
    | .char 'j' | .down => some .configDiffScrollDown
    | .char 'k' | .up => some .configDiffScrollUp
    | .esc | .char 'q' => some .discardConfigEdits
    | _ => none

def helpOverlayHandleKey (key : KeyEvent) (s : AppState) : Option Action :=
  if s.showHelp then match key.code with
    | .char '?' | .char 'q' | .esc => some .hideHelp
    | _ => none
  else none

section

variable [Externals]

def filteredPeers (s : AppState) : List PeerConfig :=
  let query := Externals.toLowercase s.searchQuery
  ((visibleViews s).flatMap (·.config.peers)).filter fun p =>
    query = "" || Text.contains query (Externals.toLowercase p.name) ||
      p.endpoint.any fun ep => Text.contains query (Externals.toLowercase ep)

def filteredConnections (s : AppState) : List ConnectionView :=
  let query := Externals.toLowercase s.connectionFilterSearch
  s.connections.filter fun c =>
    query = "" || Text.contains query (Externals.toLowercase c.name)

def connectionFilterHandleKey (key : KeyEvent) (s : AppState) (table : TableState) :
    Option Action :=
  if s.showConnectionFilter then match key.code with
    | .esc => some .hideConnectionFilter
    | .char c => some (.setConnectionFilterSearch (s.connectionFilterSearch.push c))
    | .backspace => some (.setConnectionFilterSearch (Text.pop s.connectionFilterSearch))
    | .up => some .prevRow
    | .down => some .nextRow
    | .enter => table.bind fun row =>
      (filteredConnections s)[row]?.map fun c => .toggleConnectionVisibility c.name
    | _ => none
  else none

def connectionFilterUpdate (action : Action) (s : AppState) (table : TableState) : TableState :=
  if s.showConnectionFilter then match action with
    | .nextRow => some (min (table.getD 0 + 1) ((filteredConnections s).length - 1))
    | .prevRow => some (table.getD 0 - 1)
    | .setConnectionFilterSearch _ | .showConnectionFilter => some 0
    | _ => table
  else table

/-- The `update` of every component, with the state the action led to. -/
def ComponentBundle.update (action : Action) (s : AppState) (bundle : ComponentBundle) :
    Option ComponentBundle :=
  (bundle.config.update action s).map fun config =>
    { bundle with
      overview := bundle.overview.update (visibleViews s).length action
      status := bundle.status.update (visibleViews s).length action
      peers := bundle.peers.update (filteredPeers s).length action
      compareTable := if s.compareView = .live
        then bundle.compareTable.update benchmarkBackends.length action else bundle.compareTable
      compareList := if s.compareView = .historical
        then bundle.compareList.update s.benchmarkHistory.length action else bundle.compareList
      config := config
      connectionFilter := connectionFilterUpdate action s bundle.connectionFilter }

/-- The `handle_key` of the active tab. -/
def ComponentBundle.tabHandleKey (key : KeyEvent) (s : AppState) (bundle : ComponentBundle) :
    Option (ComponentBundle × Option Action) :=
  match s.activeTab with
  | .overview => some (bundle, overviewHandleKey key s)
  | .status => some (bundle, statusHandleKey key s bundle.status)
  | .peers => some (bundle, peersHandleKey key)
  | .compare => some (bundle, compareHandleKey key bundle.compareTable)
  | .config => (bundle.config.handleKey key s).map fun (config, action) =>
    ({ bundle with config := config }, action)
  | .logs => some ({ bundle with logs := bundle.logs.handleKey key s }, none)

end

end FerroWg.Tui
