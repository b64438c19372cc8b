import FerroWg.Core.Ipc
import FerroWg.Tui.ConfigEdit

/-! Tabs, input modes, keys and the actions of the interface (`app.rs`, `action.rs`). -/

namespace FerroWg.Tui

inductive Tab where
  | overview
  | status
  | peers
  | compare
  | config
  | logs
  deriving DecidableEq, Repr

def Tab.all : Vector Tab 6 := #v[.overview, .status, .peers, .compare, .config, .logs]

def Tab.index : Tab → Fin 6
  | .overview => 0
  | .status => 1
  | .peers => 2
  | .compare => 3
  | .config => 4
  | .logs => 5

def Tab.next (t : Tab) : Tab := Tab.all[t.index + 1]
def Tab.prev (t : Tab) : Tab := Tab.all[t.index + 5]

example (t : Tab) : t.next.prev = t := by cases t <;> rfl

inductive InputMode where
  | normal
  | search
  | import (buffer : String)
  | export (buffer : String)
  | editField
  deriving DecidableEq, Repr

/-- The key codes some handler asks for; `other` stands for all that none does. -/
inductive KeyCode where
  | char (c : Char)
  | enter
  | esc
  | backspace
  | tab
  | backTab
  | left
  | right
  | up
  | down
  | other (code : Nat)
  deriving DecidableEq, Repr

structure KeyEvent where
  code : KeyCode
  control : Bool := false
  deriving DecidableEq, Repr

inductive ConfirmAction where
  | disconnectAll
  | stopDaemon
  | deletePeer (i : Nat)
  deriving DecidableEq, Repr

inductive Action where
  | quit
  | nextTab
  | prevTab
  | selectTab (tab : Tab)
  | nextRow
  | prevRow
  | enterSearch
  | exitSearch
  | clearSearch
  | searchInput (c : Char)
  | searchBackspace
  | tick
  | selectNextConnection
  | selectPrevConnection
  | selectConnection (i : Nat)
  | updatePeers (statuses : List PeerStatus)
  | connectPeer (name : String)
  | disconnectPeer (name : String)
  | cyclePeerBackend (name : String)
  | daemonError (message : String)
  | daemonOk (message : String)
  | daemonConnectivityChanged (connected : Bool)
  | connectAll
  | disconnectAll
  | startDaemon
  | stopDaemon
  | enterImport
  | importKey (key : KeyEvent)
  | submitImport
  | exitImport
  | startBenchmark
  | startBenchmarkForBackend (backend : String)
  | benchmarkProgressUpdate (progress : BenchmarkProgress)
  | benchmarkComplete (result : BenchmarkResult)
  | switchBenchmarkBackend (backend : String)
  | toggleCompareView
  | toggleTheme
  | showHelp
  | hideHelp
  | showConnectionFilter
  | hideConnectionFilter
  | toggleConnectionVisibility (name : String)
  | setConnectionFilterSearch (query : String)
  | enterExport
  | exportKey (key : KeyEvent)
  | submitExport
  | exitExport
  | requestConfirm (message : String) (action : ConfirmAction)
  | confirmYes
  | confirmNo
  | enterConfigEdit (sect : ConfigSection) (fieldIdx : Nat)
  | configEditKey (key : KeyEvent)
  | configFocusNext
  | configFocusPrev
  | configFocusInterface
  | configFocusPeer (i : Nat)
  | addConfigPeer
  | deleteConfigPeer (i : Nat)
  | previewConfig
  | configDiffScrollDown
  | configDiffScrollUp
  | saveConfig (reconnect : Bool)
  | discardConfigEdits

end FerroWg.Tui
