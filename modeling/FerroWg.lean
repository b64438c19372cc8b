import FerroWg.Lib.Run
import FerroWg.Lib.Text
import FerroWg.Core.Externals
import FerroWg.Core.Config
import FerroWg.Core.Disk
import FerroWg.Core.Key
import FerroWg.Core.WgQuick
import FerroWg.Core.WgQuickExport
import FerroWg.Core.Ipc
import FerroWg.Daemon.ActiveSet
import FerroWg.Daemon.Commands
import FerroWg.Daemon.History
import FerroWg.Daemon.Serve
import FerroWg.Daemon.Switch
import FerroWg.Import
import FerroWg.ImportAgree
import FerroWg.Lib.Positions
import FerroWg.Lib.Register
import FerroWg.Tui.Accumulate
import FerroWg.Tui.BenchmarkCsv
import FerroWg.Tui.BenchmarkDaemon
import FerroWg.Tui.Benchmarks
import FerroWg.Tui.CommandTasks
import FerroWg.Tui.ConfigDiff
import FerroWg.Tui.FieldRoundTrip
import FerroWg.Tui.CidrGrammar
import FerroWg.Tui.Confirm
import FerroWg.Tui.Convergence
import FerroWg.Tui.ConnectionBar
import FerroWg.Tui.CrashSafe
import FerroWg.Tui.DiffPreview
import FerroWg.Tui.EditMode
import FerroWg.Tui.Eviction
import FerroWg.Tui.FilterOverlay
import FerroWg.Tui.FocusAgree
import FerroWg.Tui.Highlight
import FerroWg.Tui.HistoryFile
import FerroWg.Tui.LogPipeline
import FerroWg.Tui.LogWindow
import FerroWg.Tui.LostUpdate
import FerroWg.Tui.Mouse
import FerroWg.Tui.NewPeers
import FerroWg.Tui.Polling
import FerroWg.Tui.Preview
import FerroWg.Tui.Prompts
import FerroWg.Tui.Reconnect
import FerroWg.Tui.Sparkline
import FerroWg.Tui.Statuses
import FerroWg.Tui.Target
import FerroWg.Tui.Toasts
import FerroWg.Tui.Typing
import FerroWg.Tui.UniqueIps
import FerroWg.Tui.Visible
import FerroWg.Tunnel.Adapters
import FerroWg.Tunnel.DnsAtomic
import FerroWg.Tunnel.DnsRestore
import FerroWg.Tunnel.FailedUp
import FerroWg.Tunnel.PacketLoop
import FerroWg.Tunnel.Routes
import FerroWg.Tunnel.ServiceOrder
import FerroWg.Cli.Commands
import FerroWg.Cli.Logs
