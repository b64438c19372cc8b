import FerroWg.Core.Types

/-!
# What the daemon and its clients exchange

`ipc.rs`, with the statistics of `stats.rs` that travel in its messages.
-/

namespace FerroWg

/-- In nanoseconds. -/
abbrev Duration := Nat

def Duration.ofSecs (n : Nat) : Duration := n * 1000000000

inductive BackendKind where
  | boringtun
  | neptun
  | gotatun
  deriving DecidableEq, Repr

/-- In ascending severity. -/
inductive LogLevel where
  | trace
  | debug
  | info
  | warn
  | error
  deriving DecidableEq, Repr

/-- The next stricter threshold; `trace` is entered by no step of the cycle. -/
def LogLevel.cycle : LogLevel → LogLevel
  | .trace | .debug => .info
  | .info => .warn
  | .warn => .error
  | .error => .debug

structure LogEntry where
  timestampMs : Int64
  level : LogLevel
  connectionName : Option String
  message : String
  deriving DecidableEq, Repr

structure TunnelStats where
  txBytes : UInt64
  rxBytes : UInt64
  lastHandshake : Option Duration
  packetLoss : Float32
  sessionIndex : Option UInt32

structure PeerStatus where
  name : String
  connected : Bool
  backend : BackendKind
  stats : TunnelStats
  endpoint : Option String
  interface : Option String

structure BenchmarkProgress where
  backend : String
  elapsedSecs : UInt32
  totalSecs : UInt32
  currentThroughputBps : Float
  packetsProcessed : UInt64

structure BenchmarkResult where
  backend : String
  packetsProcessed : UInt64
  bytesEncapsulated : UInt64
  elapsed : Duration
  throughputBps : Float
  avgLatency : Duration
  p50Latency : Duration
  p95Latency : Duration
  p99Latency : Duration

inductive DaemonCommand where
  | up (connectionName : Option String) (backend : BackendKind)
  | down (connectionName : Option String)
  | status
  | switchBackend (connectionName : String) (backend : BackendKind)
  | shutdown
  | streamLogs
  | benchmark (connectionName : String) (durationSecs : UInt32)
  deriving DecidableEq, Repr

inductive DaemonResponse where
  | ok
  | error (message : String)
  | status (peers : List PeerStatus)
  | logEntry (entry : LogEntry)
  | benchmarkProgress (progress : BenchmarkProgress)
  | benchmarkResult (result : BenchmarkResult)

/-- Why a client got no answer (`client.rs`). -/
inductive DaemonClientError where
  | notRunning
  | encode (message : String)
  | io (message : String)
  | noResponse
  | decode (message : String)
  deriving DecidableEq, Repr

def DaemonClientError.display : DaemonClientError → String
  | .notRunning => "daemon is not running"
  | .encode message => s!"encode command: {message}"
  | .io message => s!"socket I/O: {message}"
  | .noResponse => "daemon closed connection without response"
  | .decode message => s!"decode response: {message}"

def DaemonClientError.isNotRunning (e : DaemonClientError) : Bool := e = .notRunning

end FerroWg
