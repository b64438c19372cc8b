import FerroWg.Core.Ipc
import FerroWg.Lib.Run

/-!
# The packet loop

`packet_loop`, `handle_outgoing` and `handle_incoming` of `tunnel/mod.rs` over the adapter of
`backend/boringtun.rs`. The crate's `Tunn` is a parameter, and what its documentation says of
`decapsulate` is a structure. A failed send is logged and changes nothing, so that what counts is
what was handed to the device and to the socket.
-/

namespace FerroWg.Tunnel

open Lib

abbrev Bytes := List UInt8

def bufSize : Nat := 65536

abbrev Buffer := Vector UInt8 bufSize

/-- `&buf[..len]`, which panics past the end. -/
def upTo (buf : Buffer) (len : Nat) : Option Bytes :=
  if len ≤ bufSize then some (buf.toList.take len) else none

/-- A packet written over the front of a buffer. -/
def fill (buf : Buffer) (packet : Bytes) : Buffer :=
  .ofFn fun i => packet[i.val]?.getD buf[i]

structure SocketAddr where
  ip : IpAddr
  port : UInt16
  deriving DecidableEq, Repr

inductive PacketAction where
  | writeToTun (len : Nat)
  | writeToNetwork (len : Nat)
  | done
  | err (e : String)
  deriving DecidableEq, Repr

/-- The trait, as far as the loop uses it: each call may write to the buffer it is given. -/
structure WgBackend (σ : Type) where
  encapsulate : Bytes → Buffer → σ → PacketAction × Buffer × σ
  decapsulate : Option SocketAddr → Bytes → Buffer → σ → PacketAction × Buffer × σ
  initiateHandshake : Bool → Buffer → σ → PacketAction × Buffer × σ
  tick : Buffer → σ → PacketAction × Buffer × σ
  stats : σ → TunnelStats

/-! ## The adapter -/

/-- The results carry a slice of the caller's buffer. -/
inductive TunnResult where
  | done
  | err (e : String)
  | writeToNetwork (buf : Bytes)
  | writeToTunnelV4 (buf : Bytes) (source : BitVec 32)
  | writeToTunnelV6 (buf : Bytes) (source : BitVec 128)
  deriving DecidableEq, Repr

/-- `boringtun::noise::Tunn`. -/
structure Tunn (τ : Type) where
  encapsulate : Bytes → Buffer → τ → TunnResult × Buffer × τ
  decapsulate : Option IpAddr → Bytes → Buffer → τ → TunnResult × Buffer × τ
  formatHandshakeInitiation : Bool → Buffer → τ → TunnResult × Buffer × τ
  updateTimers : Buffer → τ → TunnResult × Buffer × τ
  stats : τ → TunnelStats

def tunnResultToAction : TunnResult → PacketAction
  | .done => .done
  | .err e => .err e
  | .writeToNetwork buf => .writeToNetwork buf.length
  | .writeToTunnelV4 buf _ | .writeToTunnelV6 buf _ => .writeToTun buf.length

variable {σ τ : Type}

def boringtunBackend (tunn : Tunn τ) : WgBackend τ where
  encapsulate src dst t := (tunn.encapsulate src dst t).map tunnResultToAction id
  decapsulate srcAddr datagram dst t :=
    (tunn.decapsulate (srcAddr.map (·.ip)) datagram dst t).map tunnResultToAction id
  initiateHandshake force dst t :=
    (tunn.formatHandshakeInitiation force dst t).map tunnResultToAction id
  tick dst t := (tunn.updateTimers dst t).map tunnResultToAction id
  stats := tunn.stats

/-! ## The loop -/

inductive Sent where
  | tun (packet : Bytes)
  | udp (packet : Bytes) (dest : SocketAddr)
  deriving DecidableEq, Repr

structure LoopState (σ : Type) where
  backend : σ
  tunBuf : Buffer
  wgBuf : Buffer
  sent : List Sent
  broadcast : List TunnelStats
  running : Bool

variable (backend : WgBackend σ) (endpoint : SocketAddr)

/-- What an action of the backend that is no write does is log. -/
def send (s : LoopState σ) (packet : Option Sent) : Option (LoopState σ) :=
  packet.map fun p => { s with sent := s.sent ++ [p] }

/-- Handshakes and timers write to `wg_buf`, and only to the network. -/
def sendToNetwork (s : LoopState σ) : PacketAction × Buffer × σ → Option (LoopState σ)
  | (action, wgBuf, backend) =>
    let s := { s with backend, wgBuf }
    match action with
    | .writeToNetwork len => send s ((upTo wgBuf len).map (.udp · endpoint))
    | .writeToTun _ | .err _ | .done => some s

def handleOutgoing (ipPacket : Bytes) (s : LoopState σ) : Option (LoopState σ) :=
  sendToNetwork endpoint s (backend.encapsulate ipPacket s.wgBuf s.backend)

/-- The backend is called once. -/
def handleIncoming (datagram : Bytes) (srcAddr : SocketAddr) (s : LoopState σ) :
    Option (LoopState σ) :=
  match backend.decapsulate (some srcAddr) datagram s.tunBuf s.backend with
  | (action, tunBuf, backend) =>
    let s := { s with backend, tunBuf }
    match action with
    | .writeToTun len => send s ((upTo tunBuf len).map .tun)
    | .writeToNetwork len => send s ((upTo tunBuf len).map (.udp · endpoint))
    | .err _ | .done => some s

/-- What wakes the loop: a read of either side, the timer, or the signal to stop. -/
inductive LoopEvent where
  | tun (packet : Bytes)
  | tunFailed
  | udp (datagram : Bytes) (srcAddr : SocketAddr)
  | udpFailed
  | tick
  | shutdown
  deriving DecidableEq, Repr

/-- A read takes as much as fits. -/
def received (packet : Bytes) : Bytes := packet.take bufSize

def LoopState.initial (backendState : σ) : LoopState σ :=
  ⟨backendState, .replicate bufSize 0, .replicate bufSize 0, [], [], true⟩

def startLoop (backendState : σ) : Option (LoopState σ) :=
  let s := LoopState.initial backendState
  sendToNetwork endpoint s (backend.initiateHandshake true s.wgBuf s.backend)

def loopStep (s : LoopState σ) (event : LoopEvent) : Option (LoopState σ) :=
  if s.running then
    match event with
    | .tun packet =>
      let s := { s with tunBuf := fill s.tunBuf (received packet) }
      if received packet = [] then some s
      else handleOutgoing backend endpoint (received packet) s
    | .udp datagram srcAddr => handleIncoming backend endpoint (received datagram) srcAddr s
    | .tunFailed | .udpFailed => some s
    | .tick =>
      (sendToNetwork endpoint s (backend.tick s.wgBuf s.backend)).map fun s =>
        { s with broadcast := s.broadcast ++ [backend.stats s.backend] }
    | .shutdown => some { s with running := false }
  else none

/-! ## What `decapsulate` promises -/

inductive Packet where
  | network (bytes : Bytes)
  | tunnel (bytes : Bytes)
  deriving DecidableEq, Repr

def Packet.bytes : Packet → Bytes
  | .network bytes | .tunnel bytes => bytes

/-- Where a packet belongs. -/
def Packet.sent : Packet → Sent
  | .network bytes => .udp bytes endpoint
  | .tunnel bytes => .tun bytes

def TunnResult.packet : TunnResult → Option Packet
  | .writeToNetwork buf => some (.network buf)
  | .writeToTunnelV4 buf _ | .writeToTunnelV6 buf _ => some (.tunnel buf)
  | .done | .err _ => none

/-- One call hands out one packet at most, at the front of the buffer. After a packet, calls with an
empty datagram hand out the next ones, until one is done. What a keepalive or an invalid datagram
leaves queued is the crate's own affair. -/
structure DecapsulateContract (tunn : Tunn τ) where
  /-- The packets that calls with an empty datagram hand out. -/
  queued : τ → List Packet
  /-- The packet that a datagram's own call hands out. -/
  handed : Option IpAddr → Bytes → τ → Option Packet
  /-- The packets that are queued once a datagram was taken. -/
  behind : Option IpAddr → Bytes → τ → List Packet
  first : ∀ src datagram buf t,
    (tunn.decapsulate src datagram buf t).1.packet = handed src datagram t
  rest : ∀ src datagram buf t,
    queued (tunn.decapsulate src datagram buf t).2.2 = behind src datagram t
  placed : ∀ src datagram buf t, ∀ p ∈ (tunn.decapsulate src datagram buf t).1.packet,
    p.bytes <+: (tunn.decapsulate src datagram buf t).2.1.toList
  next : ∀ src t, ∀ p later, queued t = p :: later →
    handed src [] t = some p ∧ behind src [] t = later
  idle : ∀ src buf t, queued t = [] → (tunn.decapsulate src [] buf t).1 = .done

/-- The packets that a datagram makes available, in order. -/
def DecapsulateContract.available {tunn : Tunn τ} (contract : DecapsulateContract tunn)
    (src : Option IpAddr) (datagram : Bytes) (t : τ) : List Packet :=
  (contract.handed src datagram t).toList ++ contract.behind src datagram t

theorem upTo_of_prefix {buf : Buffer} {packet : Bytes} (front : packet <+: buf.toList) :
    upTo buf packet.length = some packet := by
  have short := front.length_le
  rw [Vector.length_toList] at short
  rw [upTo, if_pos short]
  exact congrArg some (List.prefix_iff_eq_take.mp front).symm

/-- The handler writes the packet it was handed, and no other. -/
theorem handleIncoming_eq {tunn : Tunn τ} (contract : DecapsulateContract tunn)
    (datagram : Bytes) (srcAddr : SocketAddr) (s : LoopState τ) :
    handleIncoming (boringtunBackend tunn) endpoint datagram srcAddr s =
      some { s with
        backend := (tunn.decapsulate (some srcAddr.ip) datagram s.tunBuf s.backend).2.2
        tunBuf := (tunn.decapsulate (some srcAddr.ip) datagram s.tunBuf s.backend).2.1
        sent := s.sent ++
          (contract.handed (some srcAddr.ip) datagram s.backend).toList.map
            (Packet.sent endpoint) } := by
  have first := contract.first (some srcAddr.ip) datagram s.tunBuf s.backend
  have placed := contract.placed (some srcAddr.ip) datagram s.tunBuf s.backend
  rw [handleIncoming, ← first, boringtunBackend]
  simp only [Option.map_some]
  generalize tunn.decapsulate (some srcAddr.ip) datagram s.tunBuf s.backend = outcome at placed
  obtain ⟨result, buf, t⟩ := outcome
  cases result with
  | done | err => simp [tunnResultToAction, TunnResult.packet]
  | writeToNetwork | writeToTunnelV4 | writeToTunnelV6 =>
    have front := upTo_of_prefix (placed _ rfl)
    simp only [Packet.bytes] at front
    simp [tunnResultToAction, TunnResult.packet, send, Packet.sent, front]

/-- Every packet that the datagram makes available is written, in order, and none is left to ask
for. -/
def Processed {tunn : Tunn τ} (contract : DecapsulateContract tunn) (datagram : Bytes)
    (srcAddr : SocketAddr) (s : LoopState τ) : Prop :=
  ∃ next, handleIncoming (boringtunBackend tunn) endpoint datagram srcAddr s = some next ∧
    next.sent = s.sent ++
      (contract.available (some srcAddr.ip) datagram s.backend).map (Packet.sent endpoint) ∧
    ∀ buf, ((boringtunBackend tunn).decapsulate none [] buf next.backend).1 = .done

/-- An empty call is done exactly when nothing is queued. -/
theorem DecapsulateContract.done_iff {tunn : Tunn τ} (contract : DecapsulateContract tunn) (t : τ) :
    (∀ buf, ((boringtunBackend tunn).decapsulate none [] buf t).1 = .done) ↔
      contract.queued t = [] := by
  constructor
  · intro done
    cases waiting : contract.queued t with
    | nil => rfl
    | cons p later =>
      have result : tunnResultToAction (tunn.decapsulate none [] (.replicate bufSize 0) t).1 = .done :=
        done (.replicate bufSize 0)
      have handed := contract.first none [] (.replicate bufSize 0) t
      rw [(contract.next none t p later waiting).1] at handed
      cases made : (tunn.decapsulate none [] (.replicate bufSize 0) t).1 with
      | done | err => simp [made, TunnResult.packet] at handed
      | writeToNetwork | writeToTunnelV4 | writeToTunnelV6 =>
        simp [made, tunnResultToAction] at result
  · intro nothing buf
    exact congrArg tunnResultToAction (contract.idle none buf t nothing)

/-- A single call is enough exactly when the datagram leaves nothing queued behind the packet that
the call hands out. -/
theorem incoming_processed_iff {tunn : Tunn τ} (contract : DecapsulateContract tunn)
    (datagram : Bytes) (srcAddr : SocketAddr) (s : LoopState τ) :
    Processed endpoint contract datagram srcAddr s ↔
      contract.behind (some srcAddr.ip) datagram s.backend = [] := by
  have rest := contract.rest (some srcAddr.ip) datagram s.tunBuf s.backend
  simp only [Processed, handleIncoming_eq endpoint contract, Option.some.injEq, exists_eq_left',
    List.append_cancel_left_eq, contract.done_iff, rest, DecapsulateContract.available,
    List.map_append, List.self_eq_append_right, List.map_eq_nil_iff, and_self]

/-- The same of all datagrams that arrive in a run of the loop. -/
theorem loop_processes_iff {tunn : Tunn τ} (contract : DecapsulateContract tunn)
    (events : List LoopEvent) (s : LoopState τ) :
    Along (loopStep (boringtunBackend tunn) endpoint)
        (fun s event => ∀ datagram srcAddr, event = .udp datagram srcAddr →
          Processed endpoint contract (received datagram) srcAddr s) events s ↔
      Along (loopStep (boringtunBackend tunn) endpoint)
        (fun s event => ∀ datagram srcAddr, event = .udp datagram srcAddr →
          contract.behind (some srcAddr.ip) (received datagram) s.backend = [])
        events s := by
  simp only [incoming_processed_iff]

/-! ## A packet that waits for the handshake -/

namespace QueueSample

theorem fill_prefix (buf : Buffer) (byte : UInt8) : [byte] <+: (fill buf [byte]).toList := by
  have front : (fill buf [byte]).toList[0]? = some byte := by
    simp [fill, bufSize]
  cases chars : (fill buf [byte]).toList with
  | nil => simp [chars] at front
  | cons first rest =>
    obtain rfl : first = byte := by simpa [chars] using front
    exact ⟨rest, rfl⟩

/-- Packets of one byte wait for a handshake; any datagram completes it and is answered. -/
def tunn : Tunn (List UInt8) where
  encapsulate src dst t := (.done, dst, t ++ src.take 1)
  decapsulate _ datagram dst t :=
    match datagram, t with
    | [], [] => (.done, dst, [])
    | [], byte :: rest => (.writeToNetwork [byte], fill dst [byte], rest)
    | _ :: _, t => (.writeToNetwork [4], fill dst [4], t)
  formatHandshakeInitiation _ dst t := (.writeToNetwork [1], fill dst [1], t)
  updateTimers dst t := (.done, dst, t)
  stats _ := ⟨0, 0, none, 0, none⟩

def queued (t : List UInt8) : List Packet := t.map fun byte => .network [byte]

def handed (_ : Option IpAddr) (datagram : Bytes) (t : List UInt8) : Option Packet :=
  if datagram = [] then (queued t).head? else some (.network [4])

def behind (_ : Option IpAddr) (datagram : Bytes) (t : List UInt8) : List Packet :=
  if datagram = [] then (queued t).tail else queued t

theorem first (src : Option IpAddr) (datagram : Bytes) (buf : Buffer) (t : List UInt8) :
    (tunn.decapsulate src datagram buf t).1.packet = handed src datagram t := by
  cases datagram <;> cases t <;> simp [tunn, TunnResult.packet, handed, queued]

theorem rest (src : Option IpAddr) (datagram : Bytes) (buf : Buffer) (t : List UInt8) :
    queued (tunn.decapsulate src datagram buf t).2.2 = behind src datagram t := by
  cases datagram <;> cases t <;> simp [tunn, behind, queued]

theorem placed (src : Option IpAddr) (datagram : Bytes) (buf : Buffer) (t : List UInt8) :
    ∀ p ∈ (tunn.decapsulate src datagram buf t).1.packet,
      p.bytes <+: (tunn.decapsulate src datagram buf t).2.1.toList := by
  cases datagram <;> cases t <;> simp [tunn, TunnResult.packet, Packet.bytes, fill_prefix]

theorem idle (src : Option IpAddr) (buf : Buffer) (t : List UInt8) (nothing : queued t = []) :
    (tunn.decapsulate src [] buf t).1 = .done := by
  cases t with
  | nil => rfl
  | cons byte rest => simp [queued] at nothing

theorem next (src : Option IpAddr) (t : List UInt8) (p : Packet) (later : List Packet)
    (waiting : queued t = p :: later) : handed src [] t = some p ∧ behind src [] t = later := by
  simp [handed, behind, waiting]

def contract : DecapsulateContract tunn :=
  ⟨queued, handed, behind, first, rest, placed, next, idle⟩

def peer : SocketAddr := ⟨.v4 0xC0000209, 51820⟩

/-- The answer to the handshake arrives while one packet waits. -/
def waiting : LoopState (List UInt8) := .initial [7]

end QueueSample

open QueueSample in
/-- The packet that waited is not sent. -/
theorem queued_packet_waits : ¬Processed peer contract [2] peer waiting := by
  rintro ⟨next, taken, sent, _⟩
  rw [handleIncoming_eq peer contract] at taken
  obtain rfl := Option.some.inj taken
  simp [contract, DecapsulateContract.available, handed, behind, queued, waiting,
    LoopState.initial] at sent

open QueueSample in
/-- With nothing waiting, the answer is all there is. -/
theorem lone_packet_sent : Processed peer contract [2] peer (.initial []) :=
  (incoming_processed_iff peer contract [2] peer (.initial [])).mpr (by decide)

end FerroWg.Tunnel
