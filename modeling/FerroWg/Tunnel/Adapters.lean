import FerroWg.Tunnel.PacketLoop

/-!
# The adapters

`backend/neptun.rs` and `backend/gotatun.rs` beside `backend/boringtun.rs`. A crate is told apart
from its buffers: what it does with packets is an engine, and the loop over any of the adapters is
one over the engine.
-/

namespace FerroWg.Tunnel

open Lib

variable {σ τ κ : Type}

/-! ## The other two crates -/

inductive NeptunResult where
  | done
  | err (e : String)
  | writeToNetwork (buf : Bytes)
  | writeToTunnel (buf : Bytes) (addr : IpAddr)

/-- `neptun::noise::Tunn`. -/
structure NeptunTunn (τ : Type) where
  encapsulate : Bytes → Buffer → τ → NeptunResult × Buffer × τ
  decapsulate : Option IpAddr → Bytes → Buffer → τ → NeptunResult × Buffer × τ
  formatHandshakeInitiation : Bool → Buffer → τ → NeptunResult × Buffer × τ
  updateTimers : Buffer → τ → NeptunResult × Buffer × τ
  stats : τ → TunnelStats

def neptunResultToAction : NeptunResult → PacketAction
  | .done => .done
  | .err e => .err e
  | .writeToNetwork buf => .writeToNetwork buf.length
  | .writeToTunnel buf _ => .writeToTun buf.length

def neptunBackend (tunn : NeptunTunn τ) : WgBackend τ where
  encapsulate src dst t := (tunn.encapsulate src dst t).map neptunResultToAction id
  decapsulate srcAddr datagram dst t :=
    (tunn.decapsulate (srcAddr.map (·.ip)) datagram dst t).map neptunResultToAction id
  initiateHandshake force dst t :=
    (tunn.formatHandshakeInitiation force dst t).map neptunResultToAction id
  tick dst t := (tunn.updateTimers dst t).map neptunResultToAction id
  stats := tunn.stats

inductive GotatunResult (κ : Type) where
  | done
  | err (e : String)
  | writeToNetwork (kind : κ)
  | writeToTunnel (packet : Bytes)

/-- `gotatun::noise::Tunn`, with the packets `κ` that it tells apart before it handles them. -/
structure GotatunTunn (κ τ : Type) where
  tryIntoWg : Bytes → Except String κ
  intoBytes : κ → Bytes
  handleOutgoingPacket : Bytes → τ → Option κ × τ
  handleIncomingPacket : κ → τ → GotatunResult κ × τ
  formatHandshakeInitiation : Bool → τ → Option Bytes × τ
  updateTimers : τ → Except String (Option κ) × τ
  stats : τ → TunnelStats

/-- What does not fit is left out. -/
def packetToDst (packet : Bytes) (dst : Buffer) : Nat × Buffer :=
  (min packet.length bufSize, fill dst packet)

def wgKindToDst (tunn : GotatunTunn κ τ) (kind : κ) (dst : Buffer) : Nat × Buffer :=
  packetToDst (tunn.intoBytes kind) dst

/-- A packet is copied to the buffer, and its length is reported. -/
def writeNetwork (written : Nat × Buffer) (t : τ) : PacketAction × Buffer × τ :=
  (.writeToNetwork written.1, written.2, t)

def gotatunBackend (tunn : GotatunTunn κ τ) : WgBackend τ where
  encapsulate src dst t :=
    match tunn.handleOutgoingPacket src t with
    | (some kind, t) => writeNetwork (wgKindToDst tunn kind dst) t
    | (none, t) => (.done, dst, t)
  decapsulate _ datagram dst t :=
    match tunn.tryIntoWg datagram with
    | .error e => (.err s!"parse WG packet: {e}", dst, t)
    | .ok kind => match tunn.handleIncomingPacket kind t with
      | (.done, t) => (.done, dst, t)
      | (.err e, t) => (.err e, dst, t)
      | (.writeToNetwork kind, t) => writeNetwork (wgKindToDst tunn kind dst) t
      | (.writeToTunnel packet, t) =>
        let (len, dst) := packetToDst packet dst
        (.writeToTun len, dst, t)
  initiateHandshake force dst t :=
    match tunn.formatHandshakeInitiation force t with
    | (some packet, t) => writeNetwork (packetToDst packet dst) t
    | (none, t) => (.done, dst, t)
  tick dst t :=
    match tunn.updateTimers t with
    | (.ok (some kind), t) => writeNetwork (wgKindToDst tunn kind dst) t
    | (.ok none, t) => (.done, dst, t)
    | (.error e, t) => (.err e, dst, t)
  stats := tunn.stats

/-! ## Engines -/

/-- What a crate makes of packets, apart from where it puts them. -/
structure Engine (σ : Type) where
  outgoing : Bytes → σ → Option Packet × σ
  incoming : Option IpAddr → Bytes → σ → Option Packet × σ
  handshake : Bool → σ → Option Packet × σ
  timers : σ → Option Packet × σ
  stats : σ → TunnelStats

/-- The packet that an action points to, if it is one; it may point past the end. -/
def PacketAction.carried (action : PacketAction) (buf : Buffer) : Option (Option Packet) :=
  match action with
  | .writeToTun len => (upTo buf len).map fun bytes => some (.tunnel bytes)
  | .writeToNetwork len => (upTo buf len).map fun bytes => some (.network bytes)
  | .done | .err _ => some none

/-- A call that leaves a packet where its action says. -/
def Carries (outcome : PacketAction × Buffer × σ) (made : Option Packet × σ) : Prop :=
  outcome.1.carried outcome.2.1 = some made.1 ∧ outcome.2.2 = made.2

/-- `encapsulate` adds 32 bytes to a packet, and `boringtun` and `neptun` panic where the buffer
does not hold them. -/
def Fits (packet : Bytes) : Prop := packet.length + 32 ≤ bufSize

/-- A datagram that a buffer holds, which `decapsulate` asks for. -/
def Held (datagram : Bytes) : Prop := datagram.length ≤ bufSize

theorem held_received (datagram : Bytes) : Held (received datagram) := List.length_take_le ..

/-- Whatever is in the buffer before, in the states that are `sound` and stay so. -/
structure Implements (backend : WgBackend σ) (engine : Engine σ) (sound : σ → Prop) : Prop where
  encapsulate : ∀ packet buf s, Fits packet → sound s →
    Carries (backend.encapsulate packet buf s) (engine.outgoing packet s) ∧
      sound (engine.outgoing packet s).2
  decapsulate : ∀ src datagram buf s, Held datagram → sound s →
    Carries (backend.decapsulate src datagram buf s) (engine.incoming (src.map (·.ip)) datagram s) ∧
      sound (engine.incoming (src.map (·.ip)) datagram s).2
  initiateHandshake : ∀ force buf s, sound s →
    Carries (backend.initiateHandshake force buf s) (engine.handshake force s) ∧
      sound (engine.handshake force s).2
  tick : ∀ buf s, sound s →
    Carries (backend.tick buf s) (engine.timers s) ∧ sound (engine.timers s).2
  stats : ∀ s, backend.stats s = engine.stats s

/-- What `boringtun` and `neptun` document of a result: it is a slice of the buffer, from its front,
and depends on nothing that was there. -/
def Placed {ρ : Type} (packet : ρ → Option Packet) (outcome : ρ × Buffer × τ)
    (made : Option Packet × τ) : Prop :=
  packet outcome.1 = made.1 ∧ outcome.2.2 = made.2 ∧
    ∀ p ∈ made.1, p.bytes <+: outcome.2.1.toList

/-- A state is `sound` where all that the crate has queued fits as well: it may be sent by a call
with a datagram or by a timer. -/
structure Tunn.Behaves (tunn : Tunn τ) (engine : Engine τ) (sound : τ → Prop) : Prop where
  encapsulate : ∀ packet buf t, Fits packet → sound t →
    Placed TunnResult.packet (tunn.encapsulate packet buf t) (engine.outgoing packet t) ∧
      sound (engine.outgoing packet t).2
  decapsulate : ∀ src datagram buf t, Held datagram → sound t →
    Placed TunnResult.packet (tunn.decapsulate src datagram buf t)
        (engine.incoming src datagram t) ∧
      sound (engine.incoming src datagram t).2
  formatHandshakeInitiation : ∀ force buf t, sound t →
    Placed TunnResult.packet (tunn.formatHandshakeInitiation force buf t)
        (engine.handshake force t) ∧
      sound (engine.handshake force t).2
  updateTimers : ∀ buf t, sound t →
    Placed TunnResult.packet (tunn.updateTimers buf t) (engine.timers t) ∧
      sound (engine.timers t).2
  stats : ∀ t, tunn.stats t = engine.stats t

def NeptunResult.packet : NeptunResult → Option Packet
  | .writeToNetwork buf => some (.network buf)
  | .writeToTunnel buf _ => some (.tunnel buf)
  | .done | .err _ => none

structure NeptunTunn.Behaves (tunn : NeptunTunn τ) (engine : Engine τ) (sound : τ → Prop) :
    Prop where
  encapsulate : ∀ packet buf t, Fits packet → sound t →
    Placed NeptunResult.packet (tunn.encapsulate packet buf t) (engine.outgoing packet t) ∧
      sound (engine.outgoing packet t).2
  decapsulate : ∀ src datagram buf t, Held datagram → sound t →
    Placed NeptunResult.packet (tunn.decapsulate src datagram buf t)
        (engine.incoming src datagram t) ∧
      sound (engine.incoming src datagram t).2
  formatHandshakeInitiation : ∀ force buf t, sound t →
    Placed NeptunResult.packet (tunn.formatHandshakeInitiation force buf t)
        (engine.handshake force t) ∧
      sound (engine.handshake force t).2
  updateTimers : ∀ buf t, sound t →
    Placed NeptunResult.packet (tunn.updateTimers buf t) (engine.timers t) ∧
      sound (engine.timers t).2
  stats : ∀ t, tunn.stats t = engine.stats t

/-- As far as a buffer holds it. -/
def networkPacket (bytes : Bytes) : Packet := .network (bytes.take bufSize)

/-- The packets of `gotatun` are its own, so it need promise nothing, and every state is sound. -/
def GotatunTunn.engine (tunn : GotatunTunn κ τ) : Engine τ where
  outgoing packet t := (tunn.handleOutgoingPacket packet t).map
    (Option.map fun kind => networkPacket (tunn.intoBytes kind)) id
  incoming _ datagram t :=
    match tunn.tryIntoWg datagram with
    | .error _ => (none, t)
    | .ok kind => (tunn.handleIncomingPacket kind t).map (fun
      | .writeToNetwork kind => some (networkPacket (tunn.intoBytes kind))
      | .writeToTunnel packet => some (.tunnel (packet.take bufSize))
      | .done | .err _ => none) id
  handshake force t := (tunn.formatHandshakeInitiation force t).map (Option.map networkPacket) id
  timers t := (tunn.updateTimers t).map (fun
    | .ok kind => kind.map fun kind => networkPacket (tunn.intoBytes kind)
    | .error _ => none) id
  stats := tunn.stats

theorem fill_front (buf : Buffer) (packet : Bytes) :
    packet.take bufSize <+: (fill buf packet).toList := by
  rw [List.prefix_iff_getElem?]
  intro i inside
  rw [List.length_take, Nat.lt_min] at inside
  obtain ⟨short, there⟩ := inside
  simp [fill, short, there]

/-- A copy is where its length says. -/
theorem upTo_packetToDst (packet : Bytes) (dst : Buffer) :
    upTo (packetToDst packet dst).2 (packetToDst packet dst).1 = some (packet.take bufSize) := by
  have front := upTo_of_prefix (fill_front dst packet)
  rwa [List.length_take, min_comm] at front

theorem carries_network (packet : Bytes) (dst : Buffer) (t : τ) :
    Carries (writeNetwork (packetToDst packet dst) t) (some (networkPacket packet), t) := by
  refine ⟨?_, rfl⟩
  rw [writeNetwork, PacketAction.carried, upTo_packetToDst]
  rfl

theorem carries_tunnel (packet : Bytes) (dst : Buffer) (t : τ) :
    Carries (.writeToTun (packetToDst packet dst).1, (packetToDst packet dst).2, t)
      (some (.tunnel (packet.take bufSize)), t) := by
  refine ⟨?_, rfl⟩
  rw [PacketAction.carried, upTo_packetToDst]
  rfl

theorem carries_done (dst : Buffer) (t : τ) : Carries (.done, dst, t) (none, t) := ⟨rfl, rfl⟩

theorem carries_err (e : String) (dst : Buffer) (t : τ) : Carries (.err e, dst, t) (none, t) :=
  ⟨rfl, rfl⟩

/-- A slice at the front of the buffer is where its length says. -/
theorem Placed.carries {ρ : Type} {packet : ρ → Option Packet} {toAction : ρ → PacketAction}
    (none_made : ∀ r buf, packet r = none → (toAction r).carried buf = some none)
    (made : ∀ r buf p, packet r = some p → p.bytes <+: Vector.toList buf →
      (toAction r).carried buf = some (some p))
    {outcome : ρ × Buffer × τ} {result : Option Packet × τ}
    (placed : Placed packet outcome result) : Carries (outcome.map toAction id) result := by
  obtain ⟨same, state, front⟩ := placed
  refine ⟨?_, state⟩
  cases handed : result.1 with
  | none => exact none_made _ _ (same.trans handed)
  | some p => exact made _ _ p (same.trans handed) (front p handed)

theorem carried_tunnResult {outcome : TunnResult × Buffer × τ} {result : Option Packet × τ}
    (placed : Placed TunnResult.packet outcome result) :
    Carries (outcome.map tunnResultToAction id) result := by
  refine placed.carries (fun r buf none_made => ?_) fun r buf p made front => ?_
  · cases r <;> first | rfl | cases none_made
  · cases r <;> cases made
    all_goals
      have found := upTo_of_prefix front
      simp only [Packet.bytes] at found
      simp [tunnResultToAction, PacketAction.carried, found]

theorem carried_neptunResult {outcome : NeptunResult × Buffer × τ} {result : Option Packet × τ}
    (placed : Placed NeptunResult.packet outcome result) :
    Carries (outcome.map neptunResultToAction id) result := by
  refine placed.carries (fun r buf none_made => ?_) fun r buf p made front => ?_
  · cases r <;> first | rfl | cases none_made
  · cases r <;> cases made
    all_goals
      have found := upTo_of_prefix front
      simp only [Packet.bytes] at found
      simp [neptunResultToAction, PacketAction.carried, found]

section

variable {engine : Engine τ} {sound : τ → Prop}

theorem boringtun_implements {tunn : Tunn τ} (behaves : tunn.Behaves engine sound) :
    Implements (boringtunBackend tunn) engine sound where
  encapsulate packet buf t fits good :=
    (behaves.encapsulate packet buf t fits good).imp_left carried_tunnResult
  decapsulate src datagram buf t held good :=
    (behaves.decapsulate (src.map (·.ip)) datagram buf t held good).imp_left carried_tunnResult
  initiateHandshake force buf t good :=
    (behaves.formatHandshakeInitiation force buf t good).imp_left carried_tunnResult
  tick buf t good := (behaves.updateTimers buf t good).imp_left carried_tunnResult
  stats := behaves.stats

theorem neptun_implements {tunn : NeptunTunn τ} (behaves : tunn.Behaves engine sound) :
    Implements (neptunBackend tunn) engine sound where
  encapsulate packet buf t fits good :=
    (behaves.encapsulate packet buf t fits good).imp_left carried_neptunResult
  decapsulate src datagram buf t held good :=
    (behaves.decapsulate (src.map (·.ip)) datagram buf t held good).imp_left carried_neptunResult
  initiateHandshake force buf t good :=
    (behaves.formatHandshakeInitiation force buf t good).imp_left carried_neptunResult
  tick buf t good := (behaves.updateTimers buf t good).imp_left carried_neptunResult
  stats := behaves.stats

end

theorem gotatun_implements (tunn : GotatunTunn κ τ) :
    Implements (gotatunBackend tunn) tunn.engine (fun _ => True) where
  encapsulate packet buf t _ _ := by
    refine ⟨?_, trivial⟩
    simp only [gotatunBackend, GotatunTunn.engine]
    rcases tunn.handleOutgoingPacket packet t with ⟨_ | kind, next⟩
    · exact carries_done buf next
    · exact carries_network _ buf next
  decapsulate src datagram buf t _ _ := by
    refine ⟨?_, trivial⟩
    simp only [gotatunBackend, GotatunTunn.engine]
    cases tunn.tryIntoWg datagram with
    | error e => exact carries_err _ buf t
    | ok kind =>
      simp only
      rcases tunn.handleIncomingPacket kind t with ⟨_ | e | kind | packet, next⟩
      · exact carries_done buf next
      · exact carries_err e buf next
      · exact carries_network _ buf next
      · exact carries_tunnel packet buf next
  initiateHandshake force buf t _ := by
    refine ⟨?_, trivial⟩
    simp only [gotatunBackend, GotatunTunn.engine]
    rcases tunn.formatHandshakeInitiation force t with ⟨_ | packet, next⟩
    · exact carries_done buf next
    · exact carries_network packet buf next
  tick buf t _ := by
    refine ⟨?_, trivial⟩
    simp only [gotatunBackend, GotatunTunn.engine]
    rcases tunn.updateTimers t with ⟨e | _ | kind, next⟩
    · exact carries_err e buf next
    · exact carries_done buf next
    · exact carries_network _ buf next
  stats _ := rfl

/-- An adapter of this repository and the engine it makes of its crate. -/
inductive Adapted : {τ : Type} → WgBackend τ → Engine τ → (τ → Prop) → Prop
  | boringtun {τ : Type} {tunn : Tunn τ} {engine : Engine τ} {sound : τ → Prop}
      (behaves : tunn.Behaves engine sound) : Adapted (boringtunBackend tunn) engine sound
  | neptun {τ : Type} {tunn : NeptunTunn τ} {engine : Engine τ} {sound : τ → Prop}
      (behaves : tunn.Behaves engine sound) : Adapted (neptunBackend tunn) engine sound
  | gotatun {κ τ : Type} (tunn : GotatunTunn κ τ) :
      Adapted (gotatunBackend tunn) tunn.engine (fun _ => True)

theorem Adapted.implements {backend : WgBackend τ} {engine : Engine τ} {sound : τ → Prop}
    (adapted : Adapted backend engine sound) : Implements backend engine sound := by
  cases adapted with
  | boringtun behaves => exact boringtun_implements behaves
  | neptun behaves => exact neptun_implements behaves
  | gotatun tunn => exact gotatun_implements tunn

/-! ## The loop over an engine -/

/-- A loop without its buffers. -/
structure Traffic (σ : Type) where
  engine : σ
  sent : List Sent
  broadcast : List TunnelStats
  running : Bool

def LoopState.traffic (s : LoopState σ) : Traffic σ := ⟨s.backend, s.sent, s.broadcast, s.running⟩

namespace Traffic

variable (endpoint : SocketAddr)

/-- A packet goes where it belongs. -/
def put (t : Traffic σ) (made : Option Packet × σ) : Traffic σ :=
  { t with engine := made.2, sent := t.sent ++ made.1.toList.map (Packet.sent endpoint) }

def networkOnly : Option Packet → Option Packet
  | some (.network bytes) => some (.network bytes)
  | some (.tunnel _) | none => none

/-- A packet for the device is dropped. -/
def toNetwork (t : Traffic σ) (made : Option Packet × σ) : Traffic σ :=
  t.put endpoint (networkOnly made.1, made.2)

variable (engine : Engine σ)

def start (state : σ) : Traffic σ :=
  toNetwork endpoint ⟨state, [], [], true⟩ (engine.handshake true state)

def step (t : Traffic σ) (event : LoopEvent) : Option (Traffic σ) :=
  if t.running then
    match event with
    | .tun packet =>
      if received packet = [] then some t
      else some (t.toNetwork endpoint (engine.outgoing (received packet) t.engine))
    | .udp datagram srcAddr =>
      some (t.put endpoint (engine.incoming (some srcAddr.ip) (received datagram) t.engine))
    | .tunFailed | .udpFailed => some t
    | .tick =>
      let t := t.toNetwork endpoint (engine.timers t.engine)
      some { t with broadcast := t.broadcast ++ [engine.stats t.engine] }
    | .shutdown => some { t with running := false }
  else none

end Traffic

section

variable {backend : WgBackend σ} {engine : Engine σ} {sound : σ → Prop} (endpoint : SocketAddr)

/-- A loop whose crate is in a sound state, and what is seen of it. -/
def Seen (sound : σ → Prop) (s : LoopState σ) (t : Traffic σ) : Prop :=
  s.traffic = t ∧ sound s.backend

/-- A write to the network from a buffer is one of the packet. -/
theorem sendToNetwork_traffic (s : LoopState σ) {outcome : PacketAction × Buffer × σ}
    {made : Option Packet × σ} (carries : Carries outcome made) :
    ∃ next, sendToNetwork endpoint s outcome = some next ∧
      next.traffic = s.traffic.toNetwork endpoint made := by
  obtain ⟨action, buf, next⟩ := outcome
  obtain ⟨packet, state⟩ := made
  obtain ⟨carried, same⟩ := carries
  obtain rfl : next = state := same
  cases action with
  | writeToNetwork len =>
    obtain ⟨bytes, cut, made⟩ := Option.map_eq_some_iff.mp carried
    obtain rfl : some (.network bytes) = packet := made
    simp only at cut
    simp [sendToNetwork, cut, send, LoopState.traffic, Traffic.toNetwork, Traffic.put,
      Traffic.networkOnly, Packet.sent]
  | writeToTun len =>
    obtain ⟨bytes, _, made⟩ := Option.map_eq_some_iff.mp carried
    obtain rfl : some (.tunnel bytes) = packet := made
    simp [sendToNetwork, LoopState.traffic, Traffic.toNetwork, Traffic.put, Traffic.networkOnly]
  | done | err =>
    obtain rfl : none = packet := Option.some.inj carried
    simp [sendToNetwork, LoopState.traffic, Traffic.toNetwork, Traffic.put, Traffic.networkOnly]

/-- The engine's state is the crate's, so what is seen of a loop tells whether it is sound. -/
theorem Seen.of_traffic {s : Option (LoopState σ)} {t : Traffic σ}
    (step : ∃ next, s = some next ∧ next.traffic = t) (good : sound t.engine) :
    Option.Rel (Seen sound) s (some t) := by
  obtain ⟨next, rfl, rfl⟩ := step
  exact .some ⟨rfl, good⟩

theorem Seen.tunBuf {s : LoopState σ} {t : Traffic σ} (seen : Seen sound s t) (tunBuf : Buffer) :
    Seen sound { s with tunBuf := tunBuf } t := seen

section

variable (implements : Implements backend engine sound) {s : LoopState σ} {t : Traffic σ}
  (seen : Seen sound s t)

include implements seen

theorem handleOutgoing_traffic {packet : Bytes} (fits : Fits packet) :
    Option.Rel (Seen sound) (handleOutgoing backend endpoint packet s)
      (some (t.toNetwork endpoint (engine.outgoing packet t.engine))) := by
  obtain ⟨rfl, good⟩ := seen
  obtain ⟨carries, later⟩ := implements.encapsulate packet s.wgBuf s.backend fits good
  exact Seen.of_traffic (sendToNetwork_traffic endpoint s carries) later

theorem handleIncoming_traffic {datagram : Bytes} (held : Held datagram) (srcAddr : SocketAddr) :
    Option.Rel (Seen sound) (handleIncoming backend endpoint datagram srcAddr s)
      (some (t.put endpoint (engine.incoming (some srcAddr.ip) datagram t.engine))) := by
  obtain ⟨rfl, good⟩ := seen
  obtain ⟨carries, later⟩ :=
    implements.decapsulate (some srcAddr) datagram s.tunBuf s.backend held good
  refine Seen.of_traffic ?_ later
  have view : s.traffic.engine = s.backend := rfl
  rw [handleIncoming, view]
  rw [Option.map_some] at carries
  generalize backend.decapsulate (some srcAddr) datagram s.tunBuf s.backend = outcome at carries
  generalize engine.incoming (some srcAddr.ip) datagram s.backend = made at carries
  obtain ⟨action, buf, next⟩ := outcome
  obtain ⟨packet, state⟩ := made
  obtain ⟨carried, same⟩ := carries
  obtain rfl : next = state := same
  cases action with
  | writeToNetwork len | writeToTun len =>
    obtain ⟨bytes, cut, made⟩ := Option.map_eq_some_iff.mp carried
    simp only at cut made
    subst made
    simp [cut, send, LoopState.traffic, Traffic.put, Packet.sent]
  | done | err =>
    obtain rfl : none = packet := Option.some.inj carried
    simp [LoopState.traffic, Traffic.put]

theorem tick_traffic :
    Option.Rel (Seen sound)
      ((sendToNetwork endpoint s (backend.tick s.wgBuf s.backend)).map fun s =>
        { s with broadcast := s.broadcast ++ [backend.stats s.backend] })
      (some { t.toNetwork endpoint (engine.timers t.engine) with
        broadcast := t.broadcast ++ [engine.stats (engine.timers t.engine).2] }) := by
  obtain ⟨rfl, good⟩ := seen
  obtain ⟨carries, later⟩ := implements.tick s.wgBuf s.backend good
  obtain ⟨next, wrote, same⟩ := sendToNetwork_traffic endpoint s carries
  refine Seen.of_traffic ⟨_, by rw [wrote, Option.map_some], ?_⟩ later
  have view : s.traffic.engine = s.backend := rfl
  simp only [view, ← same, implements.stats]
  have state : next.backend = (engine.timers s.backend).2 := congrArg Traffic.engine same
  have log : next.broadcast = s.broadcast := congrArg Traffic.broadcast same
  simp only [LoopState.traffic, state, log]

end

/-- What a run reads from the device. -/
def LoopEvent.Fits : LoopEvent → Prop
  | .tun packet => Tunnel.Fits packet
  | .udp _ _ | .tunFailed | .udpFailed | .tick | .shutdown => True

theorem LoopEvent.Fits.received {packet : Bytes} (fits : (LoopEvent.tun packet).Fits) :
    Tunnel.Fits (received packet) := by
  have shorter : (Tunnel.received packet).length ≤ packet.length := List.length_take_le' ..
  exact (Nat.add_le_add_right shorter 32).trans fits

/-- The buffers cannot be seen in a step of the loop. -/
theorem loopStep_traffic (implements : Implements backend engine sound) {event : LoopEvent}
    (fits : event.Fits) {s : LoopState σ} {t : Traffic σ} (seen : Seen sound s t) :
    Option.Rel (Seen sound) (loopStep backend endpoint s event)
      (Traffic.step endpoint engine t event) := by
  have view : t.running = s.running := congrArg Traffic.running seen.1.symm
  rw [loopStep.eq_def, Traffic.step.eq_def, view]
  by_cases running : s.running = true
  · rw [if_pos running, if_pos running]
    cases event with
    | tun packet =>
      have short := fits.received
      simp only
      generalize received packet = bytes at short ⊢
      generalize fill s.tunBuf bytes = tunBuf
      by_cases nothing : bytes = []
      · rw [if_pos nothing, if_pos nothing]
        exact .some (seen.tunBuf tunBuf)
      · rw [if_neg nothing, if_neg nothing]
        exact handleOutgoing_traffic endpoint implements (seen.tunBuf tunBuf) short
    | udp datagram srcAddr =>
      exact handleIncoming_traffic endpoint implements seen (held_received datagram) srcAddr
    | tick => exact tick_traffic endpoint implements seen
    | tunFailed | udpFailed => exact .some seen
    | shutdown =>
      obtain ⟨rfl, good⟩ := seen
      exact .some ⟨rfl, good⟩
  · rw [if_neg running, if_neg running]
    exact .none

theorem startLoop_traffic (implements : Implements backend engine sound) {state : σ}
    (good : sound state) :
    Option.Rel (Seen sound) (startLoop backend endpoint state)
      (some (Traffic.start endpoint engine state)) := by
  have begins : Traffic.start endpoint engine state =
    (LoopState.initial state).traffic.toNetwork endpoint (engine.handshake true state) := rfl
  have calls : startLoop backend endpoint state = sendToNetwork endpoint (LoopState.initial state)
    (backend.initiateHandshake true (LoopState.initial state).wgBuf state) := rfl
  rw [begins, calls]
  generalize LoopState.initial state = s
  obtain ⟨carries, later⟩ := implements.initiateHandshake true s.wgBuf state good
  exact Seen.of_traffic (sendToNetwork_traffic endpoint s carries) later

/-- The loop, from its first handshake on. -/
def packetLoop (backend : WgBackend σ) (state : σ) (events : List LoopEvent) :
    Option (LoopState σ) :=
  (startLoop backend endpoint state).bind (run (loopStep backend endpoint) events)

theorem packetLoop_traffic (implements : Implements backend engine sound) {state : σ}
    (good : sound state) {events : List LoopEvent} (fits : ∀ event ∈ events, event.Fits) :
    (packetLoop endpoint backend state events).map LoopState.traffic =
      run (Traffic.step endpoint engine) events (Traffic.start endpoint engine state) := by
  have begun := startLoop_traffic endpoint implements good
  rw [packetLoop]
  cases started : startLoop backend endpoint state with
  | none => rw [started] at begun; cases begun
  | some s =>
    rw [started] at begun
    cases begun with
    | some seen =>
      have together := run_related
        (fun event member _ _ now => loopStep_traffic endpoint implements (fits event member) now)
        seen
      rw [Option.bind_some]
      generalize run (loopStep backend endpoint) events s = last,
        run (Traffic.step endpoint engine) events _ = last' at together
      cases together with
      | none => rfl
      | some later => exact congrArg some later.1

/-- Over each adapter the loop puts to the device and to the network just what its crate hands out,
in that order, and never runs into a panic, as long as what it reads from the device leaves room for
the bytes that the crate adds. -/
theorem adapters_transparent (adapted : Adapted backend engine sound) (state : σ)
    (good : sound state) {events : List LoopEvent} (fits : ∀ event ∈ events, event.Fits) :
    (packetLoop endpoint backend state events).map LoopState.traffic =
      run (Traffic.step endpoint engine) events (Traffic.start endpoint engine state) :=
  packetLoop_traffic endpoint adapted.implements good fits

/-! ## One backend for another -/

/-- Two calls that hand out the same and leave states that belong together. -/
def Same (related : σ → τ → Prop) (made : Option Packet × σ) (other : Option Packet × τ) : Prop :=
  made.1 = other.1 ∧ related made.2 other.2

structure Alike (engine : Engine σ) (other : Engine τ) (related : σ → τ → Prop) : Prop where
  outgoing : ∀ packet s t, Fits packet → related s t →
    Same related (engine.outgoing packet s) (other.outgoing packet t)
  incoming : ∀ src datagram s t, Held datagram → related s t →
    Same related (engine.incoming src datagram s) (other.incoming src datagram t)
  handshake : ∀ force s t, related s t →
    Same related (engine.handshake force s) (other.handshake force t)
  timers : ∀ s t, related s t → Same related (engine.timers s) (other.timers t)
  stats : ∀ s t, related s t → engine.stats s = other.stats t

/-- What can be told of a loop from outside. -/
def Traffic.wire (t : Traffic σ) : List Sent × List TunnelStats × Bool :=
  (t.sent, t.broadcast, t.running)

/-- Two loops that nobody can tell apart. -/
def Traffic.Alike (related : σ → τ → Prop) (t : Traffic σ) (u : Traffic τ) : Prop :=
  t.wire = u.wire ∧ related t.engine u.engine

section

variable {related : σ → τ → Prop} {t : Traffic σ} {u : Traffic τ} {made : Option Packet × σ}
  {other : Option Packet × τ}

theorem Traffic.Alike.put (alike : Traffic.Alike related t u) (same : Same related made other) :
    Traffic.Alike related (t.put endpoint made) (u.put endpoint other) := by
  obtain ⟨wire, _⟩ := alike
  obtain ⟨packet, state⟩ := same
  simp only [Traffic.wire, Prod.mk.injEq] at wire
  obtain ⟨sent, broadcast, running⟩ := wire
  refine ⟨?_, state⟩
  simp only [Traffic.wire, Traffic.put, packet, sent, broadcast, running]

theorem Traffic.Alike.toNetwork (alike : Traffic.Alike related t u)
    (same : Same related made other) :
    Traffic.Alike related (t.toNetwork endpoint made) (u.toNetwork endpoint other) :=
  alike.put endpoint ⟨congrArg Traffic.networkOnly same.1, same.2⟩

/-- One step of both. -/
theorem Traffic.Alike.step {engine : Engine σ} {engine' : Engine τ}
    (engines : Tunnel.Alike engine engine' related) {event : LoopEvent} (fits : event.Fits)
    (alike : Traffic.Alike related t u) :
    Option.Rel (Traffic.Alike related) (Traffic.step endpoint engine t event)
      (Traffic.step endpoint engine' u event) := by
  have belong := alike.2
  have running : t.running = u.running := congrArg (·.2.2) alike.1
  rw [Traffic.step.eq_def, Traffic.step.eq_def, running]
  split
  · cases event with
    | tun packet =>
      simp only
      split
      · exact .some alike
      · exact .some (alike.toNetwork endpoint (engines.outgoing _ _ _ fits.received belong))
    | udp datagram srcAddr =>
      have same := engines.incoming (some srcAddr.ip) _ _ _ (held_received datagram) belong
      exact .some (alike.put endpoint same)
    | tunFailed | udpFailed => exact .some alike
    | tick =>
      obtain ⟨wire, later⟩ := alike.toNetwork endpoint (engines.timers _ _ belong)
      refine .some ⟨?_, later⟩
      simp only [Traffic.wire, Prod.mk.injEq] at wire ⊢
      obtain ⟨sent, broadcast, going⟩ := wire
      exact ⟨sent, by rw [broadcast, engines.stats _ _ later], going⟩
    | shutdown =>
      refine .some ⟨?_, belong⟩
      have wire := alike.1
      simp only [Traffic.wire, Prod.mk.injEq] at wire ⊢
      exact ⟨wire.1, wire.2.1, trivial⟩
  · exact .none

end

/-- Two crates that make the same of the same packets send the same, whatever adapters they are
behind and however differently these hand the packets over. -/
theorem backends_interchangeable {other : WgBackend τ} {engine' : Engine τ} {sound' : τ → Prop}
    {related : σ → τ → Prop} (adapted : Adapted backend engine sound)
    (instead : Adapted other engine' sound') (alike : Alike engine engine' related) {s : σ} {t : τ}
    (good : sound s) (good' : sound' t) (belong : related s t) {events : List LoopEvent}
    (fits : ∀ event ∈ events, event.Fits) :
    (packetLoop endpoint backend s events).map (·.traffic.wire) =
      (packetLoop endpoint other t events).map (·.traffic.wire) := by
  have begun : Traffic.Alike related (Traffic.start endpoint engine s)
      (Traffic.start endpoint engine' t) :=
    Traffic.Alike.toNetwork endpoint ⟨rfl, belong⟩ (alike.handshake true s t belong)
  have each (event : LoopEvent) (member : event ∈ events) (t : Traffic σ) (u : Traffic τ)
      (now : Traffic.Alike related t u) : Option.Rel (Traffic.Alike related)
        (Traffic.step endpoint engine t event) (Traffic.step endpoint engine' u event) :=
    now.step endpoint alike (fits event member)
  have together := run_related each begun
  have seen := packetLoop_traffic endpoint adapted.implements good fits
  have seen' := packetLoop_traffic endpoint instead.implements good' fits
  have wires : ((packetLoop endpoint backend s events).map LoopState.traffic).map Traffic.wire =
      ((packetLoop endpoint other t events).map LoopState.traffic).map Traffic.wire := by
    rw [seen, seen']
    generalize run (Traffic.step endpoint engine) events _ = last,
      run (Traffic.step endpoint engine') events _ = last' at together
    cases together with
    | none => rfl
    | some later => exact congrArg some later.1
  simpa only [Option.map_map, Function.comp_def] using wires

end

namespace AdapterSample

open QueueSample

/-- The crate of `QueueSample`, apart from its buffers. -/
def engine : Engine (List UInt8) where
  outgoing packet t := (none, t ++ packet.take 1)
  incoming _ datagram t :=
    match datagram, t with
    | [], [] => (none, [])
    | [], byte :: rest => (some (.network [byte]), rest)
    | _ :: _, t => (some (.network [4]), t)
  handshake _ t := (some (.network [1]), t)
  timers t := (none, t)
  stats _ := ⟨0, 0, none, 0, none⟩

theorem behaves : tunn.Behaves engine (fun _ => True) where
  encapsulate packet buf t _ _ := ⟨⟨rfl, rfl, by simp [engine]⟩, trivial⟩
  decapsulate src datagram buf t _ _ := by
    refine ⟨⟨?_, ?_, ?_⟩, trivial⟩
    · cases datagram <;> cases t <;> rfl
    · cases datagram <;> cases t <;> rfl
    · cases datagram <;> cases t <;> simp [tunn, engine, Packet.bytes, fill_prefix]
  formatHandshakeInitiation force buf t _ :=
    ⟨⟨rfl, rfl, by simp [tunn, engine, Packet.bytes, fill_prefix]⟩, trivial⟩
  updateTimers buf t _ := ⟨⟨rfl, rfl, by simp [engine]⟩, trivial⟩
  stats _ := rfl

/-- The same crate with packets of its own. -/
def owned : GotatunTunn Bytes (List UInt8) where
  tryIntoWg datagram := .ok datagram
  intoBytes kind := kind
  handleOutgoingPacket packet t := (none, t ++ packet.take 1)
  handleIncomingPacket kind t :=
    match kind, t with
    | [], [] => (.done, [])
    | [], byte :: rest => (.writeToNetwork [byte], rest)
    | _ :: _, t => (.writeToNetwork [4], t)
  formatHandshakeInitiation _ t := (some [1], t)
  updateTimers t := (.ok none, t)
  stats _ := ⟨0, 0, none, 0, none⟩

theorem alike : Alike engine owned.engine Eq where
  outgoing packet s t _ := by
    rintro rfl
    exact ⟨rfl, rfl⟩
  incoming src datagram s t _ := by
    rintro rfl
    cases datagram <;> cases s <;> exact ⟨rfl, rfl⟩
  handshake force s t := by
    rintro rfl
    exact ⟨rfl, rfl⟩
  timers s t := by
    rintro rfl
    exact ⟨rfl, rfl⟩
  stats _ _ _ := rfl

/-- A packet of the device waits, and the handshake is answered. -/
def events : List LoopEvent := [.tun [7], .udp [2] peer, .tick, .shutdown]

theorem fits : ∀ event ∈ events, event.Fits := by
  simp [events, LoopEvent.Fits, Tunnel.Fits, bufSize]

end AdapterSample

open AdapterSample QueueSample in
/-- What is sent is the handshake and the answer, both to the peer. -/
theorem adapters_transparent_queue :
    (packetLoop peer (boringtunBackend tunn) [] events).map (·.sent) =
      some [.udp [1] peer, .udp [4] peer] := by
  have seen := adapters_transparent peer (.boringtun behaves) [] trivial fits
  have sent := congrArg (Option.map Traffic.sent) seen
  rw [Option.map_map] at sent
  exact sent.trans (by decide)

open AdapterSample QueueSample in
theorem backends_interchangeable_queue :
    (packetLoop peer (boringtunBackend tunn) [] events).map (·.traffic.wire) =
      (packetLoop peer (gotatunBackend owned) [] events).map (·.traffic.wire) :=
  backends_interchangeable peer (.boringtun behaves) (.gotatun owned) alike trivial trivial rfl fits

end FerroWg.Tunnel
