import FerroWg.Core.Config
import FerroWg.Core.Key
import Mathlib.Data.List.Forall2

/-!
# The `wg-quick` format

`config/wg_quick.rs`: an INI file read line by line into builders, then built and validated,
and the writer of the same format.
-/

namespace FerroWg

open Lib

inductive Section where
  | none
  | interface
  | peer
  deriving DecidableEq, Repr

structure InterfaceBuilder where
  privateKey : Option PrivateKey := none
  listenPort : UInt16 := 0
  addresses : List String := []
  dns : List IpAddr := []
  dnsSearch : List String := []
  mtu : UInt16 := 0
  fwmark : UInt32 := 0
  preUp : List String := []
  postUp : List String := []
  preDown : List String := []
  postDown : List String := []

structure PeerBuilder where
  name : String := ""
  publicKey : Option PublicKey := none
  presharedKey : Option PresharedKey := none
  endpoint : Option String := none
  allowedIps : List String := []
  persistentKeepalive : UInt16 := 0

def InterfaceBuilder.build (b : InterfaceBuilder) : Except ConfigError InterfaceConfig :=
  match b.privateKey with
  | none => .error (.missingField "PrivateKey")
  | some privateKey => .ok {
      privateKey, listenPort := b.listenPort, addresses := b.addresses, dns := b.dns
      dnsSearch := b.dnsSearch, mtu := b.mtu, fwmark := b.fwmark, preUp := b.preUp
      postUp := b.postUp, preDown := b.preDown, postDown := b.postDown }

def PeerBuilder.build (b : PeerBuilder) : Except ConfigError PeerConfig :=
  match b.publicKey with
  | none => .error (.missingField "PublicKey")
  | some publicKey => .ok {
      name := b.name, publicKey, presharedKey := b.presharedKey, endpoint := b.endpoint
      allowedIps := b.allowedIps, persistentKeepalive := b.persistentKeepalive }

theorem PeerBuilder.build_name {b : PeerBuilder} {p : PeerConfig} (built : b.build = .ok p) :
    p.name = b.name := by
  rw [PeerBuilder.build] at built
  split at built
  · cases built
  · cases built; rfl

variable [Externals]

/-- What the loop over the lines carries. A peer section has a peer to fill. -/
structure ParseState where
  sect : Section := .none
  interface : InterfaceBuilder := {}
  peers : List PeerBuilder := []
  filled : sect = .peer → peers ≠ [] := by decide

def splitKv (line : String) (num : Nat) : Except ConfigError (String × String) :=
  match Text.splitOnce '=' line with
  | none => .error (.wgQuickParse num s!"expected 'Key = Value', got: {line}")
  | some (key, value) => .ok (Text.trim key, Text.trim value)

def keyField {K : Type} (decode : String → Except KeyError K) (label value : String) (num : Nat) :
    Except ConfigError K :=
  (decode value).mapError fun e => .wgQuickParse num s!"{label}: {e.display}"

def intField {N : Type} (parse : String → Except Text.IntError N) (label value : String)
    (num : Nat) : Except ConfigError N :=
  (parse value).mapError fun e => .wgQuickParse num s!"{label}: {e.display}"

def pushDns (b : InterfaceBuilder) (token : String) : InterfaceBuilder :=
  let token := Text.trim token
  if token = "" then b
  else match Externals.parseIp token with
    | some ip => { b with dns := b.dns ++ [ip] }
    | none => { b with dnsSearch := b.dnsSearch ++ [token] }

def parseInterfaceKv (b : InterfaceBuilder) (key value : String) (num : Nat) :
    Except ConfigError InterfaceBuilder :=
  match Text.toAsciiLowercase key with
  | "privatekey" => do
    let k ← keyField PrivateKey.fromBase64 "PrivateKey" value num
    return { b with privateKey := some k }
  | "listenport" => do
    let n ← intField Text.parseU16 "ListenPort" value num
    return { b with listenPort := n }
  | "address" =>
    .ok { b with addresses := b.addresses ++ (Text.split ',' value).map Text.trim }
  | "dns" => .ok ((Text.split ',' value).foldl pushDns b)
  | "mtu" => do
    let n ← intField Text.parseU16 "MTU" value num
    return { b with mtu := n }
  | "fwmark" => do
    let n ← intField Text.parseU32 "FwMark" value num
    return { b with fwmark := n }
  | "preup" => .ok { b with preUp := b.preUp ++ [value] }
  | "postup" => .ok { b with postUp := b.postUp ++ [value] }
  | "predown" => .ok { b with preDown := b.preDown ++ [value] }
  | "postdown" => .ok { b with postDown := b.postDown ++ [value] }
  | _ => .error (.wgQuickParse num s!"unknown Interface key: {key}")

def parsePeerKv (b : PeerBuilder) (key value : String) (num : Nat) :
    Except ConfigError PeerBuilder :=
  match Text.toAsciiLowercase key with
  | "publickey" => do
    let k ← keyField PublicKey.fromBase64 "PublicKey" value num
    return { b with publicKey := some k }
  | "presharedkey" => do
    let k ← keyField PresharedKey.fromBase64 "PresharedKey" value num
    return { b with presharedKey := some k }
  | "endpoint" => .ok { b with endpoint := some value }
  | "allowedips" =>
    .ok { b with allowedIps := b.allowedIps ++ (Text.split ',' value).map Text.trim }
  | "persistentkeepalive" => do
    let n ← intField Text.parseU16 "PersistentKeepalive" value num
    return { b with persistentKeepalive := n }
  | _ => .error (.wgQuickParse num s!"unknown Peer key: {key}")

def parseKv (st : ParseState) (key value : String) (num : Nat) : Except ConfigError ParseState :=
  match inside : st.sect with
  | .none => .error (.wgQuickParse num "key-value pair outside of a section")
  | .interface => do
    let b ← parseInterfaceKv st.interface key value num
    return { st with interface := b }
  | .peer => do
    let b ← parsePeerKv (st.peers.getLast (st.filled inside)) key value num
    return { st with peers := st.peers.dropLast ++ [b], filled := by simp }

/-- The body of the loop; `num` counts lines from one. -/
def parseLine (st : ParseState) (raw : String) (num : Nat) : Except ConfigError ParseState :=
  let line := Text.trim raw
  if line = "" ∨ Text.startsWith '#' line ∨ Text.startsWith ';' line then .ok st
  else if Text.eqIgnoreAsciiCase line "[interface]" then
    .ok { st with sect := .interface, filled := by simp }
  else if Text.eqIgnoreAsciiCase line "[peer]" then
    .ok { st with sect := .peer, peers := st.peers ++ [({} : PeerBuilder)], filled := by simp }
  else do
    let (key, value) ← splitKv line num
    parseKv st key value num

def loadFromStr (input : String) : Except ConfigError WgConfig := do
  let st ← (Text.lines input).zipIdx.foldlM (fun st (raw, i) => parseLine st raw (i + 1)) {}
  let interface ← st.interface.build
  let peers ← st.peers.mapM PeerBuilder.build
  let config : WgConfig := ⟨interface, peers⟩
  config.validate
  return config

def numberLine (label : String) (n : Nat) : String :=
  if n = 0 then "" else s!"{label} = {n}\n"

def exportPeer (p : PeerConfig) : String :=
  "\n[Peer]\n" ++
  (if p.name = "" then "" else s!"# Name = {p.name}\n") ++
  s!"PublicKey = {p.publicKey.toBase64}\n" ++
  (p.presharedKey.elim "" fun psk => s!"PresharedKey = {psk.toBase64}\n") ++
  (p.endpoint.elim "" fun ep => s!"Endpoint = {ep}\n") ++
  (if p.allowedIps = [] then "" else "AllowedIPs = " ++ ", ".intercalate p.allowedIps ++ "\n") ++
  numberLine "PersistentKeepalive" p.persistentKeepalive.toNat

/-- The firewall mark is not written. -/
def exportToString (config : WgConfig) : String :=
  let i := config.interface
  let each (label : String) (values : List String) : String :=
    String.join (values.map fun v => s!"{label} = {v}\n")
  "[Interface]\n" ++
  s!"PrivateKey = {i.privateKey.toBase64}\n" ++
  numberLine "ListenPort" i.listenPort.toNat ++
  each "Address" i.addresses ++
  (if i.dns = [] ∧ i.dnsSearch = [] then ""
    else "DNS = " ++ ", ".intercalate (i.dns.map Externals.showIp ++ i.dnsSearch) ++ "\n") ++
  numberLine "MTU" i.mtu.toNat ++
  each "PreUp" i.preUp ++ each "PostUp" i.postUp ++
  each "PreDown" i.preDown ++ each "PostDown" i.postDown ++
  String.join (config.peers.map exportPeer)

/-- A peer's name in this format is a comment, so no builder ever has one. -/
def ParseState.Unnamed (st : ParseState) : Prop := ∀ b ∈ st.peers, b.name = ""

theorem parsePeerKv_name {b next : PeerBuilder} {key value : String} {num : Nat}
    (parsed : parsePeerKv b key value num = .ok next) : next.name = b.name := by
  rw [parsePeerKv] at parsed
  split at parsed <;>
    simp only [bind_eq_ok, pure, Except.pure, Except.ok.injEq, reduceCtorEq] at parsed
  case h_3 | h_4 => rw [← parsed]
  all_goals
    obtain ⟨_, _, rfl⟩ := parsed
    rfl

/-- What a pair can do to the peers: nothing, or fill the last. -/
theorem parseKv_peers {st next : ParseState} {key value : String} {num : Nat}
    (parsed : parseKv st key value num = .ok next) :
    next.peers = st.peers ∨
      ∃ h b, parsePeerKv (st.peers.getLast h) key value num = .ok b ∧
        next.peers = st.peers.dropLast ++ [b] := by
  rw [parseKv] at parsed
  split at parsed
  · cases parsed
  · obtain ⟨_, _, whole⟩ := bind_eq_ok.mp parsed
    cases whole
    exact .inl rfl
  · obtain ⟨b, read, whole⟩ := bind_eq_ok.mp parsed
    cases whole
    exact .inr ⟨_, b, read, rfl⟩

/-- A line can also open a new peer. -/
theorem parseLine_peers {st next : ParseState} {raw : String} {num : Nat}
    (parsed : parseLine st raw num = .ok next) :
    next.peers = st.peers ∨ next.peers = st.peers ++ [({} : PeerBuilder)] ∨
      ∃ h b key value, parsePeerKv (st.peers.getLast h) key value num = .ok b ∧
        next.peers = st.peers.dropLast ++ [b] := by
  simp only [parseLine] at parsed
  split_ifs at parsed
  · cases parsed; exact .inl rfl
  · cases parsed; exact .inl rfl
  · cases parsed; exact .inr (.inl rfl)
  · obtain ⟨⟨key, value⟩, _, filled⟩ := bind_eq_ok.mp parsed
    rcases parseKv_peers filled with same | ⟨nonempty, b, read, same⟩
    · exact .inl same
    · exact .inr (.inr ⟨nonempty, b, key, value, read, same⟩)

theorem parseLine_unnamed {st next : ParseState} {raw : String} {num : Nat}
    (unnamed : st.Unnamed) (parsed : parseLine st raw num = .ok next) : next.Unnamed := by
  intro b member
  rcases parseLine_peers parsed with same | opened | ⟨nonempty, filled, _, _, read, same⟩
  · exact unnamed b (same ▸ member)
  · obtain old | rfl : b ∈ st.peers ∨ b = {} := by simpa [opened] using member
    · exact unnamed b old
    · rfl
  · obtain old | rfl : b ∈ st.peers.dropLast ∨ b = filled := by simpa [same] using member
    · exact unnamed b (List.dropLast_subset _ old)
    · rw [parsePeerKv_name read]
      exact unnamed _ (List.getLast_mem nonempty)

/-- What is read is well formed, and its peers have no names. -/
theorem loadFromStr_ok {input : String} {config : WgConfig}
    (read : loadFromStr input = .ok config) :
    config.validate = .ok () ∧ ∀ peer ∈ config.peers, peer.name = "" := by
  rw [loadFromStr] at read
  obtain ⟨st, parsed, read⟩ := bind_eq_ok.mp read
  obtain ⟨interface, _, read⟩ := bind_eq_ok.mp read
  obtain ⟨peers, built, read⟩ := bind_eq_ok.mp read
  obtain ⟨valid, whole⟩ := then_eq_ok.mp read
  cases whole
  refine ⟨valid, fun peer (member : peer ∈ peers) => ?_⟩
  have unnamed : st.Unnamed :=
    foldlM_invariant (fun _ _ _ before line => parseLine_unnamed before line)
      (by intro b none; cases none) parsed
  obtain ⟨i, bound, rfl⟩ := List.mem_iff_getElem.mp member
  obtain ⟨lengths, each⟩ := List.forall₂_iff_get.mp (mapM_eq_ok.mp built)
  have same := PeerBuilder.build_name (each i (lengths ▸ bound) bound)
  exact same.trans (unnamed _ (List.getElem_mem _))

end FerroWg
