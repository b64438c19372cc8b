import FerroWg.Core.Key
import Mathlib.Data.Finset.Image

/-!
# Editing a configuration

`config_edit.rs`: the fields of the form, their validators, how a field is shown and written
back, and the line diff of the preview.
-/

namespace FerroWg.Tui

open Lib

inductive ConfigSection where
  | interface
  | peer (i : Nat)
  deriving DecidableEq, Repr

inductive EditableField where
  | listenPort
  | addresses
  | dns
  | dnsSearch
  | mtu
  | fwmark
  | preUp
  | postUp
  | preDown
  | postDown
  | peerName
  | peerPublicKey
  | peerEndpoint
  | peerAllowedIps
  | peerPersistentKeepalive
  deriving DecidableEq, Repr

structure ConfigEditState where
  connectionName : String
  draft : WgConfig
  focusedSection : ConfigSection
  focusedFieldIdx : Nat
  editBuffer : Option String
  fieldError : Option String
  newPeerIndices : Finset Nat
  sessionError : Option String

inductive DiffLine where
  | removed (line : String)
  | added (line : String)
  | context (line : String)
  deriving DecidableEq, Repr

structure ConfigDiffPending where
  connectionName : String
  draft : WgConfig
  diffLines : List DiffLine
  scrollOffset : Nat

inductive ConfigEditError where
  | portTooHigh
  | portNotNumeric
  | invalidCidr (s : String)
  | invalidIp (s : String)
  | invalidDomain (s : String)
  | mtuOutOfRange
  | mtuNotNumeric
  | fwmarkNotNumeric
  | publicKeyLength
  | publicKeyInvalidBase64
  | endpointFormat
  | endpointHostEmpty
  | endpointPortNotNumeric
  | duplicateAllowedIp (s : String)
  | duplicateCidrInInput
  | keepaliveTooHigh
  | keepaliveNotNumeric
  deriving DecidableEq, Repr

def ConfigEditError.display : ConfigEditError → String
  | .portTooHigh => "Port must be <= 65535"
  | .portNotNumeric => "Port must be a number"
  | .invalidCidr s => s!"Invalid CIDR: {s}"
  | .invalidIp s => s!"Invalid IP address: {s}"
  | .invalidDomain s => s!"Invalid domain: {s}"
  | .mtuOutOfRange => "MTU must be 0 (auto) or 576-9000"
  | .mtuNotNumeric => "MTU must be a number"
  | .fwmarkNotNumeric => "Fwmark must be a number"
  | .publicKeyLength => "Public key must be 44 characters"
  | .publicKeyInvalidBase64 => "Invalid base64 public key"
  | .endpointFormat => "Endpoint must be host:port"
  | .endpointHostEmpty => "Host cannot be empty"
  | .endpointPortNotNumeric => "Port must be a number"
  | .duplicateAllowedIp s => s!"Duplicate allowed IP: {s}"
  | .duplicateCidrInInput => "Duplicate CIDR in input"
  | .keepaliveTooHigh => "Keepalive must be <= 65535"
  | .keepaliveNotNumeric => "Keepalive must be a number"

def interfaceFields : List EditableField :=
  [.listenPort, .addresses, .dns, .dnsSearch, .mtu, .fwmark, .preUp, .postUp, .preDown, .postDown]

def peerFieldsExisting : List EditableField :=
  [.peerName, .peerEndpoint, .peerAllowedIps, .peerPersistentKeepalive]

def peerFieldsNew : List EditableField := .peerPublicKey :: peerFieldsExisting

/-- Only a new peer's form has its public key. -/
def fieldsForSection (sect : ConfigSection) (isNewPeer : Bool) : List EditableField :=
  match sect with
  | .interface => interfaceFields
  | .peer _ => if isNewPeer then peerFieldsNew else peerFieldsExisting

/-- The trimmed tokens between commas that are not empty. -/
def parseCommaList (s : String) : List String :=
  ((Text.split ',' s).map Text.trim).filter (· ≠ "")

/-- A number of at most 16 bits; the empty text stands for zero. -/
def validateU16 (notNumeric tooHigh : ConfigEditError) (s : String) :
    Except ConfigEditError Unit :=
  if s = "" then .ok ()
  else match Text.parseU32 s with
    | .error _ => .error notNumeric
    | .ok n => if 65535 < n.toNat then .error tooHigh else .ok ()

def validatePort : String → Except ConfigEditError Unit :=
  validateU16 .portNotNumeric .portTooHigh

def validatePersistentKeepalive : String → Except ConfigEditError Unit :=
  validateU16 .keepaliveNotNumeric .keepaliveTooHigh

/-- Blank parts are passed over; the first of the others that does not pass is reported. -/
def validateParts (ok : String → Bool) (report : String → ConfigEditError) :
    List String → Except ConfigEditError Unit
  | [] => .ok ()
  | part :: parts =>
    let token := Text.trim part
    if token = "" then validateParts ok report parts
    else if !ok token then .error (report token)
    else validateParts ok report parts

def validateTokens (ok : String → Bool) (report : String → ConfigEditError) (s : String) :
    Except ConfigEditError Unit :=
  if s = "" then .ok () else validateParts ok report (Text.split ',' s)

def validateMtu (s : String) : Except ConfigEditError Unit :=
  if s = "" then .ok ()
  else match Text.parseU16 s with
    | .error _ => .error .mtuNotNumeric
    | .ok mtu =>
      if mtu = 0 ∨ (576 ≤ mtu ∧ mtu ≤ 9000) then .ok () else .error .mtuOutOfRange

def validateFwmark (s : String) : Except ConfigEditError Unit :=
  if s = "" then .ok ()
  else match Text.parseU32 s with
    | .error _ => .error .fwmarkNotNumeric
    | .ok _ => .ok ()

def validateEndpoint (s : String) : Except ConfigEditError Unit :=
  if s = "" then .ok ()
  else match Text.split ':' s with
    | [host, port] =>
      if host = "" then .error .endpointHostEmpty
      else match Text.parseU16 port with
        | .error _ => .error .endpointPortNotNumeric
        | .ok _ => .ok ()
    | _ => .error .endpointFormat

variable [Externals]

def isValidCidr (cidr : String) : Bool :=
  match Text.split '/' cidr with
  | [ip, bits] =>
    match Externals.parseIp ip, Text.parseU8 bits with
    | some (.v4 _), .ok p => p ≤ 32
    | some (.v6 _), .ok p => p ≤ 128
    | _, _ => false
  | _ => false

def isValidDomain (domain : String) : Bool :=
  let chars := domain.toList
  domain != "" &&
    chars.all (fun c => Externals.isAlphanumeric c || c == '.' || c == '-') &&
    chars.head?.any Externals.isAlphanumeric && chars.getLast?.any Externals.isAlphanumeric

def validateAddresses : String → Except ConfigEditError Unit :=
  validateTokens isValidCidr .invalidCidr

def validateDnsIps : String → Except ConfigEditError Unit :=
  validateTokens (fun ip => (Externals.parseIp ip).isSome) .invalidIp

def validateDnsSearch : String → Except ConfigEditError Unit :=
  validateTokens isValidDomain .invalidDomain

/-- The text is not trimmed here, and its length is in bytes. -/
def validatePublicKey (s : String) : Except ConfigEditError Unit :=
  if s.utf8ByteSize ≠ 44 then .error .publicKeyLength
  else match Externals.base64Decode s with
    | .error _ => .error .publicKeyInvalidBase64
    | .ok decoded => if decoded.length ≠ 32 then .error .publicKeyInvalidBase64 else .ok ()

def checkCidrs (others : List String) (seen : List String) :
    List String → Except ConfigEditError Unit
  | [] => .ok ()
  | part :: parts =>
    let cidr := Text.trim part
    if cidr = "" then checkCidrs others seen parts
    else if !isValidCidr cidr then .error (.invalidCidr cidr)
    else if cidr ∈ others then .error (.duplicateAllowedIp cidr)
    else if cidr ∈ seen then .error .duplicateCidrInInput
    else checkCidrs others (cidr :: seen) parts

def validateAllowedIps (s : String) (otherPeersAllowedIps : List String) :
    Except ConfigEditError Unit :=
  if s = "" then .ok () else checkCidrs otherPeersAllowedIps [] (Text.split ',' s)

/-- The allowed IPs of every peer but the one in focus. -/
def otherAllowedIps (draft : WgConfig) (sect : ConfigSection) : List String :=
  (draft.peers.zipIdx.filter fun (_, i) => sect != .peer i).flatMap fun (p, _) => p.allowedIps

def validateField (field : EditableField) (value : String) (draft : WgConfig)
    (sect : ConfigSection) : Except ConfigEditError Unit :=
  match field with
  | .listenPort => validatePort value
  | .addresses => validateAddresses value
  | .dns => validateDnsIps value
  | .dnsSearch => validateDnsSearch value
  | .mtu => validateMtu value
  | .fwmark => validateFwmark value
  | .preUp | .postUp | .preDown | .postDown | .peerName => .ok ()
  | .peerPublicKey => validatePublicKey value
  | .peerEndpoint => validateEndpoint value
  | .peerAllowedIps => validateAllowedIps value (otherAllowedIps draft sect)
  | .peerPersistentKeepalive => validatePersistentKeepalive value

def numberText (n : Nat) : String := if n = 0 then "" else toString n

def joinComma (l : List String) : String := ", ".intercalate l

def peerText (sect : ConfigSection) (config : WgConfig) (show' : PeerConfig → String) : String :=
  match sect with
  | .interface => ""
  | .peer i => (config.peers[i]?.map show').getD ""

def fieldCurrentValue (field : EditableField) (sect : ConfigSection) (config : WgConfig) :
    String :=
  let iface := config.interface
  match field with
  | .listenPort => numberText iface.listenPort.toNat
  | .addresses => joinComma iface.addresses
  | .dns => joinComma (iface.dns.map Externals.showIp)
  | .dnsSearch => joinComma iface.dnsSearch
  | .mtu => numberText iface.mtu.toNat
  | .fwmark => numberText iface.fwmark.toNat
  | .preUp => joinComma iface.preUp
  | .postUp => joinComma iface.postUp
  | .preDown => joinComma iface.preDown
  | .postDown => joinComma iface.postDown
  | .peerName => peerText sect config fun p => p.name
  | .peerPublicKey => peerText sect config fun p => p.publicKey.toBase64
  | .peerEndpoint => peerText sect config fun p => p.endpoint.getD ""
  | .peerAllowedIps => peerText sect config fun p => joinComma p.allowedIps
  | .peerPersistentKeepalive =>
    peerText sect config fun p => numberText p.persistentKeepalive.toNat

/-- Lines are compared at equal positions: an insertion shifts all that follow it. -/
def diffLines : List String → List String → List DiffLine
  | old :: olds, new :: news =>
    if old = new then .context old :: diffLines olds news
    else .removed old :: .added new :: diffLines olds news
  | olds, [] => olds.map .removed
  | [], news => news.map .added

def configDiff (oldToml newToml : String) : List DiffLine :=
  diffLines (Text.lines oldToml) (Text.lines newToml)

/-- A peer field of the interface section, or of a peer that is not there, changes nothing. -/
def modifyPeer (draft : WgConfig) (sect : ConfigSection) (f : PeerConfig → PeerConfig) :
    WgConfig :=
  match sect with
  | .interface => draft
  | .peer i => { draft with peers := draft.peers.modify i f }

def modifyInterface (draft : WgConfig) (f : InterfaceConfig → InterfaceConfig) : WgConfig :=
  { draft with interface := f draft.interface }

def parseOrZero {N : Type} [OfNat N 0] (parsed : Except Text.IntError N) : N :=
  parsed.toOption.getD 0

/-- The public key is written by the caller. -/
def applyField (field : EditableField) (value : String) (draft : WgConfig)
    (sect : ConfigSection) : WgConfig :=
  match field with
  | .listenPort =>
    modifyInterface draft fun i => { i with listenPort := parseOrZero (Text.parseU16 value) }
  | .addresses => modifyInterface draft fun i => { i with addresses := parseCommaList value }
  | .dns =>
    modifyInterface draft fun i =>
      { i with
        dns := (((Text.split ',' value).map Text.trim).filter (· ≠ "")).filterMap Externals.parseIp }
  | .dnsSearch => modifyInterface draft fun i => { i with dnsSearch := parseCommaList value }
  | .mtu => modifyInterface draft fun i => { i with mtu := parseOrZero (Text.parseU16 value) }
  | .fwmark => modifyInterface draft fun i => { i with fwmark := parseOrZero (Text.parseU32 value) }
  | .preUp => modifyInterface draft fun i => { i with preUp := parseCommaList value }
  | .postUp => modifyInterface draft fun i => { i with postUp := parseCommaList value }
  | .preDown => modifyInterface draft fun i => { i with preDown := parseCommaList value }
  | .postDown => modifyInterface draft fun i => { i with postDown := parseCommaList value }
  | .peerName => modifyPeer draft sect fun p => { p with name := value }
  | .peerPublicKey => draft
  | .peerEndpoint =>
    modifyPeer draft sect fun p => { p with endpoint := if value = "" then none else some value }
  | .peerAllowedIps => modifyPeer draft sect fun p => { p with allowedIps := parseCommaList value }
  | .peerPersistentKeepalive =>
    modifyPeer draft sect fun p =>
      { p with persistentKeepalive := parseOrZero (Text.parseU16 value) }

end FerroWg.Tui
