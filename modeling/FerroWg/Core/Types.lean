import Mathlib.Data.String.Basic
import Std.Data.ExtTreeMap

/-!
# Configuration data

The types of `config/mod.rs`, `key.rs` and `error.rs`. A `BTreeMap` is Lean's extensional
tree map: two maps with the same entries are equal, and iteration is in key order.
-/

namespace FerroWg

abbrev BTreeMap (V : Type) := Std.ExtTreeMap String V

/-- An X25519 key is exactly 32 bytes. -/
abbrev KeyBytes := Vector UInt8 32

structure PrivateKey where
  bytes : KeyBytes
  deriving DecidableEq, Repr

structure PublicKey where
  bytes : KeyBytes
  deriving DecidableEq, Repr

structure PresharedKey where
  bytes : KeyBytes
  deriving DecidableEq, Repr

/-- `std::net::IpAddr`. -/
inductive IpAddr where
  | v4 (bits : BitVec 32)
  | v6 (bits : BitVec 128)
  deriving DecidableEq, Repr

structure InterfaceConfig where
  privateKey : PrivateKey
  listenPort : UInt16
  addresses : List String
  dns : List IpAddr
  dnsSearch : List String
  mtu : UInt16
  fwmark : UInt32
  preUp : List String
  postUp : List String
  preDown : List String
  postDown : List String
  deriving DecidableEq, Repr

structure PeerConfig where
  name : String
  publicKey : PublicKey
  presharedKey : Option PresharedKey
  endpoint : Option String
  allowedIps : List String
  persistentKeepalive : UInt16
  deriving DecidableEq, Repr

structure WgConfig where
  interface : InterfaceConfig
  peers : List PeerConfig
  deriving DecidableEq, Repr

structure LogDisplayConfig where
  showTimestamps : Bool
  colorBadges : Bool
  deriving DecidableEq, Repr

instance : Inhabited LogDisplayConfig := ⟨⟨true, true⟩⟩

structure AppConfig where
  connections : BTreeMap WgConfig
  logDisplay : LogDisplayConfig
  deriving DecidableEq

instance : Inhabited AppConfig := ⟨⟨∅, default⟩⟩

def AppConfig.get (c : AppConfig) (name : String) : Option WgConfig := c.connections[name]?

def AppConfig.connectionNames (c : AppConfig) : List String := c.connections.keys

def AppConfig.insert (c : AppConfig) (name : String) (config : WgConfig) : AppConfig :=
  { c with connections := c.connections.insert name config }

@[simp] theorem AppConfig.get_insert (c : AppConfig) (name other : String) (config : WgConfig) :
    (c.insert name config).get other = if other = name then some config else c.get other := by
  rw [get, insert, Std.ExtTreeMap.getElem?_insert]
  by_cases same : name = other
  · simp [same]
  · simp [same, Ne.symm same, get]

inductive KeyError where
  | invalidBase64 (reason : String)
  | invalidLength (expected actual : Nat)
  deriving DecidableEq, Repr

def KeyError.display : KeyError → String
  | .invalidBase64 reason => s!"invalid base64: {reason}"
  | .invalidLength expected actual => s!"expected {expected} bytes, got {actual}"

inductive ConfigError where
  | missingField (field : String)
  | invalidValue (field reason : String)
  | tomlParse (reason : String)
  | wgQuickParse (line : Nat) (reason : String)
  deriving DecidableEq, Repr

def ConfigError.display : ConfigError → String
  | .missingField field => s!"missing required field: {field}"
  | .invalidValue field reason => s!"invalid value for {field}: {reason}"
  | .tomlParse reason => s!"toml parse error: {reason}"
  | .wgQuickParse line reason => s!"wg-quick parse error at line {line}: {reason}"

end FerroWg
