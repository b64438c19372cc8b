import FerroWg.Core.Externals
import FerroWg.Lib.Checks

/-!
# Validation of configurations

`validate_name`, `WgConfig::validate` and `AppConfig::validate`, which every load runs and
no save does.
-/

namespace FerroWg

open Lib

variable [Externals]

def maxNameLen : Nat := 64

def isNameChar (c : Char) : Bool :=
  ('a' ≤ c && c ≤ 'z') || ('A' ≤ c && c ≤ 'Z') || ('0' ≤ c && c ≤ '9') || c == '-' || c == '_'

/-- The length is counted in bytes, whatever the message says. -/
def validateName (field name : String) : Except ConfigError Unit :=
  if name = "" then .error (.invalidValue field "name must not be empty")
  else if maxNameLen < name.utf8ByteSize then
    .error (.invalidValue field
      s!"name {Externals.debugStr name} is {name.utf8ByteSize} characters; maximum is {maxNameLen}")
  else
    match name.toList.find? (fun c => !isNameChar c) with
    | some bad => .error (.invalidValue field (s!"name {Externals.debugStr name} contains invalid " ++
        s!"character {Externals.debugChar bad}; " ++
        "only ASCII alphanumerics, hyphens, and underscores are allowed"))
    | none => .ok ()

/-- What `validate_name` accepts, without its messages. -/
structure ValidName (name : String) : Prop where
  nonempty : name ≠ ""
  short : name.utf8ByteSize ≤ maxNameLen
  chars : ∀ c ∈ name.toList, isNameChar c = true

theorem validateName_ok_iff (field name : String) :
    validateName field name = .ok () ↔ ValidName name := by
  rw [validateName]
  by_cases empty : name = ""
  · simp only [empty, ↓reduceIte, reduceCtorEq, false_iff]
    exact fun valid => valid.nonempty rfl
  by_cases long : maxNameLen < name.utf8ByteSize
  · simp only [empty, long, ↓reduceIte, reduceCtorEq, false_iff]
    exact fun valid => Nat.not_lt.mpr valid.short long
  simp only [empty, long, ↓reduceIte]
  cases found : name.toList.find? (fun c => !isNameChar c) with
  | none =>
    simp only [List.find?_eq_none, Bool.not_eq_true', Bool.not_eq_false] at found
    exact ⟨fun _ => ⟨empty, Nat.not_lt.mp long, found⟩, fun _ => rfl⟩
  | some bad =>
    simp only [reduceCtorEq, false_iff]
    intro valid
    have rejected : isNameChar bad = false := by simpa using List.find?_some found
    have accepted := valid.chars bad (List.mem_of_find?_eq_some found)
    simp [rejected] at accepted

instance (name : String) : Decidable (ValidName name) :=
  decidable_of_iff (name ≠ "" ∧ name.utf8ByteSize ≤ maxNameLen ∧
      name.toList.all isNameChar = true)
    ⟨fun h => ⟨h.1, h.2.1, List.all_eq_true.mp h.2.2⟩,
      fun h => ⟨h.nonempty, h.short, List.all_eq_true.mpr h.chars⟩⟩

/-- The body of the loop over the peers. -/
def validatePeer (i : Nat) (peer : PeerConfig) : Except ConfigError Unit := do
  if peer.name ≠ "" then
    (validateName "peer.name" peer.name).mapError fun e =>
      .invalidValue "peer.name" s!"peer {i}: {e.display}"
  if peer.allowedIps = [] then
    .error (.invalidValue "allowed_ips" s!"peer {i} has no allowed IPs")

def WgConfig.validate (c : WgConfig) : Except ConfigError Unit :=
  if c.peers = [] then .error (.missingField "peers")
  else forM c.peers.zipIdx fun (peer, i) => validatePeer i peer

/-- A peer may go without a name, but not without allowed IPs. -/
structure ValidPeer (peer : PeerConfig) : Prop where
  name : peer.name = "" ∨ ValidName peer.name
  allowedIps : peer.allowedIps ≠ []

theorem validatePeer_ok_iff (i : Nat) (peer : PeerConfig) :
    validatePeer i peer = .ok () ↔ ValidPeer peer := by
  have spec : ValidPeer peer ↔
      (peer.name = "" ∨ ValidName peer.name) ∧ peer.allowedIps ≠ [] :=
    ⟨fun h => ⟨h.name, h.allowedIps⟩, fun h => ⟨h.1, h.2⟩⟩
  rw [spec]
  rw [validatePeer]
  by_cases unnamed : peer.name = "" <;> by_cases nothing : peer.allowedIps = [] <;>
    simp [unnamed, nothing, then_eq_ok, mapError_eq_ok, validateName_ok_iff, pure, Except.pure]

theorem WgConfig.validate_ok_iff (c : WgConfig) :
    c.validate = .ok () ↔ c.peers ≠ [] ∧ ∀ peer ∈ c.peers, ValidPeer peer := by
  rw [WgConfig.validate]
  by_cases none : c.peers = []
  · simp [none]
  · simp only [none, ↓reduceIte, ne_eq, not_false_eq_true, true_and]
    apply forM_eq_ok.trans
    simp only [Prod.forall, validatePeer_ok_iff]
    constructor
    · intro h peer member
      obtain ⟨i, bound, rfl⟩ := List.mem_iff_getElem.mp member
      exact h _ i (List.mem_zipIdx_iff_getElem?.mpr (by simp [bound]))
    · intro h peer i member
      exact h peer (List.fst_mem_of_mem_zipIdx member)

def AppConfig.validate (c : AppConfig) : Except ConfigError Unit :=
  if c.connections.isEmpty then .error (.missingField "connections")
  else forM c.connections.toList fun (name, conn) => do
    (validateName "connection name" name).mapError fun e =>
      .invalidValue "connection name" s!"{name}: {e.display}"
    conn.validate.mapError fun e => .invalidValue "connections" s!"{name}: {e.display}"

/-- Every connection passes its checks; there may be none. -/
def AppConfig.EntriesValid (c : AppConfig) : Prop :=
  ∀ name conn, c.get name = some conn → ValidName name ∧ conn.validate = .ok ()

theorem AppConfig.validate_ok_iff (c : AppConfig) :
    c.validate = .ok () ↔ c.connections ≠ ∅ ∧ c.EntriesValid := by
  rw [AppConfig.validate]
  by_cases none : c.connections = ∅
  · simp [none]
  · have nonempty : c.connections.isEmpty = false := by
      simpa [Std.ExtTreeMap.isEmpty_eq_false_iff] using none
    simp only [nonempty, Bool.false_eq_true, ↓reduceIte, ne_eq, none, not_false_eq_true, true_and]
    apply forM_eq_ok.trans
    simp only [Prod.forall, then_eq_ok, mapError_eq_ok, validateName_ok_iff,
      Std.ExtTreeMap.mem_toList_iff_getElem?_eq_some, AppConfig.EntriesValid, AppConfig.get]

theorem AppConfig.entriesValid_default : (default : AppConfig).EntriesValid := by
  intro name conn found
  have absent : (default : AppConfig).get name = none := Std.ExtTreeMap.getElem?_empty
  simp [absent] at found

/-- Adding a connection to valid ones is a matter of the new one alone. -/
theorem AppConfig.validate_insert_iff {c : AppConfig} (valid : c.EntriesValid)
    (name : String) (conn : WgConfig) :
    (c.insert name conn).validate = .ok () ↔ ValidName name ∧ conn.validate = .ok () := by
  have nonempty : (c.insert name conn).connections ≠ ∅ := Std.ExtTreeMap.insert_ne_empty
  rw [validate_ok_iff]
  constructor
  · exact fun h => h.2 name conn (by simp)
  · rintro ⟨goodName, good⟩
    refine ⟨nonempty, fun other conn' found => ?_⟩
    rw [get_insert] at found
    split at found
    · cases found; subst_vars; exact ⟨goodName, good⟩
    · exact valid other conn' found

end FerroWg
