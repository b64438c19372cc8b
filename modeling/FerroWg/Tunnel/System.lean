import FerroWg.Core.Ipc
import FerroWg.Lib.Frame
import FerroWg.Lib.Text

/-!
# The system a tunnel is set up in

Interfaces, routes and name resolution, as far as the commands of `route.rs` and `dns.rs` read
and change them. What a command answers comes from outside; a failed command changes nothing.
-/

namespace FerroWg.Tunnel

open Lib

inductive WgError where
  | tunnel (reason : String)
  | backendUnavailable (backend : String)
  deriving DecidableEq, Repr

/-- A command runs to a successful end, ends with a failure, or does not start. -/
inductive Answer where
  | done
  | failed (stderr : String)
  | notRun (e : String)
  deriving DecidableEq, Repr

/-- What `resolvectl` keeps for an interface. -/
structure LinkDns where
  servers : List String
  domains : List String
  deriving DecidableEq, Repr

structure System where
  /-- The addresses of every interface there is. -/
  interfaces : String → Option (List String)
  /-- From the CIDR to the interface. -/
  routes : String → Option String
  /-- The two DNS settings of each network service, as `networksetup` lists them. -/
  servers : String → List String
  searchDomains : String → List String
  resolvConf : String
  links : String → LinkDns

abbrev Os (ε : Type) := EStateM ε System

namespace System

/-- Routes lead through interfaces that exist, and only those have settings of their own. -/
structure WellFormed (s : System) : Prop where
  routed : ∀ cidr iface, s.routes cidr = some iface → (s.interfaces iface).isSome
  linked : ∀ iface, s.interfaces iface = none → s.links iface = ⟨[], []⟩

def createInterface (iface : String) (s : System) : System :=
  { s with interfaces := Function.update s.interfaces iface (some []) }

/-- Dropping the handle of a TUN device takes with it all that refers to the interface. -/
def dropInterface (iface : String) (s : System) : System :=
  { s with
    interfaces := Function.update s.interfaces iface none
    routes := fun cidr => if s.routes cidr = some iface then none else s.routes cidr
    links := Function.update s.links iface ⟨[], []⟩ }

def addAddress (iface addr : String) (s : System) : System :=
  let addresses := (s.interfaces iface).map (· ++ [addr])
  { s with interfaces := Function.update s.interfaces iface addresses }

end System

def System.network (s : System) :
    (String → Option (List String)) × (String → Option String) × (String → LinkDns) :=
  (s.interfaces, s.routes, s.links)

/-- `ifconfig {iface} inet {addr} {addr} up`, without the netmask. -/
def setInterfaceAddr (answer : Answer) (iface addrCidr : String) : Os WgError Unit :=
  let addr := (Text.split '/' addrCidr).headD addrCidr
  match answer with
  | .done => modify (·.addAddress iface addr)
  | .failed stderr => throw (.tunnel s!"ifconfig {iface} inet {addr} failed: {stderr}")
  | .notRun e => throw (.tunnel s!"ifconfig exec failed: {e}")

/-- `route -n add -net {cidr} -interface {iface}`: a route that exists is not replaced, and that
it exists is no failure. -/
def addRoute (answer : Answer) (cidr iface : String) : Os WgError Unit :=
  match answer with
  | .done => modify fun s =>
    { s with routes := Function.update s.routes cidr (some ((s.routes cidr).getD iface)) }
  | .failed stderr =>
    if Text.contains "File exists" stderr then pure ()
    else throw (.tunnel s!"route add {cidr} via {iface} failed: {stderr}")
  | .notRun e => throw (.tunnel s!"route exec failed: {e}")

/-- `route -n delete -net {cidr}`, whatever interface the route leads through. -/
def removeRoute (answer : Answer) (cidr : String) : Os WgError Unit :=
  match answer with
  | .done => modify fun s => { s with routes := Function.update s.routes cidr none }
  | .failed stderr =>
    if Text.contains "not in table" stderr then pure ()
    else throw (.tunnel s!"route delete {cidr} failed: {stderr}")
  | .notRun e => throw (.tunnel s!"route exec failed: {e}")

namespace System

theorem dropInterface_createInterface {s : System} (wellFormed : s.WellFormed) {iface : String}
    (fresh : s.interfaces iface = none) : (s.createInterface iface).dropInterface iface = s := by
  have routes (cidr : String) : s.routes cidr ≠ some iface := fun through => by
    have there := wellFormed.routed cidr iface through
    rw [fresh] at there
    cases there
  have links : Function.update s.links iface ⟨[], []⟩ = s.links := by
    rw [← wellFormed.linked iface fresh, Function.update_eq_self]
  simp [createInterface, dropInterface, routes, links, ← fresh]

theorem WellFormed.congr {s t : System} (wellFormed : s.WellFormed)
    (same : t.network = s.network) : t.WellFormed := by
  obtain ⟨interfaces, routes, links⟩ : t.interfaces = s.interfaces ∧ t.routes = s.routes ∧
      t.links = s.links := by simpa [System.network] using same
  exact ⟨by rw [interfaces, routes]; exact wellFormed.routed,
    by rw [interfaces, links]; exact wellFormed.linked⟩

theorem WellFormed.dropInterface {s : System} (wellFormed : s.WellFormed) (tun : String) :
    (s.dropInterface tun).WellFormed where
  routed cidr iface through := by
    simp only [System.dropInterface] at through ⊢
    split at through
    · cases through
    · rename_i other
      have apart : iface ≠ tun := fun same => other (same ▸ through)
      rw [Function.update_of_ne apart]
      exact wellFormed.routed cidr iface through
  linked iface missing := by
    simp only [System.dropInterface] at missing ⊢
    by_cases same : iface = tun
    · rw [same, Function.update_self]
    · rw [Function.update_of_ne same] at missing ⊢
      exact wellFormed.linked iface missing

end System

/-- Once the interface is gone, so is what was done to it. -/
theorem setInterfaceAddr_dropInterface (answer : Answer) (iface addr : String) :
    Leaves (·.dropInterface iface) (setInterfaceAddr answer iface addr) := by
  cases answer with
  | done => exact .modify fun s => by simp [System.addAddress, System.dropInterface]
  | failed | notRun => exact .throw _

theorem addRoute_dropInterface (answer : Answer) (cidr iface : String) :
    Leaves (·.dropInterface iface) (addRoute answer cidr iface) := by
  cases answer with
  | done =>
    refine .modify fun s => ?_
    simp only [System.dropInterface]
    congr 1
    funext other
    by_cases same : other = cidr
    · subst same
      cases there : s.routes other <;> simp
    · simp [Function.update_of_ne same]
  | failed stderr =>
    simp only [addRoute]
    split
    · exact .pure _
    · exact .throw _
  | notRun => exact .throw _

/-- An interface that is there stays there. -/
theorem setInterfaceAddr_exists (answer : Answer) (iface addr other : String) :
    Leaves (fun s => (s.interfaces other).isSome) (setInterfaceAddr answer iface addr) := by
  cases answer with
  | done =>
    refine .modify fun s => ?_
    by_cases same : other = iface
    · simp [System.addAddress, same]
    · simp [System.addAddress, same]
  | failed | notRun => exact .throw _

theorem addRoute_exists (answer : Answer) (cidr iface other : String) :
    Leaves (fun s => (s.interfaces other).isSome) (addRoute answer cidr iface) := by
  cases answer with
  | done => exact .modify fun _ => rfl
  | failed stderr =>
    simp only [addRoute]
    split
    · exact .pure _
    · exact .throw _
  | notRun => exact .throw _

end FerroWg.Tunnel
