import FerroWg.Core.Externals
import FerroWg.Lib.Undo
import FerroWg.Tunnel.System

/-!
# Name resolution

`dns.rs` on the platforms it knows: `apply` takes down what it is about to change, and `revert`
writes that back. The tool that is called decides which settings these are.
-/

namespace FerroWg.Tunnel

open Lib Lib.Undo

inductive DnsError where
  | io (e : String)
  | networkSetup (message : String)
  | resolvectl (message : String)
  | serviceDetection (message : String)
  deriving DecidableEq, Repr

inductive Platform where
  | macos
  | linux
  | other
  deriving DecidableEq, Repr

/-- The teardown token. Each field of `service` is there when the setting was changed. -/
inductive DnsState where
  | service (name : String) (dns : Option (List IpAddr)) (search : Option (List String))
  | resolved (iface : String)
  | resolvConf (backup : String)
  deriving DecidableEq, Repr

/-- What the commands behind `apply` and `revert` answer. -/
structure DnsAnswers where
  detect : Except DnsError String
  getServers : Answer
  setServers : Answer
  getSearch : Answer
  setSearch : Answer
  resolvectl : Bool
  linkDns : Answer
  linkDomain : Answer
  readConf : Answer
  writeConf : Answer

def command (failure : String → DnsError) : Answer → Os DnsError Unit
  | .done => pure ()
  | .failed stderr => throw (failure stderr)
  | .notRun e => throw (.io e)

/-- An access to a file; it either works or is an I/O error. -/
def access : Answer → Os DnsError Unit
  | .done => pure ()
  | .failed e | .notRun e => throw (.io e)

namespace System

def setServers (service : String) (value : List String) (s : System) : System :=
  { s with servers := Function.update s.servers service value }

def setSearch (service : String) (value : List String) (s : System) : System :=
  { s with searchDomains := Function.update s.searchDomains service value }

def setResolvConf (contents : String) (s : System) : System := { s with resolvConf := contents }

def setLink (iface : String) (f : LinkDns → LinkDns) (s : System) : System :=
  { s with links := Function.update s.links iface (f (s.links iface)) }

end System

section

variable [Externals]

/-- Each line that is an address; the sentence printed in place of an empty list is none. -/
def parseNetworksetupDns (lines : List String) : List IpAddr :=
  lines.filterMap fun l => Externals.parseIp (Text.trim l)

def noSearchDomains : String := "there aren't any search domains"

def parseNetworksetupSearch (lines : List String) : List String :=
  (lines.map Text.trim).filter fun l =>
    l ≠ "" && !noSearchDomains.toList.isPrefixOf (Text.toAsciiLowercase l).toList

/-- Takes down one setting of the service and sets it, if there are values for it. -/
def changeSetting {α β : Type} (values : List α) (name : String) (get set : Answer)
    (prior : System → β) (write : System → System) : Os DnsError (Option β) :=
  if values.isEmpty then pure none
  else do
    command (fun stderr => .networkSetup s!"-{name} failed: {Text.trim stderr}") get
    let prior := prior (← MonadState.get)
    command .networkSetup set
    modify write
    pure (some prior)

def changeServers (a : DnsAnswers) (service : String) (servers : List IpAddr) :
    Os DnsError (Option (List IpAddr)) :=
  changeSetting servers "getdnsservers" a.getServers a.setServers
    (fun s => parseNetworksetupDns (s.servers service))
    (·.setServers service (servers.map Externals.showIp))

def changeSearch (a : DnsAnswers) (service : String) (search : List String) :
    Os DnsError (Option (List String)) :=
  changeSetting search "getsearchdomains" a.getSearch a.setSearch
    (fun s => parseNetworksetupSearch (s.searchDomains service))
    (·.setSearch service search)

/-- The name that the default route and the list of services lead to. -/
def detectPrimaryService (a : DnsAnswers) : Os DnsError String :=
  match a.detect with
  | .ok service => pure service
  | .error e => throw e

def applyService (a : DnsAnswers) (servers : List IpAddr) (search : List String) :
    Os DnsError DnsState := do
  let service ← detectPrimaryService a
  let priorDns ← changeServers a service servers
  let priorSearch ← changeSearch a service search
  pure (.service service priorDns priorSearch)

def setLinkServers (a : DnsAnswers) (iface : String) (servers : List IpAddr) : Os DnsError Unit :=
  if servers.isEmpty then pure ()
  else do
    command .resolvectl a.linkDns
    modify (·.setLink iface fun link => { link with servers := servers.map Externals.showIp })

/-- The domain `~.` sends every query to the servers of the interface. -/
def setLinkDomains (a : DnsAnswers) (iface : String) (servers : List IpAddr)
    (search : List String) : Os DnsError Unit :=
  if servers.isEmpty && search.isEmpty then pure ()
  else do
    command .resolvectl a.linkDomain
    let domains := (if servers.isEmpty then [] else ["~."]) ++ search
    modify (·.setLink iface fun link => { link with domains := domains })

def applyResolvectl (a : DnsAnswers) (iface : String) (servers : List IpAddr)
    (search : List String) : Os DnsError Unit := do
  setLinkServers a iface servers
  setLinkDomains a iface servers search

/-- The lines put before the old contents. -/
def resolvConfLines (servers : List IpAddr) (search : List String) : String :=
  String.join (servers.map fun ip => s!"nameserver {Externals.showIp ip}\n") ++
    if search.isEmpty then "" else "search " ++ " ".intercalate search ++ "\n"

def applyResolvConf (a : DnsAnswers) (servers : List IpAddr) (search : List String) :
    Os DnsError String := do
  access a.readConf
  let backup := (← get).resolvConf
  access a.writeConf
  modify (·.setResolvConf (resolvConfLines servers search ++ backup))
  pure backup

def tryResolvectl (a : DnsAnswers) (iface : String) (servers : List IpAddr)
    (search : List String) : Os DnsError Bool :=
  if a.resolvectl then passOver ((fun _ => true) <$> applyResolvectl a iface servers search) false
  else pure false

/-- Without `resolvectl`, and where it fails, the file is edited. -/
def applyLinux (a : DnsAnswers) (iface : String) (servers : List IpAddr) (search : List String) :
    Os DnsError DnsState := do
  if ← tryResolvectl a iface servers search then pure (.resolved iface)
  else .resolvConf <$> applyResolvConf a servers search

def applyDns (platform : Platform) (a : DnsAnswers) (iface : String) (servers : List IpAddr)
    (search : List String) : Os DnsError (Option DnsState) :=
  if servers.isEmpty && search.isEmpty then pure none
  else match platform with
    | .macos => some <$> applyService a servers search
    | .linux => some <$> applyLinux a iface servers search
    | .other => pure none

/-- Writes back what was taken down of one setting of a service. -/
def restoreSetting {α : Type} (prior : Option α) (set : Answer) (write : α → System → System) :
    Os DnsError Unit :=
  match prior with
  | none => pure ()
  | some prior => do
    command .networkSetup set
    modify (write prior)

def removeDns (a : DnsAnswers) : DnsState → Os DnsError Unit
  | .service name dns search => do
    restoreSetting dns a.setServers fun prior => (·.setServers name (prior.map Externals.showIp))
    restoreSetting search a.setSearch fun prior => (·.setSearch name prior)
  | .resolved iface => do
    command .resolvectl a.linkDns
    modify (·.setLink iface fun _ => ⟨[], []⟩)
  | .resolvConf backup => do
    access a.writeConf
    modify (·.setResolvConf backup)

/-! ## The settings it reaches -/

/-- A setting that outlives the interface it is made for. -/
inductive Setting where
  | servers (service : String)
  | search (service : String)
  | resolvConf
  deriving DecidableEq, Repr

namespace Setting

/-- The file has one entry, its contents. -/
def get : Setting → System → List String
  | .servers service, s => s.servers service
  | .search service, s => s.searchDomains service
  | .resolvConf, s => [s.resolvConf]

/-- What comes back of a value that was taken down. -/
def read : Setting → List String → List String
  | .servers _, lines => (parseNetworksetupDns lines).map Externals.showIp
  | .search _, lines => parseNetworksetupSearch lines
  | .resolvConf, contents => contents

end Setting

/-- What the token would write back. -/
def DnsState.saved : DnsState → Setting → Option (List String)
  | .service name dns _, .servers other =>
    if name = other then dns.map fun prior => prior.map Externals.showIp else none
  | .service name _ search, .search other => if name = other then search else none
  | .resolvConf backup, .resolvConf => some [backup]
  | _, _ => none

/-- `resolvectl` is there and does not fail. -/
def DnsAnswers.LinkWorks (a : DnsAnswers) (servers : List IpAddr) : Prop :=
  a.resolvectl ∧ (servers = [] ∨ a.linkDns = .done) ∧ a.linkDomain = .done

instance (a : DnsAnswers) (servers : List IpAddr) : Decidable (a.LinkWorks servers) :=
  inferInstanceAs (Decidable (_ ∧ _ ∧ _))

/-- The change of each setting that `apply` makes, given what the commands answer. -/
def dnsChange (platform : Platform) (a : DnsAnswers) (servers : List IpAddr)
    (search : List String) : Setting → Option (List String → List String)
  | .servers service =>
    if platform = .macos ∧ a.detect.toOption = some service ∧
        servers ≠ [] ∧ a.getServers = .done ∧ a.setServers = .done
    then some fun _ => servers.map Externals.showIp else none
  | .search service =>
    if platform = .macos ∧ a.detect.toOption = some service ∧
        (servers = [] ∨ a.getServers = .done ∧ a.setServers = .done) ∧
        search ≠ [] ∧ a.getSearch = .done ∧ a.setSearch = .done
    then some fun _ => search else none
  | .resolvConf =>
    if platform = .linux ∧ (servers ≠ [] ∨ search ≠ []) ∧ ¬ a.LinkWorks servers ∧
        a.readConf = .done ∧ a.writeConf = .done
    then some (List.map (resolvConfLines servers search ++ ·)) else none

/-- The answers with which `apply` ends with a token. -/
def HoldsDns (platform : Platform) (a : DnsAnswers) (servers : List IpAddr) (search : List String) :
    Prop :=
  (servers ≠ [] ∨ search ≠ []) ∧
    match platform with
    | .macos => a.detect.isOk ∧ (servers = [] ∨ a.getServers = .done ∧ a.setServers = .done) ∧
        (search = [] ∨ a.getSearch = .done ∧ a.setSearch = .done)
    | .linux => a.LinkWorks servers ∨ a.readConf = .done ∧ a.writeConf = .done
    | .other => False

/-- A computation that changes the settings in a given way, with a token for what it found. -/
structure Changes (change : Setting → Option (List String → List String)) (held : Prop)
    (x : Os DnsError (Option DnsState)) (s : System) : Prop where
  settings : ∀ k, k.get (after x s) = applied (change k) (k.get s)
  saved : ∀ st t, x.run s = .ok (some st) t →
    ∀ k, st.saved k = (change k).map fun _ => k.read (k.get s)
  held : (∃ st t, x.run s = .ok (some st) t) ↔ held

variable {change : Setting → Option (List String → List String)} {held : Prop}
  {x : Os DnsError (Option DnsState)} {s t : System}

theorem Changes.of_error {e : DnsError} (ran : x.run s = .error e t)
    (changed : ∀ k, k.get t = applied (change k) (k.get s)) (lost : ¬ held) :
    Changes change held x s := by
  refine ⟨by rwa [after_of_error ran], fun st t ok => ?_, iff_of_false ?_ lost⟩
  · rw [ran] at ok; cases ok
  · rintro ⟨st, t, ok⟩
    rw [ran] at ok; cases ok

theorem Changes.of_some {st : DnsState} (ran : x.run s = .ok (some st) t)
    (changed : ∀ k, k.get t = applied (change k) (k.get s) ∧
      st.saved k = (change k).map fun _ => k.read (k.get s)) (got : held) :
    Changes change held x s := by
  refine ⟨fun k => by rw [after_of_ok ran, (changed k).1], fun st t ok => ?_,
    iff_of_true ⟨st, t, ran⟩ got⟩
  rw [ran] at ok; cases ok
  exact fun k => (changed k).2

omit [Externals] in
theorem isEmpty_eq_false {servers : List IpAddr} {search : List String} :
    (servers.isEmpty && search.isEmpty) = false ↔ servers ≠ [] ∨ search ≠ [] := by
  rw [Bool.and_eq_false_iff]
  simp

omit [Externals] in
theorem changeSetting_cases {α β : Type} (values : List α) (name : String) (get set : Answer)
    (prior : System → β) (write : System → System) (s : System) :
    (values = [] ∧ (changeSetting values name get set prior write).run s = .ok none s) ∨
    ((values ≠ [] ∧ get = .done ∧ set = .done) ∧
      (changeSetting values name get set prior write).run s = .ok (some (prior s)) (write s)) ∨
    ((values ≠ [] ∧ ¬ (get = .done ∧ set = .done)) ∧
      ∃ e, (changeSetting values name get set prior write).run s = .error e s) := by
  rw [changeSetting]
  cases values with
  | nil => exact .inl ⟨rfl, rfl⟩
  | cons v rest =>
    cases get with
    | done =>
      cases set with
      | done => exact .inr (.inl ⟨by simp, rfl⟩)
      | failed | notRun => exact .inr (.inr ⟨by simp, _, rfl⟩)
    | failed | notRun => exact .inr (.inr ⟨by simp, _, rfl⟩)

/-- The two settings one after the other, once the service is known. -/
theorem applyService_run {a : DnsAnswers} {service : String} (detected : a.detect = .ok service)
    (servers : List IpAddr) (search : List String) (s : System) :
    (some <$> applyService a servers search).run s =
      match (changeServers a service servers).run s with
      | .error e s => .error e s
      | .ok dns s =>
        match (changeSearch a service search).run s with
        | .error e s => .error e s
        | .ok search s => .ok (some (.service service dns search)) s := by
  simp only [applyService, detectPrimaryService, detected, pure_bind, map_bind, map_pure, EStateM.run_bind]
  cases first : (changeServers a service servers).run s with
  | error e t => rfl
  | ok dns t =>
    simp only
    cases second : (changeSearch a service search).run t <;> rfl

theorem applyService_changes (a : DnsAnswers) {servers : List IpAddr} {search : List String}
    (any : servers ≠ [] ∨ search ≠ []) (s : System) :
    Changes (dnsChange .macos a servers search) (HoldsDns .macos a servers search)
      (some <$> applyService a servers search) s := by
  cases detected : a.detect with
  | error e =>
    have ran : (some <$> applyService a servers search).run s = .error e s := by
      rw [applyService, detectPrimaryService]
      rw [detected]
      rfl
    refine .of_error ran (fun k => ?_) (by simp [HoldsDns, detected, Except.isOk, Except.toBool])
    cases k <;> simp [dnsChange, detected, applied, Except.toOption]
  | ok service =>
    have ran := applyService_run detected servers search s
    have found : a.detect.toOption = some service := by rw [detected]; rfl
    rcases changeSetting_cases servers "getdnsservers" a.getServers a.setServers
      (fun s => parseNetworksetupDns (s.servers service))
      (·.setServers service (servers.map Externals.showIp)) s with
        ⟨given, first⟩ | ⟨given, first⟩ | ⟨given, e, first⟩
    case inr.inr =>
      rw [changeServers, first] at ran
      refine .of_error ran (fun k => ?_) (by simp [HoldsDns, given.1, given.2])
      cases k <;> simp [dnsChange, applied, given.1, given.2]
    all_goals
      rw [changeServers, first] at ran
      simp only at ran
      rcases changeSetting_cases search "getsearchdomains" a.getSearch a.setSearch
        (fun s => parseNetworksetupSearch (s.searchDomains service))
        (·.setSearch service search) _ with
          ⟨given', second⟩ | ⟨given', second⟩ | ⟨given', e, second⟩ <;>
        rw [changeSearch, second] at ran <;> simp only at ran
    -- Neither setting, each alone and both, and a failure at the second.
    case inl.inr.inr | inr.inl.inr.inr =>
      refine .of_error ran (fun k => ?_) (by simp [HoldsDns, given'.1, given'.2])
      clear ran first second detected
      rcases k with svc | svc | _
      case resolvConf => simp [dnsChange, applied, Setting.get, System.setServers]
      all_goals
        rcases eq_or_ne svc service with rfl | other
        · simp [dnsChange, applied, Setting.get, System.setServers, found, given, given']
        · simp [dnsChange, applied, Setting.get, System.setServers, found, given, other, other.symm]
    all_goals
      refine .of_some ran (fun k => ?_)
        (by simp_all [HoldsDns, Except.isOk, Except.toBool])
      clear ran first second detected
      rcases k with svc | svc | _
      case resolvConf =>
        simp [dnsChange, applied, DnsState.saved, Setting.get, System.setSearch, System.setServers]
      all_goals
        rcases eq_or_ne svc service with rfl | other
        · simp [dnsChange, applied, DnsState.saved, Setting.get, Setting.read, System.setSearch,
            System.setServers, found, given, given']
        · simp [dnsChange, applied, DnsState.saved, Setting.get, System.setSearch,
            System.setServers, found, other, other.symm]

omit [Externals] in
theorem command_decided (failure : String → DnsError) (answer : Answer) :
    Decided (answer = .done) (command failure answer) := by
  cases answer with
  | done => exact (Decided.pure _).congr (by simp)
  | failed | notRun => exact (Decided.throw _).congr (by simp)

omit [Externals] in
theorem command_leaves {β : Type} (view : System → β) (failure : String → DnsError)
    (answer : Answer) : Leaves view (command failure answer) := by
  cases answer with
  | done => exact .pure _
  | failed | notRun => exact .throw _

/-- The settings of a link are its own. -/
theorem applyResolvectl_leaves {β : Type} {view : System → β} {iface : String}
    (blind : ∀ f s, view (s.setLink iface f) = view s) (a : DnsAnswers) (servers : List IpAddr)
    (search : List String) : Leaves view (applyResolvectl a iface servers search) := by
  have set (f : LinkDns → LinkDns) :
      Leaves view (modify (·.setLink iface f) : Os DnsError PUnit) := .modify (blind f)
  refine Leaves.bind ?_ fun _ => ?_
  · rw [setLinkServers]
    split
    · exact .pure _
    · exact (command_leaves view _ _).bind fun _ => set _
  · rw [setLinkDomains]
    split
    · exact .pure _
    · exact (command_leaves view _ _).bind fun _ => set _

theorem setLinkServers_decided (a : DnsAnswers) (iface : String) (servers : List IpAddr) :
    Decided (servers = [] ∨ a.linkDns = .done) (setLinkServers a iface servers) := by
  rw [setLinkServers]
  cases servers with
  | nil => exact (Decided.pure _).congr (by simp)
  | cons v rest =>
    exact ((command_decided .resolvectl a.linkDns).bind fun _ => .modify _).congr (by simp)

omit [Externals] in
theorem setLinkDomains_decided (a : DnsAnswers) (iface : String) {servers : List IpAddr}
    {search : List String} (given : (servers.isEmpty && search.isEmpty) = false) :
    Decided (a.linkDomain = .done) (setLinkDomains a iface servers search) := by
  rw [setLinkDomains]
  rw [given]
  exact ((command_decided .resolvectl a.linkDomain).bind fun _ => .modify _).congr (by simp)

/-- With something to set, the call ends well when each command it needs does. -/
theorem applyResolvectl_decided (a : DnsAnswers) (iface : String) {servers : List IpAddr}
    {search : List String} (given : (servers.isEmpty && search.isEmpty) = false) :
    Decided ((servers = [] ∨ a.linkDns = .done) ∧ a.linkDomain = .done)
      (applyResolvectl a iface servers search) :=
  (setLinkServers_decided a iface servers).bind fun _ => setLinkDomains_decided a iface given

theorem applyResolvConf_changes (a : DnsAnswers) (servers : List IpAddr) (search : List String)
    (s : System) :
    (a.readConf = .done ∧ a.writeConf = .done ∧
      (applyResolvConf a servers search).run s =
        .ok s.resolvConf (s.setResolvConf (resolvConfLines servers search ++ s.resolvConf))) ∨
    (¬ (a.readConf = .done ∧ a.writeConf = .done) ∧
      ∃ e, (applyResolvConf a servers search).run s = .error e s) := by
  rw [applyResolvConf]
  cases a.readConf with
  | done =>
    cases a.writeConf with
    | done => exact .inl ⟨rfl, rfl, rfl⟩
    | failed | notRun => exact .inr ⟨by simp, _, rfl⟩
  | failed | notRun => exact .inr ⟨by simp, _, rfl⟩

omit [Externals] in
theorem Setting.get_setLink (k : Setting) (iface : String) (f : LinkDns → LinkDns) (s : System) :
    k.get (s.setLink iface f) = k.get s := by
  cases k <;> rfl

/-- The system once `resolvectl` was tried. -/
def afterResolvectl (a : DnsAnswers) (iface : String) (servers : List IpAddr)
    (search : List String) (s : System) : System :=
  if a.resolvectl then after (applyResolvectl a iface servers search) s else s

theorem afterResolvectl_settings (a : DnsAnswers) (iface : String) (servers : List IpAddr)
    (search : List String) (s : System) (k : Setting) :
    k.get (afterResolvectl a iface servers search s) = k.get s := by
  rw [afterResolvectl]
  split
  · exact applyResolvectl_leaves (k.get_setLink iface) a servers search s
  · rfl

theorem tryResolvectl_run (a : DnsAnswers) (iface : String) (servers : List IpAddr)
    (search : List String) (s : System) :
    (tryResolvectl a iface servers search).run s =
      if a.resolvectl then match (applyResolvectl a iface servers search).run s with
        | .ok _ t => .ok true t
        | .error _ t => .ok false t
      else .ok false s := by
  rw [tryResolvectl]
  cases a.resolvectl with
  | false => rfl
  | true =>
    rw [if_pos rfl, if_pos rfl, run_passOver, run_map]
    cases (applyResolvectl a iface servers search).run s <;> rfl

/-- What is left to `/etc/resolv.conf` when `resolvectl` did not do it. -/
theorem applyLinux_run (a : DnsAnswers) (iface : String) {servers : List IpAddr}
    {search : List String} (given : (servers.isEmpty && search.isEmpty) = false) (s : System) :
    (a.LinkWorks servers ∧ (some <$> applyLinux a iface servers search).run s =
      .ok (some (.resolved iface)) (afterResolvectl a iface servers search s)) ∨
    (¬ a.LinkWorks servers ∧ (some <$> applyLinux a iface servers search).run s =
      ((fun backup => some (.resolvConf backup)) <$> applyResolvConf a servers search).run
        (afterResolvectl a iface servers search s)) := by
  have tried := tryResolvectl_run a iface servers search s
  rw [DnsAnswers.LinkWorks, afterResolvectl]
  cases available : a.resolvectl with
  | false =>
    rw [available, if_neg Bool.false_ne_true] at tried
    refine .inr ⟨by simp, ?_⟩
    rw [run_map, run_map, applyLinux, EStateM.run_bind, tried]
    simp only [Bool.false_eq_true, if_false, run_map]
    cases (applyResolvConf a servers search).run s <;> rfl
  | true =>
    rw [available, if_pos rfl] at tried
    rcases applyResolvectl_decided a iface given s with ⟨works, _, t, ran⟩ | ⟨fails, e, t, ran⟩
    · rw [ran] at tried
      refine .inl ⟨⟨rfl, works⟩, ?_⟩
      rw [run_map, applyLinux, EStateM.run_bind, tried, if_pos rfl, after_of_ok ran]
      rfl
    · rw [ran] at tried
      refine .inr ⟨fun both => fails both.2, ?_⟩
      rw [run_map, run_map, applyLinux, EStateM.run_bind, tried, if_pos rfl, after_of_error ran]
      simp only [Bool.false_eq_true, if_false, run_map]
      cases (applyResolvConf a servers search).run t <;> rfl

theorem applyLinux_changes (a : DnsAnswers) (iface : String) {servers : List IpAddr}
    {search : List String} (any : servers ≠ [] ∨ search ≠ []) (s : System) :
    Changes (dnsChange .linux a servers search) (HoldsDns .linux a servers search)
      (some <$> applyLinux a iface servers search) s := by
  have kept := afterResolvectl_settings a iface servers search s
  rcases applyLinux_run a iface (isEmpty_eq_false.mpr any) s with ⟨works, ran⟩ | ⟨broken, ran⟩
  · refine .of_some ran (fun k => ?_) ⟨any, .inl works⟩
    cases k <;> simp [dnsChange, applied, DnsState.saved, works, kept]
  · have contents : (afterResolvectl a iface servers search s).resolvConf = s.resolvConf := by
      simpa [Setting.get] using kept .resolvConf
    rcases applyResolvConf_changes a servers search (afterResolvectl a iface servers search s) with
      ⟨read, write, edited⟩ | ⟨failed, e, edited⟩ <;>
      rw [run_map _ (applyResolvConf a servers search), edited] at ran
    · refine .of_some ran (fun k => ?_) ⟨any, .inr ⟨read, write⟩⟩
      cases k with
      | resolvConf =>
        simp [dnsChange, applied, DnsState.saved, Setting.get, Setting.read, System.setResolvConf,
          broken, any, read, write, contents]
      | servers service =>
        have kept := kept (.servers service)
        simpa [dnsChange, applied, DnsState.saved, Setting.get, System.setResolvConf] using kept
      | search service =>
        have kept := kept (.search service)
        simpa [dnsChange, applied, DnsState.saved, Setting.get, System.setResolvConf] using kept
    · refine .of_error ran (fun k => ?_) fun held => held.2.elim broken failed
      cases k <;> simp [dnsChange, applied, failed, kept]

theorem applyDns_changes (platform : Platform) (a : DnsAnswers) (iface : String)
    (servers : List IpAddr) (search : List String) (s : System) :
    Changes (dnsChange platform a servers search) (HoldsDns platform a servers search)
      (applyDns platform a iface servers search) s := by
  have idle (change : ∀ k, dnsChange platform a servers search k = none)
      (lost : ¬ HoldsDns platform a servers search) :
      Changes (dnsChange platform a servers search) (HoldsDns platform a servers search)
        (pure none) s :=
    ⟨fun k => by rw [change k]; rfl, nofun, iff_of_false (fun ⟨_, _, ok⟩ => by cases ok) lost⟩
  unfold applyDns
  cases given : servers.isEmpty && search.isEmpty with
  | true =>
    obtain ⟨none, none'⟩ : servers = [] ∧ search = [] := by simpa using given
    exact idle (fun k => by cases k <;> simp [dnsChange, none, none']) (by simp [HoldsDns, none, none'])
  | false =>
    have any := isEmpty_eq_false.mp given
    cases platform with
    | macos => exact applyService_changes a any s
    | linux => exact applyLinux_changes a iface any s
    | other => exact idle (fun k => by cases k <;> simp [dnsChange]) fun held => held.2

/-! ## What it leaves alone -/

/-- A view that shows nothing of name resolution, the link of an interface included. -/
structure DnsBlind {β : Type} (view : System → β) (iface : String) : Prop where
  servers : ∀ service value s, view (s.setServers service value) = view s
  search : ∀ service value s, view (s.setSearch service value) = view s
  resolvConf : ∀ contents s, view (s.setResolvConf contents) = view s
  link : ∀ f s, view (s.setLink iface f) = view s

omit [Externals] in
theorem access_leaves {β : Type} (view : System → β) (answer : Answer) :
    Leaves view (access answer) := by
  cases answer with
  | done => exact .pure _
  | failed | notRun => exact .throw _

omit [Externals] in
theorem changeSetting_leaves {β α γ : Type} {view : System → β} (values : List α) (name : String)
    (get set : Answer) (prior : System → γ) {write : System → System}
    (blind : ∀ s, view (write s) = view s) :
    Leaves view (changeSetting values name get set prior write) := by
  rw [changeSetting]
  split
  · exact .pure _
  · refine (command_leaves view _ _).bind fun _ => Leaves.get.bind fun _ => ?_
    exact (command_leaves view _ _).bind fun _ => (Leaves.modify blind).bind fun _ => .pure _

theorem applyService_leaves {β : Type} {view : System → β} {iface : String}
    (blind : DnsBlind view iface) (a : DnsAnswers) (servers : List IpAddr) (search : List String) :
    Leaves view (applyService a servers search) := by
  refine .bind ?_ fun service => .bind ?_ fun _ => .bind ?_ fun _ => .pure _
  · rw [detectPrimaryService]
    split
    · exact .pure _
    · exact .throw _
  · exact changeSetting_leaves _ _ _ _ _ (blind.servers service _)
  · exact changeSetting_leaves _ _ _ _ _ (blind.search service _)

theorem applyLinux_leaves {β : Type} {view : System → β} {iface : String}
    (blind : DnsBlind view iface) (a : DnsAnswers) (servers : List IpAddr) (search : List String) :
    Leaves view (applyLinux a iface servers search) := by
  refine .bind ?_ fun resolved => ?_
  · rw [tryResolvectl]
    split
    · exact .passOver (.map _ (applyResolvectl_leaves blind.link a servers search)) false
    · exact .pure _
  · split
    · exact .pure _
    · refine .map _ (.bind (access_leaves view _) fun _ => .bind .get fun _ => ?_)
      exact .bind (access_leaves view _) fun _ => .bind (.modify (blind.resolvConf _)) fun _ => .pure _

theorem applyDns_leaves {β : Type} {view : System → β} {iface : String} (blind : DnsBlind view iface)
    (platform : Platform) (a : DnsAnswers) (servers : List IpAddr) (search : List String) :
    Leaves view (applyDns platform a iface servers search) := by
  unfold applyDns
  split
  · exact .pure _
  · cases platform with
    | macos => exact .map _ (applyService_leaves blind a servers search)
    | linux => exact .map _ (applyLinux_leaves blind a servers search)
    | other => exact .pure _

omit [Externals] in
theorem restoreSetting_leaves {β α : Type} {view : System → β} (prior : Option α) (set : Answer)
    {write : α → System → System} (blind : ∀ a s, view (write a s) = view s) :
    Leaves view (restoreSetting prior set write) := by
  cases prior with
  | none => exact .pure _
  | some prior => exact .bind (command_leaves view _ _) fun _ => .modify (blind prior)

theorem removeDns_leaves {β : Type} {view : System → β} (blind : ∀ iface, DnsBlind view iface)
    (a : DnsAnswers) (st : DnsState) : Leaves view (removeDns a st) := by
  cases st with
  | resolved iface => exact .bind (command_leaves view _ _) fun _ => .modify ((blind iface).link _)
  | resolvConf backup =>
    exact .bind (access_leaves view _) fun _ => .modify ((blind "").resolvConf _)
  | service name dns search =>
    exact .bind (restoreSetting_leaves dns _ fun _ => (blind "").servers name _) fun _ =>
      restoreSetting_leaves search _ fun _ => (blind "").search name _

omit [Externals] in
theorem restoreSetting_done {α : Type} (prior : Option α) (write : α → System → System)
    (s : System) :
    (restoreSetting prior .done write).run s = .ok () (prior.elim s fun prior => write prior s) := by
  cases prior <;> rfl

/-- The answers with which a token is written back in full. -/
structure DnsAnswers.Reverts (a : DnsAnswers) : Prop where
  setServers : a.setServers = .done
  setSearch : a.setSearch = .done
  writeConf : a.writeConf = .done

theorem removeDns_settings {a : DnsAnswers} (reverts : a.Reverts) (st : DnsState) (s : System)
    (k : Setting) : k.get (after (removeDns a st) s) = (st.saved k).getD (k.get s) := by
  cases st with
  | resolved iface =>
    have kept : Leaves k.get (removeDns a (.resolved iface)) :=
      .bind (command_leaves _ _ _) fun _ => .modify (k.get_setLink iface _)
    rw [kept s]
    cases k <;> rfl
  | resolvConf backup =>
    have ran : (removeDns a (.resolvConf backup)).run s = .ok () (s.setResolvConf backup) := by
      rw [removeDns]
      rw [reverts.writeConf]
      rfl
    rw [after_of_ok ran]
    cases k <;> rfl
  | service name dns search =>
    have ran : (removeDns a (.service name dns search)).run s = .ok () (search.elim
        (dns.elim s fun prior => s.setServers name (prior.map Externals.showIp)) fun prior =>
        (dns.elim s fun prior => s.setServers name (prior.map Externals.showIp)).setSearch name prior) := by
      simp only [removeDns, reverts.setServers, reverts.setSearch, EStateM.run_bind, restoreSetting_done]
    rw [after_of_ok ran]
    cases k with
    | resolvConf => cases dns <;> cases search <;> rfl
    | servers other | search other =>
      rcases eq_or_ne other name with rfl | different
      · cases dns <;> cases search <;>
          simp [Setting.get, DnsState.saved, System.setServers, System.setSearch]
      · cases dns <;> cases search <;>
          simp [Setting.get, DnsState.saved, System.setServers, System.setSearch, different,
            different.symm]

end

end FerroWg.Tunnel
