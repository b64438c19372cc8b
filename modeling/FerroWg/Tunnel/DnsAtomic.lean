import FerroWg.Core.Disk
import FerroWg.Tunnel.Dns

/-!
# All of a change, or none of it

An `apply` that fails is to leave the settings as they were, and a `revert` to bring them back.
Both go wrong where two settings are changed in turn and only the first change succeeds; and a
`revert` has no more than what was read.
-/

namespace FerroWg.Tunnel

open Lib Lib.Undo

/-- The settings of the services and of the links, and the contents of `/etc/resolv.conf`. -/
structure SameDns (s t : System) : Prop where
  settings : ∀ k : Setting, k.get t = k.get s
  links : t.links = s.links

section

variable [Externals]

/-- Every command of a `revert` succeeds. -/
structure DnsAnswers.RevertsAll (a : DnsAnswers) : Prop extends a.Reverts where
  linkDns : a.linkDns = .done

def DnsAtomic (platform : Platform) (a : DnsAnswers) (iface : String) (servers : List IpAddr)
    (search : List String) (s : System) : Prop :=
  (∀ e t, (applyDns platform a iface servers search).run s = .error e t → SameDns s t) ∧
    ∀ st t, (applyDns platform a iface servers search).run s = .ok (some st) t →
      ∀ b : DnsAnswers, b.RevertsAll → SameDns s (after (removeDns b st) t)

/-- The servers of the service are set, and its search domains cannot be. -/
structure SetsServersOnly (a : DnsAnswers) (servers : List IpAddr) (search : List String) : Prop where
  servers : servers ≠ [] ∧ a.getServers = .done ∧ a.setServers = .done
  search : search ≠ [] ∧ ¬ (a.getSearch = .done ∧ a.setSearch = .done)

/-- `resolvectl` sets the servers of the link and refuses the domains. -/
structure LinksServersOnly (a : DnsAnswers) (servers : List IpAddr) : Prop where
  servers : a.resolvectl ∧ servers ≠ [] ∧ a.linkDns = .done
  domains : a.linkDomain ≠ .done

/-- What is read of the setting is all there is to it. -/
def Setting.Legible (k : Setting) (s : System) : Prop := k.read (k.get s) = k.get s

def DnsReturns (platform : Platform) (a : DnsAnswers) (iface : String) (servers : List IpAddr)
    (search : List String) (s : System) : Prop :=
  match platform with
  | .macos => ∀ service, a.detect = .ok service →
    (SetsServersOnly a servers search → s.servers service = servers.map Externals.showIp) ∧
      (HoldsDns .macos a servers search →
        (servers ≠ [] → Setting.Legible (.servers service) s) ∧
          (search ≠ [] → Setting.Legible (.search service) s))
  | .linux =>
    (a.LinkWorks servers → s.links iface = ⟨[], []⟩) ∧
      (LinksServersOnly a servers → (s.links iface).servers = servers.map Externals.showIp)
  | .other => True

omit [Externals] in
theorem exists_revertsAll : ∃ b : DnsAnswers, b.RevertsAll :=
  ⟨⟨.ok "", .done, .done, .done, .done, true, .done, .done, .done, .done⟩, ⟨rfl, rfl, rfl⟩, rfl⟩

/-- What has to hold again after an `apply` that failed, and after the `revert` of any other. -/
def AllOrNothing (y : Os DnsError (Option DnsState)) (s : System) (same : System → Prop) : Prop :=
  (∀ e t, y.run s = .error e t → same t) ∧
    ∀ st t, y.run s = .ok (some st) t →
      ∀ b : DnsAnswers, b.RevertsAll → same (after (removeDns b st) t)

section

variable {y : Os DnsError (Option DnsState)} {s t : System} {same : System → Prop}

theorem allOrNothing_error {e : DnsError} (ran : y.run s = .error e t) :
    AllOrNothing y s same ↔ same t := by
  rw [AllOrNothing, ran]
  constructor
  · exact fun both => both.1 e t rfl
  · intro kept
    refine ⟨fun e' t' ran' => ?_, nofun⟩
    cases ran'
    exact kept

theorem allOrNothing_token {st : DnsState} (ran : y.run s = .ok (some st) t) :
    AllOrNothing y s same ↔
      ∀ b : DnsAnswers, b.RevertsAll → same (after (removeDns b st) t) := by
  rw [AllOrNothing, ran]
  constructor
  · exact fun both => both.2 st t rfl
  · intro back
    refine ⟨nofun, fun st' t' ran' => ?_⟩
    cases ran'
    exact back

/-- The settings and the links are apart. -/
theorem dnsAtomic_iff {platform : Platform} {a : DnsAnswers} {iface : String}
    {servers : List IpAddr} {search : List String}
    (applies : applyDns platform a iface servers search = y) :
    DnsAtomic platform a iface servers search s ↔
      AllOrNothing y s (fun t => ∀ k : Setting, k.get t = k.get s) ∧
        AllOrNothing y s (fun t => t.links = s.links) := by
  rw [DnsAtomic, applies]
  constructor
  · rintro ⟨failed, done⟩
    exact ⟨⟨fun e t ran => (failed e t ran).settings,
        fun st t ran b reverts => (done st t ran b reverts).settings⟩,
      fun e t ran => (failed e t ran).links, fun st t ran b reverts => (done st t ran b reverts).links⟩
  · rintro ⟨settings, links⟩
    exact ⟨fun e t ran => ⟨settings.1 e t ran, links.1 e t ran⟩,
      fun st t ran b reverts => ⟨settings.2 st t ran b reverts, links.2 st t ran b reverts⟩⟩

end

variable {change : Setting → Option (List String → List String)} {held : Prop}
  {x : Os DnsError DnsState} {s : System}

/-- Without a token no setting may have changed, and with one each that did must be legible. -/
theorem Changes.atomic_iff (changes : Changes change held (some <$> x) s) :
    AllOrNothing (some <$> x) s (fun t => ∀ k : Setting, k.get t = k.get s) ↔
      (¬ held → ∀ k, applied (change k) (k.get s) = k.get s) ∧
        (held → ∀ k, change k ≠ none → k.Legible s) := by
  cases ran : (some <$> x).run s with
  | error e t =>
    have lost : ¬ held := by
      rw [← changes.held]
      rintro ⟨st, u, ok⟩
      rw [ran] at ok
      cases ok
    have settings := changes.settings
    rw [after_of_error ran] at settings
    rw [allOrNothing_error ran]
    simp [lost, settings]
  | ok token t =>
    obtain ⟨st, rfl⟩ : ∃ st, token = some st := by
      rw [run_map] at ran
      split at ran <;> cases ran
      exact ⟨_, rfl⟩
    have got : held := changes.held.mp ⟨st, t, ran⟩
    have settings := changes.settings
    rw [after_of_ok ran] at settings
    have back (b : DnsAnswers) (reverts : b.RevertsAll) (k : Setting) :
        k.get (after (removeDns b st) t) = k.get s ↔ (change k ≠ none → k.Legible s) := by
      rw [removeDns_settings reverts.toReverts, changes.saved st t ran, settings]
      cases change k with
      | none => simp [applied]
      | some f => simp [Setting.Legible]
    rw [allOrNothing_token ran]
    constructor
    · intro all
      obtain ⟨b, reverts⟩ := exists_revertsAll
      exact ⟨absurd got, fun _ k => (back b reverts k).mp (all b reverts k)⟩
    · rintro ⟨_, legible⟩ b reverts k
      exact (back b reverts k).mpr (legible got k)

theorem applyService_links (a : DnsAnswers) (servers : List IpAddr) (search : List String) :
    Leaves System.links (some <$> applyService a servers search) := by
  refine .map _ (.bind ?_ fun service => .bind ?_ fun _ => .bind ?_ fun _ => .pure _)
  · rw [detectPrimaryService]
    split
    · exact .pure _
    · exact .throw _
  · exact changeSetting_leaves _ _ _ _ _ fun _ => rfl
  · exact changeSetting_leaves _ _ _ _ _ fun _ => rfl

theorem removeDns_service_links (b : DnsAnswers) (name : String) (dns : Option (List IpAddr))
    (search : Option (List String)) : Leaves System.links (removeDns b (.service name dns search)) :=
  .bind (restoreSetting_leaves dns _ fun _ _ => rfl) fun _ =>
    restoreSetting_leaves search _ fun _ _ => rfl

theorem removeDns_resolvConf_links (b : DnsAnswers) (backup : String) :
    Leaves System.links (removeDns b (.resolvConf backup)) :=
  .bind (access_leaves _ _) fun _ => .modify fun _ => rfl

/-- The link as `resolvectl` leaves it, and what became of it when that failed. -/
theorem applyResolvectl_links (a : DnsAnswers) (iface : String) {servers : List IpAddr}
    {search : List String} (given : (servers.isEmpty && search.isEmpty) = false) (s : System) :
    ∃ link, (after (applyResolvectl a iface servers search) s).links =
        Function.update s.links iface link ∧
      (¬ ((servers = [] ∨ a.linkDns = .done) ∧ a.linkDomain = .done) →
        link.domains = (s.links iface).domains ∧ link.servers =
          if servers ≠ [] ∧ a.linkDns = .done then servers.map Externals.showIp
          else (s.links iface).servers) := by
  have untouched : s.links = Function.update s.links iface (s.links iface) :=
    (Function.update_eq_self ..).symm
  rw [applyResolvectl, setLinkServers, setLinkDomains]
  rw [given]
  cases servers with
  | nil =>
    cases a.linkDomain with
    | done => exact ⟨_, rfl, by simp⟩
    | failed | notRun => exact ⟨_, untouched, fun _ => by simp⟩
  | cons server rest =>
    cases a.linkDns with
    | failed | notRun => exact ⟨_, untouched, fun _ => by simp⟩
    | done =>
      cases a.linkDomain with
      | done => exact ⟨_, Function.update_idem .., by simp⟩
      | failed | notRun => exact ⟨_, rfl, fun _ => by simp⟩

theorem afterResolvectl_links (a : DnsAnswers) (iface : String) {servers : List IpAddr}
    {search : List String} (given : (servers.isEmpty && search.isEmpty) = false) (s : System) :
    ∃ link, (afterResolvectl a iface servers search s).links = Function.update s.links iface link ∧
      (¬ a.LinkWorks servers → (link = s.links iface ↔
        (LinksServersOnly a servers → (s.links iface).servers = servers.map Externals.showIp))) := by
  rw [afterResolvectl, DnsAnswers.LinkWorks]
  cases available : a.resolvectl with
  | false =>
    refine ⟨s.links iface, (Function.update_eq_self ..).symm, fun _ => iff_of_true rfl fun half => ?_⟩
    have there := half.servers.1
    rw [available] at there
    cases there
  | true =>
    obtain ⟨link, links, broken⟩ := applyResolvectl_links a iface given s
    refine ⟨link, links, fun fails => ?_⟩
    obtain ⟨domains, set⟩ := broken fun works => fails ⟨rfl, works⟩
    have same : link = s.links iface ↔ link.servers = (s.links iface).servers := by
      constructor
      · exact congrArg LinkDns.servers
      · intro same
        obtain ⟨linkServers, linkDomains⟩ := link
        simp only at same domains
        rw [same, domains]
    rw [same, set]
    split
    · rename_i done
      have refused : a.linkDomain ≠ .done := fun works => fails ⟨rfl, .inr done.2, works⟩
      exact ⟨fun same _ => same.symm, fun keeps => (keeps ⟨⟨available, done⟩, refused⟩).symm⟩
    · rename_i done
      exact iff_of_true rfl fun half => absurd half.servers.2 done

theorem applyService_token {a : DnsAnswers} {servers : List IpAddr} {search : List String}
    {s t : System} {st : DnsState}
    (ran : (some <$> applyService a servers search).run s = .ok (some st) t) :
    ∃ name dns search, st = .service name dns search := by
  cases detected : a.detect with
  | error e =>
    rw [applyService, detectPrimaryService] at ran
    rw [detected] at ran
    cases ran
  | ok service =>
    rw [applyService_run detected] at ran
    split at ran
    · cases ran
    · split at ran <;> cases ran
      exact ⟨_, _, _, rfl⟩

/-! ## What the changes of a service come down to -/

section

variable {a : DnsAnswers} {service : String} {servers : List IpAddr} {search : List String}

omit [Externals] in
theorem detect_toOption (detected : a.detect = .ok service) (other : String) :
    a.detect.toOption = some other ↔ other = service := by
  rw [detected]
  exact ⟨fun same => (Option.some.inj same).symm, fun same => by rw [same]; rfl⟩

omit [Externals] in
theorem holdsDns_service_iff (detected : a.detect = .ok service)
    (any : servers ≠ [] ∨ search ≠ []) : HoldsDns .macos a servers search ↔
      (servers = [] ∨ a.getServers = .done ∧ a.setServers = .done) ∧
        (search = [] ∨ a.getSearch = .done ∧ a.setSearch = .done) := by
  simp [HoldsDns, any, detected, Except.isOk, Except.toBool]

/-- The servers are the first to be set, so that only they can be left behind. -/
theorem service_kept_iff (detected : a.detect = .ok service) (any : servers ≠ [] ∨ search ≠ [])
    (s : System) :
    (¬ HoldsDns .macos a servers search →
        ∀ k, applied (dnsChange .macos a servers search k) (k.get s) = k.get s) ↔
      (SetsServersOnly a servers search → s.servers service = servers.map Externals.showIp) := by
  have held := holdsDns_service_iff detected any
  constructor
  · intro kept half
    have lost : ¬ HoldsDns .macos a servers search := by
      rw [held]
      exact fun both => both.2.elim half.search.1 half.search.2
    have same := kept lost (.servers service)
    rw [dnsChange, if_pos ⟨rfl, (detect_toOption detected service).mpr rfl, half.servers⟩] at same
    exact same.symm
  · intro kept lost k
    cases k with
    | servers other =>
      simp only [dnsChange, detect_toOption detected, true_and]
      split
      · rename_i set
        obtain ⟨rfl, set⟩ := set
        refine (kept ⟨set, ?_⟩).symm
        rw [held, not_and_or, not_or, not_or] at lost
        exact lost.resolve_left fun refused => refused.2 set.2
      · rfl
    | search other =>
      simp only [dnsChange, detect_toOption detected, true_and]
      split
      · rename_i set
        exact absurd (held.mpr ⟨set.2.1, .inr set.2.2.2⟩) lost
      · rfl
    | resolvConf => simp [dnsChange, applied]

theorem service_legible_iff (detected : a.detect = .ok service) (any : servers ≠ [] ∨ search ≠ [])
    (got : HoldsDns .macos a servers search) (s : System) :
    (∀ k, dnsChange .macos a servers search k ≠ none → k.Legible s) ↔
      (servers ≠ [] → Setting.Legible (.servers service) s) ∧
        (search ≠ [] → Setting.Legible (.search service) s) := by
  have found := detect_toOption detected
  obtain ⟨serversSet, searchSet⟩ := (holdsDns_service_iff detected any).mp got
  constructor
  · intro legible
    constructor
    · intro some
      have set := serversSet.resolve_left some
      exact legible (.servers service) (by simp [dnsChange, found, some, set])
    · intro some
      have set := searchSet.resolve_left some
      exact legible (.search service) (by simp [dnsChange, found, some, set, serversSet])
  · rintro ⟨serversLegible, searchLegible⟩ k changed
    cases k with
    | servers other =>
      simp only [dnsChange, found, true_and, ne_eq, ite_eq_right_iff, reduceCtorEq, imp_false,
        not_not] at changed
      exact changed.1 ▸ serversLegible changed.2.1
    | search other =>
      simp only [dnsChange, found, true_and, ne_eq, ite_eq_right_iff, reduceCtorEq, imp_false,
        not_not] at changed
      exact changed.1 ▸ searchLegible changed.2.2.1
    | resolvConf => simp [dnsChange] at changed

theorem service_returns_iff (iface : String) (any : servers ≠ [] ∨ search ≠ []) (s : System) :
    (¬ HoldsDns .macos a servers search →
        ∀ k, applied (dnsChange .macos a servers search k) (k.get s) = k.get s) ∧
      (HoldsDns .macos a servers search →
        ∀ k, dnsChange .macos a servers search k ≠ none → k.Legible s) ↔
    DnsReturns .macos a iface servers search s := by
  cases detected : a.detect with
  | error e =>
    refine iff_of_true ⟨fun _ k => ?_, fun held => ?_⟩ fun service same => ?_
    · cases k <;> simp [dnsChange, detected, applied, Except.toOption]
    · have found := held.2.1
      rw [detected] at found
      cases found
    · rw [detected] at same
      cases same
  | ok service =>
    simp only [DnsReturns, detected, Except.ok.injEq, forall_eq']
    exact and_congr (service_kept_iff detected any s)
      (forall_congr' fun got => service_legible_iff detected any got s)

end

theorem applyService_atomic_iff (a : DnsAnswers) (iface : String) {servers : List IpAddr}
    {search : List String} (any : servers ≠ [] ∨ search ≠ []) (s : System) :
    DnsAtomic .macos a iface servers search s ↔ DnsReturns .macos a iface servers search s := by
  have applies : applyDns .macos a iface servers search = some <$> applyService a servers search := by
    rw [applyDns, isEmpty_eq_false.mpr any]
    rfl
  have links : AllOrNothing (some <$> applyService a servers search) s
      (fun t => t.links = s.links) := by
    have kept := applyService_links a servers search s
    refine ⟨fun e t ran => ?_, fun st t ran b _ => ?_⟩
    · rwa [after_of_error ran] at kept
    · obtain ⟨name, dns, search, rfl⟩ := applyService_token ran
      rw [after_of_ok ran] at kept
      exact (removeDns_service_links b name dns search t).trans kept
  rw [dnsAtomic_iff applies, and_iff_left links, (applyService_changes a any s).atomic_iff,
    service_returns_iff iface any s]

/-- The file always comes back. -/
theorem applyLinux_settings (a : DnsAnswers) (iface : String) {servers : List IpAddr}
    {search : List String} (any : servers ≠ [] ∨ search ≠ []) (s : System) :
    AllOrNothing (some <$> applyLinux a iface servers search) s
      (fun t => ∀ k : Setting, k.get t = k.get s) := by
  rw [(applyLinux_changes a iface any s).atomic_iff]
  refine ⟨fun lost k => ?_, fun _ k changed => ?_⟩
  · cases k with
    | servers | search => simp [dnsChange, applied]
    | resolvConf =>
      simp only [dnsChange, true_and]
      split
      · rename_i edits
        exact absurd ⟨any, .inr edits.2.2⟩ lost
      · rfl
  · cases k with
    | servers | search => simp [dnsChange] at changed
    | resolvConf => rfl

/-- A link is reset, whatever there was. -/
theorem removeDns_resolved_links {b : DnsAnswers} (reverts : b.RevertsAll) (iface : String)
    (s : System) : (after (removeDns b (.resolved iface)) s).links =
      Function.update s.links iface ⟨[], []⟩ := by
  rw [removeDns]
  rw [reverts.linkDns]
  rfl

/-- What becomes of the links is up to `resolvectl`. -/
theorem applyLinux_links_iff (a : DnsAnswers) (iface : String) {servers : List IpAddr}
    {search : List String} (given : (servers.isEmpty && search.isEmpty) = false) (s : System) :
    AllOrNothing (some <$> applyLinux a iface servers search) s (fun t => t.links = s.links) ↔
      DnsReturns .linux a iface servers search s := by
  obtain ⟨link, links, broken⟩ := afterResolvectl_links a iface given s
  obtain ⟨b, reverts⟩ := exists_revertsAll
  rcases applyLinux_run a iface given s with ⟨works, ran⟩ | ⟨fails, ran⟩
  · have reset : Function.update s.links iface ⟨[], []⟩ = s.links ↔
        DnsReturns .linux a iface servers search s := by
      rw [Function.update_eq_self_iff, eq_comm]
      constructor
      · exact fun clear => ⟨fun _ => clear, fun half => absurd works.2.2 half.domains⟩
      · exact fun returns => returns.1 works
    have back (b : DnsAnswers) (reverts : b.RevertsAll) :
        (after (removeDns b (.resolved iface)) (afterResolvectl a iface servers search s)).links =
          Function.update s.links iface ⟨[], []⟩ := by
      rw [removeDns_resolved_links reverts, links, Function.update_idem]
    rw [allOrNothing_token ran, ← reset]
    constructor
    · exact fun same => (back b reverts).symm.trans (same b reverts)
    · exact fun same b reverts => (back b reverts).trans same
  · have kept : (afterResolvectl a iface servers search s).links = s.links ↔
        DnsReturns .linux a iface servers search s := by
      rw [links, Function.update_eq_self_iff, broken fails]
      exact (and_iff_right fun works => absurd works fails).symm
    rcases applyResolvConf_changes a servers search (afterResolvectl a iface servers search s) with
      ⟨_, _, edited⟩ | ⟨_, e, edited⟩ <;>
      rw [run_map _ (applyResolvConf a servers search), edited] at ran
    · have back (b : DnsAnswers) (backup : String) :
          (after (removeDns b (.resolvConf backup)) ((afterResolvectl a iface servers search s).setResolvConf
            (resolvConfLines servers search ++
              (afterResolvectl a iface servers search s).resolvConf))).links =
            (afterResolvectl a iface servers search s).links :=
        removeDns_resolvConf_links b backup _
      rw [allOrNothing_token ran, ← kept]
      constructor
      · exact fun same => (back b _).symm.trans (same b reverts)
      · exact fun same b _ => (back b _).trans same
    · rw [allOrNothing_error ran, ← kept]

theorem applyLinux_atomic_iff (a : DnsAnswers) (iface : String) {servers : List IpAddr}
    {search : List String} (any : servers ≠ [] ∨ search ≠ []) (s : System) :
    DnsAtomic .linux a iface servers search s ↔ DnsReturns .linux a iface servers search s := by
  have given := isEmpty_eq_false.mpr any
  have applies : applyDns .linux a iface servers search = some <$> applyLinux a iface servers search := by
    rw [applyDns, given]
    rfl
  rw [dnsAtomic_iff applies, and_iff_right (applyLinux_settings a iface any s),
    applyLinux_links_iff a iface given s]

/-- An `apply` is all or nothing, and a `revert` brings back what it found, exactly when neither
stops between two settings and everything that was there can be read. -/
theorem dns_atomic_iff (platform : Platform) (a : DnsAnswers) (iface : String)
    (servers : List IpAddr) (search : List String) (s : System)
    (any : servers ≠ [] ∨ search ≠ []) :
    DnsAtomic platform a iface servers search s ↔ DnsReturns platform a iface servers search s := by
  cases platform with
  | macos => exact applyService_atomic_iff a iface any s
  | linux => exact applyLinux_atomic_iff a iface any s
  | other =>
    have apply' : applyDns .other a iface servers search = pure none := by
      rw [applyDns, isEmpty_eq_false.mpr any]
      rfl
    refine iff_of_true ?_ trivial
    rw [DnsAtomic, apply']
    exact ⟨nofun, nofun⟩

end

namespace DnsSample

def resolver : IpAddr := .v4 0xC0000235

/-- One address is all that is read and shown here. -/
@[reducible] def externals : Externals :=
  { Externals.tabulated [] [] [] with
    parseIp := fun s => if s = "192.0.2.53" then some resolver else none
    showIp := fun ip => if ip = resolver then "192.0.2.53" else "::" }

/-- No interface, and one search domain. -/
def system : System where
  interfaces := fun _ => none
  routes := fun _ => none
  servers := fun _ => []
  searchDomains := fun _ => ["lan"]
  resolvConf := "search lan\n"
  links := fun _ => ⟨[], []⟩

/-- Every command succeeds. -/
def answers : DnsAnswers :=
  ⟨.ok "Wi-Fi", .done, .done, .done, .done, true, .done, .done, .done, .done⟩

end DnsSample

open DnsSample in
/-- With search domains alone there is one change, of what can be read. -/
theorem dns_atomic_search_domain :
    @DnsAtomic externals .macos answers "utun4" [] ["corp"] system := by
  apply (@dns_atomic_iff externals .macos answers "utun4" [] ["corp"] system (by decide)).mpr
  intro service _
  refine ⟨fun half => absurd rfl half.servers.1, fun _ => ⟨fun some => absurd rfl some, fun _ => ?_⟩⟩
  exact (by decide +kernel : parseNetworksetupSearch ["lan"] = ["lan"])

open DnsSample in
/-- The search domains are refused after the servers were set: an error leaves the servers, of a
service or of a link, where `apply` put them. -/
theorem dns_servers_stay :
    ¬ @DnsAtomic externals .macos { answers with setSearch := .failed "" } "utun4" [resolver] ["corp"]
        system ∧
      ¬ @DnsAtomic externals .linux { answers with linkDomain := .failed "" } "utun4" [resolver]
        ["corp"] system := by
  constructor
  · rintro ⟨failed, _⟩
    have same := (failed _ _ rfl).settings (.servers "Wi-Fi")
    exact absurd same (by decide +kernel)
  · rintro ⟨_, done⟩
    obtain ⟨b, reverts⟩ := exists_revertsAll
    have same := congrFun (done _ _ rfl b reverts).links "utun4"
    rw [@removeDns_resolvConf_links externals] at same
    exact absurd same (by decide +kernel)

end FerroWg.Tunnel
