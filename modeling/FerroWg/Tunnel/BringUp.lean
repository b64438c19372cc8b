import FerroWg.Lib.Run
import FerroWg.Tunnel.Manager

/-!
# What a bring-up does

In terms of interfaces, routes and settings; the results about runs rest on this alone.
-/

namespace FerroWg.Tunnel

open Lib Lib.Undo

/-- A route that exists already is as good as one that was added. -/
def Answer.Accepted (answer : Answer) : Prop :=
  answer = .done ∨ ∃ stderr, answer = .failed stderr ∧ Text.contains "File exists" stderr

/-- Everything that precedes DNS goes well. -/
structure UpAnswers.Configures (a : UpAnswers) (plan : Plan) : Prop where
  tunName : a.tunName = none
  addresses : ∀ i < plan.config.interface.addresses.length, a.setAddr i = .done
  routes : ∀ i < plan.peer.allowedIps.length, (a.addRoute i).Accepted

/-- The two steps after DNS go well. -/
structure UpAnswers.Finishes (a : UpAnswers) : Prop where
  bindUdp : a.bindUdp = none
  compiledIn : a.compiledIn = true
  construct : a.construct = none

structure UpAnswers.ReachesDns (a : UpAnswers) (plan : Plan) (tun : String) (s : System) : Prop where
  resolve : ∃ addr rest, a.resolve = .ok (addr :: rest)
  createTun : a.createTun = .ok tun
  fresh : s.interfaces tun = none
  configures : a.Configures plan

/-- What the configuration has for a name, up to the endpoint of its first peer. -/
structure Plan.Configured (config : AppConfig) (name : String) (plan : Plan) : Prop where
  config : config.get name = some plan.config
  peer : plan.config.peers.head? = some plan.peer
  endpoint : plan.peer.endpoint = some plan.endpoint

theorem plan_ok_iff (m : TunnelManager) (name : String) (plan : Plan) :
    m.plan name = .ok plan ↔ m.connections[name]? = none ∧ plan.Configured m.config name := by
  rw [TunnelManager.plan]
  rw [Std.ExtTreeMap.contains_eq_isSome_getElem?]
  constructor
  · intro planned
    split at planned
    · cases planned
    rename_i inactive
    refine ⟨by simpa using inactive, ?_⟩
    split at planned
    · cases planned
    rename_i config there
    split at planned
    · cases planned
    rename_i peer first
    split at planned <;> cases planned
    rename_i given
    exact ⟨there, first, given⟩
  · rintro ⟨inactive, configured⟩
    simp [inactive, configured.config, configured.peer, configured.endpoint]

theorem failIf_decided (error : Option String) (message : String → String) :
    Decided (error = none) (failIf error message) := by
  cases error with
  | none => exact (Decided.pure _).congr (by simp)
  | some e => exact (Decided.throw _).congr (by simp)

theorem setInterfaceAddr_decided (answer : Answer) (iface addr : String) :
    Decided (answer = .done) (setInterfaceAddr answer iface addr) := by
  cases answer with
  | done => exact (Decided.modify _).congr (by simp)
  | failed | notRun => exact (Decided.throw _).congr (by simp)

theorem addRoute_decided (answer : Answer) (cidr iface : String) :
    Decided answer.Accepted (addRoute answer cidr iface) := by
  cases answer with
  | done => exact (Decided.modify _).congr (by simp [Answer.Accepted])
  | failed stderr =>
    simp only [addRoute]
    split
    · exact (Decided.pure _).congr (by simp [Answer.Accepted, *])
    · exact (Decided.throw _).congr (by simp [Answer.Accepted, *])
  | notRun => exact (Decided.throw _).congr (by simp [Answer.Accepted])

theorem forall_mem_zipIdx {α : Type} {l : List α} {p : Nat → Prop} :
    (∀ c ∈ l.zipIdx, p c.2) ↔ ∀ i < l.length, p i := by
  constructor
  · intro each i bound
    exact each (l[i], i) (by simp [List.mem_zipIdx_iff_getElem?, bound])
  · rintro each ⟨c, i⟩ member
    rw [List.mem_zipIdx_iff_getElem?] at member
    exact each i (List.getElem?_eq_some_iff.mp member).1

theorem configureTun_decided (a : UpAnswers) (plan : Plan) (tun : String) :
    Decided (a.Configures plan) (configureTun a plan tun) := by
  have addresses := Decided.forM (l := plan.config.interface.addresses.zipIdx)
    fun c _ => setInterfaceAddr_decided (a.setAddr c.2) tun c.1
  have routes := Decided.forM (l := plan.peer.allowedIps.zipIdx)
    fun c _ => addRoute_decided (a.addRoute c.2) c.1 tun
  apply ((failIf_decided a.tunName _).bind fun _ => addresses.bind fun _ => routes).congr
  rw [forall_mem_zipIdx (p := fun i => a.setAddr i = .done),
    forall_mem_zipIdx (p := fun i => (a.addRoute i).Accepted)]
  exact ⟨fun ⟨h, h', h''⟩ => ⟨h, h', h''⟩, fun ⟨h, h', h''⟩ => ⟨h, h', h''⟩⟩

theorem openTransport_decided (a : UpAnswers) (kind : BackendKind) (plan : Plan) :
    Decided a.Finishes (openTransport a kind plan) := by
  have backend : Decided (a.compiledIn = true ∧ a.construct = none) (createBackend a kind) := by
    rw [createBackend]
    split
    · rename_i there
      exact (failIf_decided a.construct _).congr (by simp [there])
    · rename_i missing
      exact (Decided.throw _).congr (by simp [missing])
  apply ((failIf_decided a.bindUdp _).bind fun _ => backend).congr
  exact ⟨fun ⟨h, h', h''⟩ => ⟨h, h', h''⟩, fun ⟨h, h', h''⟩ => ⟨h, h', h''⟩⟩

theorem failIf_leaves {β : Type} (view : System → β) (error : Option String)
    (message : String → String) : Leaves view (failIf error message) := by
  cases error with
  | none => exact .pure _
  | some e => exact .throw _

theorem openTransport_leaves {β : Type} (view : System → β) (a : UpAnswers) (kind : BackendKind)
    (plan : Plan) : Leaves view (openTransport a kind plan) := by
  refine .bind (failIf_leaves view _ _) fun _ => ?_
  unfold createBackend
  split
  · exact failIf_leaves view _ _
  · exact .throw _

/-- Addresses and routes of a device are gone with it. -/
theorem configureTun_leaves (a : UpAnswers) (plan : Plan) (tun : String) :
    Leaves (·.dropInterface tun) (configureTun a plan tun) :=
  .bind (failIf_leaves _ _ _) fun _ =>
    .bind (.forM fun c _ => setInterfaceAddr_dropInterface (a.setAddr c.2) tun c.1) fun _ =>
      .forM fun c _ => addRoute_dropInterface (a.addRoute c.2) c.1 tun

theorem configureTun_exists (a : UpAnswers) (plan : Plan) (tun other : String) :
    Leaves (fun s => (s.interfaces other).isSome) (configureTun a plan tun) :=
  .bind (failIf_leaves _ _ _) fun _ =>
    .bind (.forM fun c _ => setInterfaceAddr_exists (a.setAddr c.2) tun c.1 other) fun _ =>
      .forM fun c _ => addRoute_exists (a.addRoute c.2) c.1 tun other

/-- A device that is there, and without which the network is what it was. -/
structure Established (s : System) (tun : String) (t : System) : Prop where
  fresh : s.interfaces tun = none
  network : (t.dropInterface tun).network = s.network
  there : (t.interfaces tun).isSome

/-- Apart from the device, the network is what it was. -/
theorem Established.parts {s t : System} {tun : String} (there : Established s tun t) :
    (∀ iface ≠ tun, t.interfaces iface = s.interfaces iface) ∧
    (∀ cidr, t.routes cidr ≠ some tun → t.routes cidr = s.routes cidr) ∧
    (∀ cidr, t.routes cidr = some tun → s.routes cidr = none) ∧
    (∀ iface ≠ tun, t.links iface = s.links iface) := by
  obtain ⟨interfaces, routes, links⟩ := Prod.mk.inj there.network |>.imp_right Prod.mk.inj
  refine ⟨fun iface other => ?_, fun cidr other => ?_, fun cidr same => ?_, fun iface other => ?_⟩
  · rw [← interfaces]
    exact (Function.update_of_ne other ..).symm
  · rw [← routes]
    exact (if_neg other).symm
  · rw [← routes]
    exact if_pos same
  · rw [← links]
    exact (Function.update_of_ne other ..).symm

theorem Established.wellFormed {s t : System} {tun : String} (there : Established s tun t)
    (wellFormed : s.WellFormed) : t.WellFormed := by
  obtain ⟨interfaces, routes, _, links⟩ := there.parts
  constructor
  · intro cidr iface through
    rcases eq_or_ne iface tun with rfl | other
    · exact there.there
    · rw [interfaces iface other]
      apply wellFormed.routed cidr iface
      rwa [← routes cidr (by rw [through]; simpa using other)]
  · intro iface missing
    rcases eq_or_ne iface tun with rfl | other
    · have present := there.there
      rw [missing] at present
      cases present
    · rw [interfaces iface other] at missing
      rw [links iface other]
      exact wellFormed.linked iface missing

section

variable [Externals] (platform : Platform) (a : UpAnswers) (kind : BackendKind) (plan : Plan)

/-- The change of each setting that comes with a bring-up. -/
def Plan.dnsChange : Setting → Option (List String → List String) :=
  Tunnel.dnsChange platform a.dns plan.config.interface.dns plan.config.interface.dnsSearch

/-- The bring-up gets a token for it. -/
def Plan.HoldsDns : Prop :=
  Tunnel.HoldsDns platform a.dns plan.config.interface.dns plan.config.interface.dnsSearch

/-- What the DNS step of a bring-up does to the settings, and the token it gets for that. -/
structure DnsDone (s : System) (dnsState : Option DnsState) (t : System) : Prop where
  settings : ∀ k, k.get t = applied (plan.dnsChange platform a k) (k.get s)
  saved : ∀ st, dnsState = some st →
    ∀ k, st.saved k = (plan.dnsChange platform a k).map fun _ => k.read (k.get s)
  held : dnsState.isSome ↔ plan.HoldsDns platform a

variable {platform a plan} in
/-- Only the settings of the state before count. -/
theorem DnsDone.congr {s s' t : System} {dnsState : Option DnsState}
    (done : DnsDone platform a plan s dnsState t) (same : ∀ k : Setting, k.get s = k.get s') :
    DnsDone platform a plan s' dnsState t := by
  refine ⟨fun k => ?_, fun st there k => ?_, done.held⟩
  · rw [done.settings, same]
  · rw [done.saved st there, same]

omit [Externals] in
theorem dnsBlind_network (tun : String) : DnsBlind (fun s => (s.dropInterface tun).network) tun where
  servers _ _ _ := rfl
  search _ _ _ := rfl
  resolvConf _ _ := rfl
  link f s := by
    simp only [System.network, System.dropInterface, System.setLink, Function.update_idem]
    rfl

omit [Externals] in
theorem dnsBlind_exists (iface tun : String) :
    DnsBlind (fun s => (s.interfaces iface).isSome) tun :=
  ⟨fun _ _ _ => rfl, fun _ _ _ => rfl, fun _ _ => rfl, fun _ _ => rfl⟩

omit [Externals] in
theorem Setting.get_dropInterface (k : Setting) (iface : String) (s : System) :
    k.get (s.dropInterface iface) = k.get s := by
  cases k <;> rfl

/-- The DNS step of a bring-up always ends well. -/
theorem applyDns_passOver (tun : String) (s : System) :
    ∃ dnsState t, (passOver (applyDns platform a.dns tun plan.config.interface.dns
        plan.config.interface.dnsSearch) none : Os WgError (Option DnsState)).run s = .ok dnsState t ∧
      (t.dropInterface tun).network = (s.dropInterface tun).network ∧
      (∀ iface, (t.interfaces iface).isSome = (s.interfaces iface).isSome) ∧
      DnsDone platform a plan s dnsState t := by
  have changes := applyDns_changes platform a.dns tun plan.config.interface.dns
    plan.config.interface.dnsSearch s
  have network := applyDns_leaves (dnsBlind_network tun) platform a.dns plan.config.interface.dns
    plan.config.interface.dnsSearch s
  have kept (iface : String) := applyDns_leaves (dnsBlind_exists iface tun) platform a.dns
    plan.config.interface.dns plan.config.interface.dnsSearch s
  have settings := changes.settings
  rw [run_passOver]
  cases ran : (applyDns platform a.dns tun plan.config.interface.dns
      plan.config.interface.dnsSearch).run s with
  | ok dnsState t =>
    rw [after_of_ok ran] at network kept settings
    refine ⟨dnsState, t, rfl, network, kept, settings, ?_, ?_⟩
    · rintro st rfl
      exact changes.saved st t ran
    · rw [Plan.HoldsDns, ← changes.held, ran, Option.isSome_iff_exists]
      simp
  | error e t =>
    rw [after_of_error ran] at network kept settings
    refine ⟨none, t, rfl, network, kept, settings, nofun, ?_⟩
    rw [Plan.HoldsDns, ← changes.held, ran]
    simp

/-- With the device there, either its configuration fails, or DNS has been set up when the two
last steps decide. -/
theorem bringUp_cases (tun : String) (s : System) :
    (¬ a.Configures plan ∧ ∃ e t, (bringUp platform a kind plan tun).run s = .error e t ∧
      t.dropInterface tun = s.dropInterface tun) ∨
    (a.Configures plan ∧ ∃ dnsState t,
      (t.dropInterface tun).network = (s.dropInterface tun).network ∧
      (∀ iface, (t.interfaces iface).isSome = (s.interfaces iface).isSome) ∧
      DnsDone platform a plan s dnsState t ∧
      ((a.Finishes ∧ (bringUp platform a kind plan tun).run s = .ok dnsState t) ∨
        (¬ a.Finishes ∧ ∃ e, (bringUp platform a kind plan tun).run s = .error e t))) := by
  simp only [bringUp, EStateM.run_bind]
  rcases configureTun_decided a plan tun s with ⟨works, ⟨⟩, between, ran⟩ | ⟨fails, e, t, ran⟩
  · obtain ⟨dnsState, t, resolves, network, kept, done⟩ :=
      applyDns_passOver platform a plan tun between
    have gone : between.dropInterface tun = s.dropInterface tun := by
      simpa only [after_of_ok ran] using configureTun_leaves a plan tun s
    have there (iface : String) : (between.interfaces iface).isSome = (s.interfaces iface).isSome := by
      simpa only [after_of_ok ran] using configureTun_exists a plan tun iface s
    have settings' (k : Setting) : k.get between = k.get s := by
      rw [← k.get_dropInterface tun between, gone, k.get_dropInterface]
    refine .inr ⟨works, dnsState, t, by rw [network, gone], fun iface => by rw [kept, there],
      done.congr settings', ?_⟩
    rw [ran]
    simp only [resolves]
    have last := openTransport_leaves id a kind plan t
    rcases openTransport_decided a kind plan t with ⟨works', ⟨⟩, u, ran'⟩ | ⟨fails, e, u, ran'⟩
    · obtain rfl : u = t := by rwa [after_of_ok ran'] at last
      exact .inl ⟨works', by rw [ran']; rfl⟩
    · obtain rfl : u = t := by rwa [after_of_error ran'] at last
      exact .inr ⟨fails, e, by rw [ran']⟩
  · have gone : t.dropInterface tun = s.dropInterface tun := by
      simpa only [after_of_error ran] using configureTun_leaves a plan tun s
    exact .inl ⟨fails, e, t, by rw [ran], gone⟩

omit [Externals] in
theorem createTun_cases (s : System) :
    (∃ tun, a.createTun = .ok tun ∧ s.interfaces tun = none ∧
      (createTun a).run s = .ok tun (s.createInterface tun)) ∨
    ((∀ tun, a.createTun = .ok tun → s.interfaces tun ≠ none) ∧
      ∃ e, (createTun a).run s = .error e s) := by
  rw [createTun]
  cases a.createTun with
  | error e => exact .inr ⟨nofun, _, rfl⟩
  | ok tun =>
    simp only [EStateM.run_bind, EStateM.run_get]
    cases taken : s.interfaces tun with
    | none => exact .inl ⟨tun, rfl, taken, rfl⟩
    | some addresses => exact .inr ⟨fun other same => by cases same; simp [taken], _, rfl⟩

omit [Externals] in
theorem resolveEndpoint_decided (endpoint : String) :
    Decided (∃ addr rest, a.resolve = .ok (addr :: rest)) (resolveEndpoint a endpoint) := by
  rw [resolveEndpoint]
  split
  · rename_i failed
    exact (Decided.throw _).congr (by simp [failed])
  · rename_i none
    exact (Decided.throw _).congr (by simp [none])
  · rename_i found
    exact (Decided.pure _).congr (by simp [found])

omit [Externals] in
theorem resolveEndpoint_leaves (endpoint : String) : Leaves id (resolveEndpoint a endpoint) := by
  rw [resolveEndpoint]
  split
  · exact .throw _
  · exact .throw _
  · exact .pure _

/-- Either there is no device to be had, or all of the rest happens with it. -/
theorem establish_run (s : System) :
    ((∀ tun, ¬ a.ReachesDns plan tun s) ∧ ∃ e, (establish platform a kind plan).run s = .error e s) ∨
    ∃ tun, (∃ addr rest, a.resolve = .ok (addr :: rest)) ∧ a.createTun = .ok tun ∧
      s.interfaces tun = none ∧ (establish platform a kind plan).run s =
        match (bringUp platform a kind plan tun).run (s.createInterface tun) with
        | .ok dnsState t => .ok (tun, dnsState) t
        | .error e t => .error e (t.dropInterface tun) := by
  simp only [establish, EStateM.run_bind]
  have still := resolveEndpoint_leaves a plan.endpoint s
  rcases resolveEndpoint_decided a plan.endpoint s with ⟨found, addr, t, ran⟩ | ⟨lost, e, t, ran⟩
  case inr =>
    obtain rfl : t = s := by simpa [after_of_error ran] using still
    exact .inl ⟨fun tun reaches => lost reaches.resolve, e, by rw [ran]⟩
  obtain rfl : t = s := by simpa [after_of_ok ran] using still
  rw [ran]
  simp only
  rcases createTun_cases a t with ⟨tun, given, fresh, made⟩ | ⟨refused, e, made⟩
  case inr =>
    exact .inl ⟨fun tun reaches => refused tun reaches.createTun reaches.fresh, e, by rw [made]⟩
  refine .inr ⟨tun, found, given, fresh, ?_⟩
  rw [made]
  simp only [run_holding]
  cases (bringUp platform a kind plan tun).run (t.createInterface tun) <;> rfl

theorem establish_cases {s : System} (wellFormed : s.WellFormed) :
    ((∀ tun, ¬ a.ReachesDns plan tun s) ∧ ∃ e, (establish platform a kind plan).run s = .error e s) ∨
    ∃ tun dnsState t, a.ReachesDns plan tun s ∧ DnsDone platform a plan s dnsState t ∧
      ((a.Finishes ∧ (establish platform a kind plan).run s = .ok (tun, dnsState) t ∧
          Established s tun t) ∨
        (¬ a.Finishes ∧ t.network = s.network ∧
          ∃ e, (establish platform a kind plan).run s = .error e t)) := by
  rcases establish_run platform a kind plan s with early | ⟨tun, found, given, fresh, ran⟩
  · exact .inl early
  rw [ran]
  have undone := System.dropInterface_createInterface wellFormed fresh
  have settings (k : Setting) : k.get (s.createInterface tun) = k.get s := by cases k <;> rfl
  rcases bringUp_cases platform a kind plan tun (s.createInterface tun) with
    ⟨fails, e, u, ran', gone⟩ | ⟨works, dnsState, u, network, there, done, ends⟩
  · refine .inl ⟨fun other reaches => fails reaches.configures, e, ?_⟩
    simp only [ran', gone, undone]
  · replace done := done.congr settings
    have reaches : a.ReachesDns plan tun s := ⟨found, given, fresh, works⟩
    rw [undone] at network
    rcases ends with ⟨finishes, ran'⟩ | ⟨breaks, e, ran'⟩
    · refine .inr ⟨tun, dnsState, u, reaches, done, .inl ⟨finishes, ?_, fresh, network, ?_⟩⟩
      · simp only [ran']
      · rw [there]
        simp [System.createInterface]
    · refine .inr ⟨tun, dnsState, u.dropInterface tun, reaches,
        ⟨fun k => ?_, done.saved, done.held⟩, .inr ⟨breaks, network, e, ?_⟩⟩
      · rw [k.get_dropInterface, done.settings]
      · simp only [ran']

/-- Whether a device comes of it does not depend on the kernel being consistent. -/
theorem establish_ok_iff (s : System) :
    (∃ made t, (establish platform a kind plan).run s = .ok made t) ↔
      ∃ tun, a.ReachesDns plan tun s ∧ a.Finishes := by
  rcases establish_run platform a kind plan s with ⟨early, e, ran⟩ | ⟨tun, found, given, fresh, ran⟩
  · simp [ran, early]
  have only (other : String) (reaches : a.ReachesDns plan other s) : other = tun :=
    Except.ok.inj (reaches.createTun.symm.trans given)
  rcases bringUp_cases platform a kind plan tun (s.createInterface tun) with
    ⟨fails, e, u, ran', _⟩ | ⟨works, dnsState, u, _, _, _, ⟨finishes, ran'⟩ | ⟨breaks, e, ran'⟩⟩
  · rw [ran, ran']
    exact iff_of_false nofun fun ⟨_, reaches, _⟩ => fails reaches.configures
  · rw [ran, ran']
    exact iff_of_true ⟨_, _, rfl⟩ ⟨tun, ⟨found, given, fresh, works⟩, finishes⟩
  · rw [ran, ran']
    exact iff_of_false nofun fun ⟨_, _, finishes⟩ => breaks finishes

variable (name : String)

variable {platform a kind name plan} in
theorem up_of_plan {w : World} (planned : w.manager.plan name = .ok plan) :
    (up platform a name kind).run w =
      match (establish platform a kind plan).run w.system with
      | .error e s => .error e { w with system := s }
      | .ok (tun, dnsState) s =>
        .ok () ({ w with system := s }.insert name ⟨kind, tun, plan.peer.endpoint, dnsState⟩) := by
  rw [EStateM.run, up]
  exact planned ▸ rfl

variable {platform a kind name} in
theorem up_error {w t : World} {e : WgError}
    (failed : (up platform a name kind).run w = .error e t) : t.manager = w.manager := by
  simp only [EStateM.run, up] at failed
  split at failed
  · cases failed
    rfl
  · split at failed <;> cases failed
    rfl

theorem up_ok_iff (w : World) :
    (∃ t, (up platform a name kind).run w = .ok () t) ↔
      ∃ plan tun, w.manager.plan name = .ok plan ∧ a.ReachesDns plan tun w.system ∧ a.Finishes := by
  cases planned : w.manager.plan name with
  | error e =>
    have ran : (up platform a name kind).run w = .error e w := by
      simp only [EStateM.run, up, planned]
    simp [ran]
  | ok plan =>
    simp only [Except.ok.injEq, exists_and_left, exists_eq_left']
    rw [← establish_ok_iff platform a kind plan, up_of_plan planned]
    cases (establish platform a kind plan).run w.system with
    | ok made t => exact iff_of_true ⟨_, rfl⟩ ⟨_, _, rfl⟩
    | error e t => exact iff_of_false nofun nofun

/-- Where DNS is not reached nothing changes; where it is, the last two steps decide. -/
theorem up_cases {w : World} (wellFormed : w.system.WellFormed) :
    ((∀ plan tun, w.manager.plan name = .ok plan → ¬ a.ReachesDns plan tun w.system) ∧
      ∃ e, (up platform a name kind).run w = .error e w) ∨
    ∃ plan tun dnsState t, w.manager.plan name = .ok plan ∧ a.ReachesDns plan tun w.system ∧
      DnsDone platform a plan w.system dnsState t ∧
      ((a.Finishes ∧ Established w.system tun t ∧ (up platform a name kind).run w =
          .ok () ({ w with system := t }.insert name ⟨kind, tun, plan.peer.endpoint, dnsState⟩)) ∨
        (¬ a.Finishes ∧ t.network = w.system.network ∧
          ∃ e, (up platform a name kind).run w = .error e { w with system := t })) := by
  cases planned : w.manager.plan name with
  | error e => exact .inl ⟨nofun, e, by simp only [EStateM.run, up, planned]⟩
  | ok plan =>
    rw [up_of_plan planned]
    rcases establish_cases platform a kind plan wellFormed with
      ⟨early, e, ran⟩ | ⟨tun, dnsState, t, reaches, done, ⟨finishes, ran, there⟩ | ⟨breaks, network, e, ran⟩⟩ <;>
      rw [ran]
    · refine .inl ⟨fun plan' tun same => ?_, e, rfl⟩
      cases same
      exact early tun
    · exact .inr ⟨plan, tun, dnsState, t, rfl, reaches, done, .inl ⟨finishes, there, rfl⟩⟩
    · exact .inr ⟨plan, tun, dnsState, t, rfl, reaches, done, .inr ⟨breaks, network, e, rfl⟩⟩

end

end FerroWg.Tunnel
