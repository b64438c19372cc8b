import FerroWg.Tunnel.BringUp

/-!
# What a tear-down does

It deletes routes by their CIDR alone, as the configuration lists them now, and writes the
settings back when no other connection has a token.
-/

namespace FerroWg.Tunnel

open Lib Lib.Undo

/-- One of the listed CIDRs, and the command that deletes it works. -/
def DownAnswers.Deletes (a : DownAnswers) (listed : List String) (cidr : String) : Prop :=
  ∃ i, listed[i]? = some cidr ∧ a.removeRoute i = .done

def System.withoutRoutes (s : System) (gone : String → Prop) [DecidablePred gone] : System :=
  { s with routes := fun cidr => if gone cidr then none else s.routes cidr }

theorem removeRoute_system (answer : Answer) (cidr : String) (s : System) :
    after (removeRoute answer cidr) s = s.withoutRoutes fun other => other = cidr ∧ answer = .done := by
  have same : s.withoutRoutes (fun other => other = cidr ∧ False) = s := by
    simp [System.withoutRoutes]
  cases answer with
  | done =>
    simp only [and_true]
    refine congrArg (fun routes => { s with routes := routes }) (funext fun other => ?_)
    exact Function.update_apply ..
  | failed stderr =>
    simp only [removeRoute, reduceCtorEq, same]
    split <;> rfl
  | notRun e =>
    simp only [reduceCtorEq, same]
    rfl

open Classical in
/-- The deletions one after the other come to one deletion. -/
theorem removeRoutes_system (a : DownAnswers) (listed : List String) (s : System) :
    after (removeRoutes a listed) s = s.withoutRoutes (a.Deletes listed) := by
  have each (calls : List (String × Nat)) (s : System) :
      after (calls.forM fun c => passOver (removeRoute (a.removeRoute c.2) c.1) () : Os WgError Unit) s =
        s.withoutRoutes fun cidr => ∃ i, (cidr, i) ∈ calls ∧ a.removeRoute i = .done := by
    induction calls generalizing s with
    | nil =>
      simp only [System.withoutRoutes, List.not_mem_nil, false_and, exists_false, if_false]
      rfl
    | cons call rest ih =>
      obtain ⟨called, index⟩ := call
      refine (after_passOver_bind _ _ s).trans ((ih _).trans ?_)
      rw [removeRoute_system]
      simp only [System.withoutRoutes, System.mk.injEq, true_and, and_true]
      funext cidr
      by_cases later : ∃ i, (cidr, i) ∈ rest ∧ a.removeRoute i = .done
      · obtain ⟨i, member, works⟩ := later
        rw [if_pos ⟨i, member, works⟩, if_pos ⟨i, List.mem_cons_of_mem _ member, works⟩]
      · rw [if_neg later]
        refine if_congr ⟨?_, ?_⟩ rfl rfl
        · rintro ⟨rfl, works⟩
          exact ⟨index, List.mem_cons_self, works⟩
        · rintro ⟨i, member, works⟩
          rcases List.mem_cons.mp member with same | member
          · cases same
            exact ⟨rfl, works⟩
          · exact absurd ⟨i, member, works⟩ later
  rw [removeRoutes, each]
  congr 1
  funext cidr
  simp only [DownAnswers.Deletes, List.mem_zipIdx_iff_getElem?]

/-- The token that a connection would undo its DNS with. -/
def World.token (w : World) (name : String) : Option DnsState :=
  (w.connection name).bind ActiveConnection.dnsState

theorem any_token (others : BTreeMap ActiveConnection) :
    others.toList.any (·.2.dnsState.isSome) = true ↔
      ∃ name : String, (others[name]?.bind ActiveConnection.dnsState).isSome := by
  simp only [List.any_eq_true, Prod.exists, Std.ExtTreeMap.mem_toList_iff_getElem?_eq_some]
  constructor
  · rintro ⟨name, conn, there, held⟩
    exact ⟨name, by simpa [there] using held⟩
  · rintro ⟨name, held⟩
    cases there : others[name]? with
    | none => simp [there] at held
    | some conn => exact ⟨name, conn, there, by simpa [there] using held⟩

theorem System.WellFormed.withoutRoutes {s : System} (wellFormed : s.WellFormed)
    (gone : String → Prop) [DecidablePred gone] : (s.withoutRoutes gone).WellFormed where
  routed cidr iface through := by
    simp only [System.withoutRoutes] at through
    split at through
    · cases through
    · exact wellFormed.routed cidr iface through
  linked := wellFormed.linked

section

variable [Externals] (a : DownAnswers) (name : String)

theorem removeDns_wellFormed {s : System} (wellFormed : s.WellFormed) (answers : DnsAnswers)
    (st : DnsState) : (after (removeDns answers st) s).WellFormed := by
  cases st with
  | service service dns search =>
    have kept : Leaves System.network (removeDns answers (.service service dns search)) :=
      .bind (restoreSetting_leaves dns _ fun _ _ => rfl) fun _ =>
        restoreSetting_leaves search _ fun _ _ => rfl
    exact wellFormed.congr (kept s)
  | resolvConf backup =>
    have kept : Leaves System.network (removeDns answers (.resolvConf backup)) :=
      .bind (access_leaves _ _) fun _ => .modify fun _ => rfl
    exact wellFormed.congr (kept s)
  | resolved iface =>
    cases ran : answers.linkDns with
    | done =>
      have reset : after (removeDns answers (.resolved iface)) s =
          s.setLink iface fun _ => ⟨[], []⟩ := by
        simp only [removeDns, ran]
        rfl
      rw [reset]
      refine ⟨wellFormed.routed, fun other missing => ?_⟩
      by_cases same : other = iface
      · rw [same]
        exact Function.update_self ..
      · exact (Function.update_of_ne same ..).trans (wellFormed.linked other missing)
    | failed | notRun =>
      have still : after (removeDns answers (.resolved iface)) s = s := by
        simp only [removeDns, ran]
        rfl
      rwa [still]

theorem revertDns_leaves (answers : DnsAnswers) (dnsState : Option DnsState)
    (others : BTreeMap ActiveConnection) :
    Leaves (fun s => (s.interfaces, s.routes)) (revertDns answers dnsState others) := by
  unfold revertDns
  split
  · exact .pure _
  · split
    · exact .pure _
    · exact .passOver (removeDns_leaves (fun _ => ⟨fun _ _ _ => rfl, fun _ _ _ => rfl,
        fun _ _ => rfl, fun _ _ => rfl⟩) _ _) ()

theorem revertDns_skipped {answers : DnsAnswers} {dnsState : Option DnsState}
    {others : BTreeMap ActiveConnection} (busy : others.toList.any (·.2.dnsState.isSome) = true)
    (s : System) : after (revertDns answers dnsState others) s = s := by
  unfold revertDns
  cases dnsState with
  | none => rfl
  | some st =>
    simp only [busy, if_true]
    rfl

theorem revertDns_done (answers : DnsAnswers) (dnsState : Option DnsState)
    {others : BTreeMap ActiveConnection} (free : ¬ others.toList.any (·.2.dnsState.isSome) = true)
    (s : System) :
    after (revertDns answers dnsState others) s =
      dnsState.elim s fun st => after (removeDns answers st) s := by
  unfold revertDns
  cases dnsState with
  | none => rfl
  | some st =>
    simp only [free, Bool.false_eq_true, if_false]
    exact after_passOver _ _ _

/-- What a tear-down leaves of the world, as long as the device is not let go of. -/
structure TornDown (conn : ActiveConnection) (w t : World) : Prop where
  config : t.manager.config = w.manager.config
  connection : ∀ other, t.connection other = if other = name then none else w.connection other
  closing : t.closing = conn.tunName :: w.closing
  interfaces : t.system.interfaces = w.system.interfaces
  routes : ∀ cidr, (a.Deletes (w.manager.listedRoutes name) cidr → t.system.routes cidr = none) ∧
    (¬ a.Deletes (w.manager.listedRoutes name) cidr → t.system.routes cidr = w.system.routes cidr)
  skipped : (∃ other ≠ name, (w.token other).isSome) → ∀ k : Setting, k.get t.system = k.get w.system
  reverted : a.dns.Reverts → (∀ other ≠ name, w.token other = none) → ∀ k : Setting,
    k.get t.system = (conn.dnsState.bind (·.saved k)).getD (k.get w.system)
  wellFormed : w.system.WellFormed → t.system.WellFormed

theorem down_cases (w : World) :
    (w.connection name = none ∧ ∃ e, (down a name).run w = .error e w) ∨
    ∃ conn t, w.connection name = some conn ∧ TornDown a name conn w t ∧
      (down a name).run w = .ok () (if a.reaped then letGo conn.tunName t else t) := by
  classical
  cases there : w.connection name with
  | none =>
    have ran : (down a name).run w = .error (.tunnel s!"connection {name} is not up") w := by
      simp only [EStateM.run, down, there]
    exact .inl ⟨rfl, _, ran⟩
  | some conn =>
    let others := w.manager.connections.erase name
    let s := after (removeRoutes a (w.manager.listedRoutes name)) w.system
    let t := after (revertDns a.dns conn.dnsState others) s
    refine .inr ⟨conn, { w with
      manager := { w.manager with connections := others }
      system := t
      closing := conn.tunName :: w.closing }, rfl, ?_, by simp only [EStateM.run, down, there]; rfl⟩
    have unrouted : s = w.system.withoutRoutes (a.Deletes (w.manager.listedRoutes name)) :=
      removeRoutes_system ..
    have settings (k : Setting) : k.get s = k.get w.system := by
      rw [unrouted]
      cases k <;> rfl
    have connection (other : String) :
        others[other]? = if other = name then none else w.connection other := by
      rw [Std.ExtTreeMap.getElem?_erase]
      by_cases same : name = other
      · simp [same]
      · simp [same, Ne.symm same, World.connection]
    have kept := revertDns_leaves a.dns conn.dnsState others s
    have held : others.toList.any (·.2.dnsState.isSome) = true ↔
        ∃ other ≠ name, (w.token other).isSome := by
      rw [any_token]
      refine exists_congr fun other => ?_
      rw [connection]
      by_cases same : other = name <;> simp [same, World.token]
    refine ⟨rfl, connection, rfl, (congrArg Prod.fst kept).trans (by rw [unrouted]; rfl),
      fun cidr => ?_, fun busy k => ?_, fun reverts free k => ?_, fun wellFormed => ?_⟩
    · have routes : t.routes cidr = s.routes cidr := congrFun (congrArg Prod.snd kept) cidr
      rw [routes, unrouted]
      exact ⟨fun gone => if_pos gone, fun stays => if_neg stays⟩
    · exact (congrArg k.get (revertDns_skipped (held.mpr busy) s)).trans (settings k)
    · have free' : ¬ others.toList.any (·.2.dnsState.isSome) = true := by
        rw [held]
        rintro ⟨other, apart, holds⟩
        simp [free other apart] at holds
      apply (congrArg k.get (revertDns_done a.dns conn.dnsState free' s)).trans
      rw [← settings]
      cases conn.dnsState with
      | none => rfl
      | some st => exact removeDns_settings reverts st s k
    · have wellFormed' : s.WellFormed := by
        rw [unrouted]
        exact wellFormed.withoutRoutes _
      change t.WellFormed
      by_cases busy : others.toList.any (·.2.dnsState.isSome) = true
      · rwa [show t = s from revertDns_skipped busy s]
      · rw [show t = _ from revertDns_done a.dns conn.dnsState busy s]
        cases conn.dnsState with
        | none => exact wellFormed'
        | some st => exact removeDns_wellFormed wellFormed' a.dns st

end

end FerroWg.Tunnel
