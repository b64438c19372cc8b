import FerroWg.Tunnel.BringUp

/-!
# A failed bring-up

Whatever step fails, the device takes its addresses and routes with it. DNS is set up before the
last two steps, and the token that would undo it is lost when one of them fails.
-/

namespace FerroWg.Tunnel

open Lib Lib.Undo

/-- The connections, the routes and the DNS settings are what they were. -/
structure NoTrace (w t : World) : Prop where
  manager : t.manager = w.manager
  routes : t.system.routes = w.system.routes
  settings : ∀ k : Setting, k.get t.system = k.get w.system

section

variable [Externals]

/-- DNS is reached, has a setting to change, and the socket or the backend fails. -/
def LosesDns (platform : Platform) (a : UpAnswers) (name : String) (w : World) : Prop :=
  ∃ plan tun, w.manager.plan name = .ok plan ∧ a.ReachesDns plan tun w.system ∧ ¬ a.Finishes ∧
    ∃ k : Setting, applied (plan.dnsChange platform a k) (k.get w.system) ≠ k.get w.system

/-- A failed bring-up leaves no trace exactly when no DNS change is lost in it. -/
theorem failed_up_no_trace_iff (platform : Platform) (a : UpAnswers) (name : String)
    (kind : BackendKind) (w : World) (wellFormed : w.system.WellFormed) :
    (∀ e t, (up platform a name kind).run w = .error e t → NoTrace w t) ↔
      ¬ LosesDns platform a name w := by
  rcases up_cases platform a kind name wellFormed with
    ⟨early, e, ran⟩ | ⟨plan, tun, dnsState, t, planned, reaches, done, ends⟩
  · refine iff_of_true (fun e' t failed => ?_) ?_
    · rw [ran] at failed
      cases failed
      exact ⟨rfl, rfl, fun _ => rfl⟩
    · rintro ⟨plan, tun, planned, reaches, _⟩
      exact early plan tun planned reaches
  rcases ends with ⟨finishes, _, ran⟩ | ⟨breaks, network, e, ran⟩ <;> rw [ran]
  · apply iff_of_true (fun e' t failed => by cases failed)
    rintro ⟨_, _, _, _, breaks, _⟩
    exact breaks finishes
  · have routes : t.routes = w.system.routes := congrArg (·.2.1) network
    constructor
    · rintro clean ⟨plan', _, planned', _, _, k, changed⟩
      obtain rfl : plan = plan' := Except.ok.inj (planned.symm.trans planned')
      have kept := (clean e _ rfl).settings k
      exact changed ((done.settings k).symm.trans kept)
    · intro keeps e' t' failed
      cases failed
      refine ⟨rfl, routes, fun k => ?_⟩
      by_contra changed
      rw [done.settings k] at changed
      exact keeps ⟨plan, tun, planned, reaches, breaks, k, changed⟩

end

open TunnelSample in
/-- The backend is missing, and there is no DNS to set up. -/
theorem failed_up_no_trace_without_dns :
    let config := AppConfig.insert default "home" (wgWith [] ["10.0.0.0/8"])
    let a := { upAnswers "utun4" with compiledIn := false }
    ∀ e t, (@up externals .macos a "home" .neptun).run (worldOf config) = .error e t →
      NoTrace (worldOf config) t := by
  intro config a
  refine (@failed_up_no_trace_iff externals .macos a "home" .neptun (worldOf config)
    (worldOf_wellFormed config)).mpr ?_
  rintro ⟨plan, tun, planned, _, _, k, changed⟩
  have same : (worldOf config).manager.plan "home" = .ok ⟨wgWith [] ["10.0.0.0/8"],
      (wgWith [] ["10.0.0.0/8"]).peers.head (by decide), "192.0.2.9:51820"⟩ := by rfl
  obtain rfl := Except.ok.inj (same.symm.trans planned)
  cases k <;> simp [Plan.dnsChange, dnsChange, applied, wgWith] at changed

open TunnelSample in
/-- The port is taken: the connection is not up, and its search domain stays. -/
theorem failed_up_keeps_search_domain :
    let config := AppConfig.insert default "office" (wgWith ["corp"] [])
    let a := { upAnswers "utun4" with bindUdp := some "Address already in use" }
    ∃ e t, (@up externals .macos a "office" .boringtun).run (worldOf config) = .error e t ∧
      t.manager.connections.isEmpty ∧ t.system.searchDomains "Wi-Fi" = ["corp"] ∧
      ¬ NoTrace (worldOf config) t := by
  intro config a
  refine ⟨_, _, rfl, ?_, ?_, fun clean => ?_⟩
  · decide +kernel
  · decide +kernel
  · exact absurd (clean.settings (.search "Wi-Fi")) (by decide +kernel)

end FerroWg.Tunnel
