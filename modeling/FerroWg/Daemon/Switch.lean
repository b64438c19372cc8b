import FerroWg.Daemon.Commands

/-!
# Switching the backend

A switch is a `down`, whose failure is passed over, and an `up`. Nothing brings the old tunnel
back when the `up` fails.
-/

namespace FerroWg

open Lib Tunnel

/-- The backend that a connection is up on. -/
def Tunnel.World.backend (w : World) (name : String) : Option BackendKind :=
  (w.connection name).map ActiveConnection.backendKind

/-- Every step of bringing the connection up again goes well; its old device may be had again when
the packet loop has let go of it. -/
structure Restarts (a : CommandAnswers) (name : String) (w : World) (plan : Plan) (tun : String) :
    Prop where
  configured : plan.Configured w.manager.config name
  resolve : ∃ addr rest, (a.up name).resolve = .ok (addr :: rest)
  createTun : (a.up name).createTun = .ok tun
  fresh : w.system.interfaces tun = none ∨
    (a.down name).reaped = true ∧ (w.connection name).map ActiveConnection.tunName = some tun
  configures : (a.up name).Configures plan
  finishes : (a.up name).Finishes

namespace Daemon

variable [Externals]

/-- What a switch finds when it comes to the `up`. -/
theorem down_system (a : DownAnswers) (name : String) (w : World) :
    (after (down a name) w).manager.config = w.manager.config ∧
      ∀ tun, (after (down a name) w).system.interfaces tun = none ↔
        w.system.interfaces tun = none ∨
          a.reaped = true ∧ (w.connection name).map ActiveConnection.tunName = some tun := by
  rcases down_cases a name w with ⟨inactive, e, ran⟩ | ⟨conn, t, active, torn, ran⟩
  · rw [after_of_error ran, inactive]
    exact ⟨rfl, fun tun => by simp⟩
  · rw [after_of_ok ran, active]
    cases a.reaped with
    | false => exact ⟨torn.config, fun tun => by simp [torn.interfaces]⟩
    | true =>
      refine ⟨torn.config, fun tun => ?_⟩
      have dropped : (letGo conn.tunName t).system.interfaces tun =
          if tun = conn.tunName then none else w.system.interfaces tun := by
        rw [← torn.interfaces]
        exact Function.update_apply ..
      rw [if_pos rfl, dropped]
      by_cases own : tun = conn.tunName
      · simp [own]
      · simp [own, Ne.symm own]

omit [Externals] in
theorem respond_error_iff {call : Tunnel.Daemon Unit} {w : World} :
    (∃ e, (respond (call.run w)).2 = .error e) ↔ ¬ ∃ t, call.run w = .ok () t := by
  cases ran : call.run w with
  | ok u t => simp [respond]
  | error e t => simp [respond]

/-- A switch fails exactly when the connection cannot be brought up again. -/
theorem switch_error_iff (platform : Platform) (a : CommandAnswers) (name : String)
    (kind : BackendKind) (w : World) :
    (∃ e, (handleCommand platform a (.switchBackend name kind) w).2 = .error e) ↔
      ¬ ∃ plan tun, Restarts a name w plan tun := by
  obtain ⟨config, interfaces⟩ := down_system (a.down name) name w
  have gone : (after (down (a.down name) name) w).connection name = none := by
    rw [down_connection, if_pos rfl]
  simp only [handleCommand, respond_error_iff, up_ok_iff, plan_ok_iff, config]
  refine not_congr (exists₂_congr fun plan tun => ?_)
  constructor
  · rintro ⟨⟨_, configured⟩, reaches, finishes⟩
    exact ⟨configured, reaches.resolve, reaches.createTun, (interfaces tun).mp reaches.fresh,
      reaches.configures, finishes⟩
  · intro restarts
    exact ⟨⟨gone, restarts.configured⟩,
      ⟨restarts.resolve, restarts.createTun, (interfaces tun).mpr restarts.fresh,
        restarts.configures⟩, restarts.finishes⟩

/-- A failed switch takes the connection down and leaves the others alone, so that the active
connections are the same exactly when it was not up before. -/
theorem failed_switch_active (platform : Platform) (a : CommandAnswers) (name : String)
    (kind : BackendKind) (w t : World) (e : String)
    (failed : handleCommand platform a (.switchBackend name kind) w = (t, .error e)) :
    t.backend name = none ∧ (∀ other, other ≠ name → t.backend other = w.backend other) ∧
      ((∀ other, t.backend other = w.backend other) ↔ w.backend name = none) := by
  have left (other : String) : t.backend other = if other = name then none else w.backend other := by
    have kept : t.manager = (after (down (a.down name) name) w).manager := by
      simp only [handleCommand] at failed
      cases ran : (up platform (a.up name) name kind).run (after (down (a.down name) name) w) with
      | ok u s => simp [ran, respond] at failed
      | error reason s =>
        obtain rfl : s = t := congrArg Prod.fst ((congrArg respond ran).symm.trans failed)
        exact up_error ran
    have connection : t.connection other = (after (down (a.down name) name) w).connection other :=
      congrArg (fun m : TunnelManager => m.connections[other]?) kept
    simp only [World.backend, connection, down_connection]
    split <;> rfl
  refine ⟨by simp [left], fun other apart => by simp [left, apart], ?_⟩
  constructor
  · intro same
    rw [← same name, left, if_pos rfl]
  · intro inactive other
    rw [left]
    split
    · rename_i same
      rw [same, inactive]
    · rfl

end Daemon

namespace SwitchSample

open TunnelSample

def config : AppConfig := .insert default "home" (wgWith [] [])

/-- `home` is up on `utun4`. -/
def world : World :=
  (worldOf config).insert "home" ⟨.boringtun, "utun4", some "192.0.2.9:51820", none⟩

/-- Everything works but the new backend, which is not compiled in. -/
def answers : CommandAnswers where
  up := fun _ => { upAnswers "utun5" with compiledIn := false }
  down := fun _ => downAnswers
  order := []
  stats := fun _ => ⟨0, 0, none, 0, none⟩

end SwitchSample

open SwitchSample TunnelSample in
/-- Switching `work`, which the configuration does not have, leaves `home` up. -/
theorem failed_switch_active_work :
    let t := (@Daemon.handleCommand externals .macos answers (.switchBackend "work" .neptun) world).1
    ∀ other, t.backend other = world.backend other :=
  (@Daemon.failed_switch_active externals .macos answers "work" .neptun world _ _ rfl).2.2.mpr
    (by decide +kernel)

open SwitchSample TunnelSample in
/-- Switching `home` to a backend that is not compiled in takes it down. -/
theorem failed_switch_drops_home :
    ∃ t e, @Daemon.handleCommand externals .macos answers (.switchBackend "home" .neptun) world =
        (t, .error e) ∧
      world.backend "home" = some .boringtun ∧ t.backend "home" = none := by
  refine ⟨_, _, rfl, ?_, ?_⟩
  · decide +kernel
  · decide +kernel

end FerroWg
