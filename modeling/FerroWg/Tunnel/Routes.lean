import FerroWg.Tunnel.Events

/-!
# Which routes a tear-down removes

Every device belongs to one connection, or to a packet loop that was told to stop. The routes
that a bring-up installed are noted beside the state, to be compared with those that go.
-/

namespace FerroWg.Tunnel

open Lib

/-- The devices of the connections and of the packet loops are there, and all different. -/
structure Devices (w : World) : Prop where
  there : ∀ name conn, w.connection name = some conn → (w.system.interfaces conn.tunName).isSome
  single : ∀ name other conn conn', w.connection name = some conn →
    w.connection other = some conn' → conn.tunName = conn'.tunName → name = other
  closing : ∀ tun ∈ w.closing, (w.system.interfaces tun).isSome
  apart : ∀ name conn, w.connection name = some conn → conn.tunName ∉ w.closing
  nodup : w.closing.Nodup

theorem Devices.insert {w : World} (devices : Devices w) {conn : ActiveConnection} {s : System}
    (new : Established w.system conn.tunName s) (name : String) :
    Devices ({ w with system := s }.insert name conn) := by
  have other {tun : String} (old : (w.system.interfaces tun).isSome) : tun ≠ conn.tunName := by
    rintro rfl
    rw [new.fresh] at old
    cases old
  have stays {tun : String} (old : (w.system.interfaces tun).isSome) :
      (s.interfaces tun).isSome := by
    rwa [new.parts.1 tun (other old)]
  refine ⟨fun n c up => ?_, fun n m c d up up' same => ?_, fun tun member => ?_,
    fun n c up => ?_, devices.nodup⟩
  · rw [World.connection_insert] at up
    split at up
    · cases up
      exact new.there
    · exact stays (devices.there n c up)
  · rw [World.connection_insert] at up up'
    split at up <;> split at up'
    · rename_i here here'
      rw [here, here']
    · cases up
      exact absurd same.symm (other (devices.there m d up'))
    · cases up'
      exact absurd same (other (devices.there n c up))
    · exact devices.single n m c d up up' same
  · exact stays (devices.closing tun member)
  · rw [World.connection_insert] at up
    split at up
    · cases up
      exact fun member => other (devices.closing _ member) rfl
    · exact devices.apart n c up

theorem Devices.letGo {w : World} (devices : Devices w) {tun : String} (member : tun ∈ w.closing) :
    Devices (letGo tun w) := by
  have stays {other : String} (old : (w.system.interfaces other).isSome) (apart : other ≠ tun) :
      ((w.system.dropInterface tun).interfaces other).isSome := by
    simpa only [System.dropInterface, Function.update_of_ne apart] using old
  refine ⟨fun n c up => ?_, devices.single, fun other there => ?_, fun n c up there => ?_,
    devices.nodup.erase tun⟩
  · exact stays (devices.there n c up) fun same => devices.apart n c up (same ▸ member)
  · obtain ⟨apart, there⟩ := devices.nodup.mem_erase_iff.mp there
    exact stays (devices.closing other there) apart
  · exact devices.apart n c up (List.mem_of_mem_erase there)

section

variable [Externals] (platform : Platform)

theorem Devices.tornDown {w t : World} (devices : Devices w) {a : DownAnswers} {name : String}
    {conn : ActiveConnection} (up : w.connection name = some conn) (torn : TornDown a name conn w t) :
    Devices t := by
  have old {n : String} {c : ActiveConnection} (still : t.connection n = some c) :
      n ≠ name ∧ w.connection n = some c := by
    rw [torn.connection] at still
    split at still
    · cases still
    · exact ⟨‹_›, still⟩
  refine ⟨fun n c still => ?_, fun n m c d still still' => ?_, fun tun member => ?_,
    fun n c still member => ?_, ?_⟩
  · rw [torn.interfaces]
    exact devices.there n c (old still).2
  · exact devices.single n m c d (old still).2 (old still').2
  · rw [torn.interfaces]
    rw [torn.closing] at member
    rcases List.mem_cons.mp member with rfl | member
    · exact devices.there name conn up
    · exact devices.closing tun member
  · obtain ⟨other, still⟩ := old still
    rw [torn.closing] at member
    rcases List.mem_cons.mp member with same | member
    · exact other (devices.single n name c conn still up same)
    · exact devices.apart n c still member
  · rw [torn.closing]
    exact List.nodup_cons.mpr ⟨devices.apart name conn up, devices.nodup⟩

/-- The CIDRs that each connection has installed, in its last bring-up. -/
abbrev Installed := String → String → Prop

/-- What a bring-up installs is what the table gains by it. -/
def noteInstalled (w : World) (event : Event) (installed : Installed) : Installed :=
  match event with
  | .up name kind a =>
    match (up platform a name kind).run w with
    | .ok _ t => Function.update installed name fun cidr =>
      w.system.routes cidr = none ∧ t.system.routes cidr ≠ none
    | .error _ _ => installed
  | _ => installed

abbrev tracedRoutes := instrument (stepEvent platform) (noteInstalled platform)

/-- A tear-down takes from the table the routes that the connection has installed, and no other. -/
def RemovesInstalled (s : World × Installed) : Event → Prop
  | .down name a => ∀ conn, s.1.connection name = some conn → ∀ cidr,
    let installed := s.2 name cidr ∧ s.1.system.routes cidr = some conn.tunName
    let routes := (after (down a name) s.1).system.routes
    (installed → routes cidr = none) ∧ (¬ installed → routes cidr = s.1.system.routes cidr)
  | _ => True

/-- The CIDRs that are deleted lead through the device of the connection, if they lead anywhere;
and all that lead through it are deleted, unless the device is let go of at once. -/
def DeletesOwn (w : World) : Event → Prop
  | .down name a => ∀ conn, w.connection name = some conn →
    (∀ cidr, a.Deletes (w.manager.listedRoutes name) cidr →
      w.system.routes cidr = none ∨ w.system.routes cidr = some conn.tunName) ∧
    (a.reaped ∨ ∀ cidr, w.system.routes cidr = some conn.tunName →
      a.Deletes (w.manager.listedRoutes name) cidr)
  | _ => True

/-- What leads through the device of a connection was installed by it. -/
structure RoutesNoted (s : World × Installed) : Prop where
  wellFormed : s.1.system.WellFormed
  devices : Devices s.1
  noted : ∀ name conn, s.1.connection name = some conn → ∀ cidr,
    s.1.system.routes cidr = some conn.tunName → s.2 name cidr

omit [Externals] in
theorem RoutesNoted.letGo {w : World} {installed : Installed} (noted : RoutesNoted (w, installed))
    {tun : String} (member : tun ∈ w.closing) : RoutesNoted (letGo tun w, installed) := by
  refine ⟨noted.wellFormed.dropInterface tun, noted.devices.letGo member, fun name conn up cidr through => ?_⟩
  apply noted.noted name conn up cidr
  simp only [Tunnel.letGo, System.dropInterface] at through
  split at through
  · cases through
  · exact through

theorem RoutesNoted.tornDown {w t : World} {installed : Installed}
    (noted : RoutesNoted (w, installed)) {a : DownAnswers} {name : String} {conn : ActiveConnection}
    (up : w.connection name = some conn) (torn : TornDown a name conn w t) :
    RoutesNoted (t, installed) := by
  refine ⟨torn.wellFormed noted.wellFormed, noted.devices.tornDown up torn, fun n c still cidr through => ?_⟩
  have up' : w.connection n = some c := by
    have old := torn.connection n
    rw [still] at old
    split at old
    · cases old
    · exact old.symm
  have kept : ¬ a.Deletes (w.manager.listedRoutes name) cidr := fun gone => by
    have none := (torn.routes cidr).1 gone
    rw [through] at none
    cases none
  exact noted.noted n c up' cidr ((torn.routes cidr).2 kept ▸ through)

theorem routesNoted_up {w : World} {installed : Installed} (noted : RoutesNoted (w, installed))
    (name : String) (kind : BackendKind) (a : UpAnswers) :
    RoutesNoted (after (up platform a name kind) w,
      noteInstalled platform w (.up name kind a) installed) := by
  obtain ⟨wellFormed, devices, owned⟩ := noted
  simp only at wellFormed devices owned
  simp only [noteInstalled]
  rcases up_cases platform a kind name wellFormed with
    ⟨_, e, ran⟩ | ⟨plan, tun, dnsState, s, _, _, _, ⟨_, there, ran⟩ | ⟨_, network, e, ran⟩⟩
  · simp only [after_of_error ran, ran]
    exact ⟨wellFormed, devices, owned⟩
  · simp only [after_of_ok ran, ran]
    refine ⟨there.wellFormed wellFormed, devices.insert there name, fun n c up cidr through => ?_⟩
    obtain ⟨_, routes, gained, _⟩ := there.parts
    replace through : s.routes cidr = some c.tunName := through
    simp only [World.connection_insert] at up
    split at up
    · rename_i here
      cases up
      simp only [here, Function.update_self]
      exact ⟨gained cidr through, fun none => by cases none.symm.trans through⟩
    · rename_i other
      simp only [Function.update_of_ne other]
      have apart : c.tunName ≠ tun := fun same => by
        have old := devices.there n c up
        rw [same, there.fresh] at old
        cases old
      refine owned n c up cidr ((routes cidr fun mine => ?_).symm.trans through)
      exact apart (Option.some.inj (through.symm.trans mine))
  · simp only [after_of_error ran, ran]
    obtain ⟨interfaces, routes, _⟩ : s.interfaces = w.system.interfaces ∧ s.routes = w.system.routes ∧
        s.links = w.system.links := by simpa [System.network] using network
    exact ⟨wellFormed.congr network,
      ⟨fun n c up => by rw [interfaces]; exact devices.there n c up, devices.single,
        fun tun member => by rw [interfaces]; exact devices.closing tun member, devices.apart,
        devices.nodup⟩,
      fun n c up cidr through => owned n c up cidr (by rwa [routes] at through)⟩

theorem routesNoted_step {s next : World × Installed} {event : Event} (noted : RoutesNoted s)
    (taken : tracedRoutes platform s event = some next) : RoutesNoted next := by
  obtain ⟨w, installed⟩ := s
  obtain ⟨stepped, same⟩ := instrument_some.mp taken
  rw [← Prod.mk.eta (p := next), same]
  cases event with
  | up name kind a =>
    rw [← Option.some.inj stepped]
    exact routesNoted_up platform noted name kind a
  | down name a =>
    rw [← Option.some.inj stepped]
    rcases down_cases a name w with ⟨_, e, ran⟩ | ⟨conn, t, up, torn, ran⟩
    · rw [after_of_error ran]
      exact noted
    · rw [after_of_ok ran]
      have noted := noted.tornDown up torn
      split
      · exact noted.letGo (by rw [torn.closing]; exact List.mem_cons_self)
      · exact noted
  | reloadConfig config =>
    rw [← Option.some.inj stepped]
    exact ⟨noted.wellFormed, ⟨noted.devices.there, noted.devices.single, noted.devices.closing,
      noted.devices.apart, noted.devices.nodup⟩, noted.noted⟩
  | letGo tun =>
    simp only [stepEvent] at stepped
    split at stepped
    · rw [← Option.some.inj stepped]
      exact noted.letGo ‹_›
    · cases stepped

/-- A tear-down removes exactly what was installed if and only if it deletes its own. -/
theorem removesInstalled_iff {s : World × Installed} (noted : RoutesNoted s) (event : Event) :
    RemovesInstalled s event ↔ DeletesOwn s.1 event := by
  cases event with
  | up | reloadConfig | letGo => exact Iff.rfl
  | down name a =>
    refine forall_congr' fun conn => imp_congr_right fun up => ?_
    rw [← forall_or_left, ← forall_and]
    refine forall_congr' fun cidr => ?_
    rcases down_cases a name s.1 with ⟨missing, _⟩ | ⟨conn', t, up', torn, ran⟩
    · rw [missing] at up
      cases up
    obtain rfl : conn' = conn := Option.some.inj (up'.symm.trans up)
    have routes : (after (down a name) s.1).system.routes cidr =
        if a.reaped ∧ t.system.routes cidr = some conn'.tunName then none else t.system.routes cidr := by
      rw [after_of_ok ran]
      cases a.reaped <;> simp [letGo, System.dropInterface]
    have installed : s.2 name cidr ∧ s.1.system.routes cidr = some conn'.tunName ↔
        s.1.system.routes cidr = some conn'.tunName :=
      and_iff_right_of_imp (noted.noted name conn' up cidr)
    simp only [installed, routes]
    obtain ⟨deleted, kept⟩ := torn.routes cidr
    by_cases own : s.1.system.routes cidr = some conn'.tunName
    · by_cases gone : a.Deletes (s.1.manager.listedRoutes name) cidr
      · simp [deleted gone, gone, own]
      · simp [kept gone, gone, own]
    · by_cases gone : a.Deletes (s.1.manager.listedRoutes name) cidr
      · simp [deleted gone, gone, own, eq_comm (a := none)]
      · simp [kept gone, gone, own]

/-- Every tear-down of a run removes exactly what its bring-up installed, if and only if each
deletes its own. -/
theorem teardown_exact_iff (w : World) (wellFormed : w.system.WellFormed)
    (idle : ∀ name, w.connection name = none) (settled : w.closing = []) (events : List Event) :
    Along (tracedRoutes platform) RemovesInstalled events (w, fun _ _ => False) ↔
      Along (stepEvent platform) DeletesOwn events w := by
  rw [← along_instrument (stepEvent platform) (noteInstalled platform) DeletesOwn events
    (w, fun _ _ => False)]
  refine along_congr (fun _ _ _ noted taken => routesNoted_step platform noted taken)
    (fun _ event _ noted _ => removesInstalled_iff noted event) events ?_
  refine ⟨wellFormed, ⟨?_, ?_, ?_, ?_, ?_⟩, ?_⟩ <;> simp [idle, settled]

end

open TunnelSample in
/-- The configuration is read again and is the same. -/
theorem teardown_exact_home :
    let config := AppConfig.insert default "home" (wgWith [] ["10.0.0.0/8"])
    let events : List Event := [.up "home" .boringtun (upAnswers "utun4"), .reloadConfig config,
      .down "home" downAnswers]
    Along (@tracedRoutes externals .macos) (@RemovesInstalled externals) events
      (worldOf config, fun _ _ => False) := by
  intro config events
  refine (@teardown_exact_iff externals .macos (worldOf config) (worldOf_wellFormed _) (fun _ => rfl)
    rfl events).mpr ?_
  intro t taken
  let t := reloadConfig config
    (after (@up externals .macos (upAnswers "utun4") "home" .boringtun) (worldOf config))
  have listed : t.manager.listedRoutes "home" = ["10.0.0.0/8"] := by decide +kernel
  have through : t.system.routes "10.0.0.0/8" = some "utun4" := by decide +kernel
  have there : t.connection "home" = some ⟨.boringtun, "utun4", some "192.0.2.9:51820", none⟩ := by
    decide +kernel
  obtain rfl := Option.some.inj taken
  refine ⟨trivial, fun u taken' => ⟨trivial, fun _ _ => ⟨fun conn up => ⟨fun cidr gone => ?_, .inl rfl⟩,
    trivial⟩⟩⟩
  obtain rfl : t = u := Option.some.inj taken'
  obtain ⟨i, found, _⟩ := gone
  obtain rfl : cidr = "10.0.0.0/8" := by
    rw [listed] at found
    exact List.mem_singleton.mp (List.mem_of_getElem? found)
  obtain rfl := Option.some.inj (there.symm.trans up)
  exact .inr through

open TunnelSample in
/-- The configuration has changed in between: the default route goes, and the route of the
connection stays as long as its device. -/
theorem teardown_deletes_default_route :
    let config := AppConfig.insert default "home" (wgWith [] ["10.0.0.0/8"])
    let events : List Event := [.up "home" .boringtun (upAnswers "utun4"),
      .reloadConfig (config.insert "home" (wgWith [] ["0.0.0.0/0"])),
      .down "home" { downAnswers with reaped := false }]
    ((run (@stepEvent externals .macos) events (worldOf config)).map fun t =>
        (t.system.routes "0.0.0.0/0", t.system.routes "10.0.0.0/8")) = some (none, some "utun4") ∧
      ¬ Along (@tracedRoutes externals .macos) (@RemovesInstalled externals) events
        (worldOf config, fun _ _ => False) := by
  intro config events
  refine ⟨by decide +kernel, fun along => ?_⟩
  have last := (((along _ rfl).2 _ rfl).2 _ rfl).1
  have kept := (last ⟨.boringtun, "utun4", some "192.0.2.9:51820", none⟩ (by decide +kernel)
    "0.0.0.0/0").2 fun both => absurd both.2 (by decide +kernel)
  exact absurd kept (by decide +kernel)

end FerroWg.Tunnel
