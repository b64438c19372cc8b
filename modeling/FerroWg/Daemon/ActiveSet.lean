import FerroWg.Daemon.Commands

/-!
# The active connections

What each call of the manager answers and does to the map of active connections, whichever of
the set-ups behind it fail. The configuration may have been replaced in between, so that a name
can be active without being configured.
-/

namespace FerroWg.Tunnel

open Lib

def returned : EStateM.Result WgError World Unit → Except WgError Unit
  | .ok _ _ => .ok ()
  | .error e _ => .error e

/-- The names of `names` are active beside the old connections, which are untouched. -/
structure Extends (w : World) (names : List String) (t : World) : Prop where
  config : t.manager.config = w.manager.config
  untouched : ∀ name conn, w.connection name = some conn → t.connection name = some conn
  active : ∀ name, (t.connection name).isSome ↔ (w.connection name).isSome ∨ name ∈ names

structure UpSpec (name : String) (kind : BackendKind) (w : World) (answer : Except WgError Unit)
    (t : World) : Prop where
  refused : (w.connection name).isSome ∨ (¬ ∃ plan : Plan, plan.Configured w.manager.config name) →
    ∃ e, answer = .error e
  failed : ∀ e, answer = .error e → t.manager = w.manager
  done : answer = .ok () → t.manager.config = w.manager.config ∧
    ∃ conn plan, Plan.Configured w.manager.config name plan ∧ conn.backendKind = kind ∧
      conn.endpoint = some plan.endpoint ∧
      ∀ other, t.connection other = if other = name then some conn else w.connection other

structure DownSpec (name : String) (w : World) (answer : Except WgError Unit) (t : World) :
    Prop where
  config : t.manager.config = w.manager.config
  failed : ∀ e, answer = .error e → w.connection name = none ∧ t = w
  done : answer = .ok () → (w.connection name).isSome ∧
    ∀ other, t.connection other = if other = name then none else w.connection other

theorem Extends.refl (w : World) : Extends w [] w := ⟨rfl, fun _ _ there => there, by simp⟩

/-- A name that is active already adds nothing. -/
theorem Extends.skip {w t : World} {name : String} {names : List String}
    (active : (w.connection name).isSome) (rest : Extends w names t) :
    Extends w (name :: names) t := by
  refine ⟨rest.config, rest.untouched, fun other => ?_⟩
  rw [rest.active, List.mem_cons]
  constructor
  · rintro (old | new)
    · exact .inl old
    · exact .inr (.inr new)
  · rintro (old | rfl | new)
    · exact .inl old
    · exact .inl active
    · exact .inr new

theorem Extends.add {w middle t : World} {name : String} {conn : ActiveConnection}
    {names : List String} (inactive : w.connection name = none)
    (config : middle.manager.config = w.manager.config)
    (added : ∀ other, middle.connection other = if other = name then some conn else w.connection other)
    (rest : Extends middle names t) : Extends w (name :: names) t := by
  refine ⟨rest.config.trans config, fun other old there => ?_, fun other => ?_⟩
  · have apart : other ≠ name := by
      rintro rfl
      rw [inactive] at there
      cases there
    apply rest.untouched
    rw [added, if_neg apart, there]
  · rw [rest.active, added, List.mem_cons]
    by_cases same : other = name
    · simp [same]
    · simp [same]

/-- Only the map of the manager counts for the connections. -/
theorem Extends.of_manager {w t u : World} {names : List String} (extends' : Extends w names t)
    (same : u.manager = t.manager) : Extends w names u := by
  have connection (name : String) : u.connection name = t.connection name :=
    congrArg (fun m : TunnelManager => m.connections[name]?) same
  refine ⟨by rw [same, extends'.config], fun name conn there => ?_, fun name => ?_⟩
  · rw [connection, extends'.untouched name conn there]
  · rw [connection, extends'.active]

section

variable [Externals] (platform : Platform)

/-- When it fails, the connections before the one that failed are up, and the error is that of
this one. -/
structure UpAllSpec (kind : BackendKind) (a : String → UpAnswers) (w : World)
    (answer : Except WgError Unit) (t : World) : Prop where
  done : answer = .ok () → Extends w w.manager.config.connectionNames t
  failed : ∀ e, answer = .error e → ∃ before name rest middle,
    w.manager.config.connectionNames = before ++ name :: rest ∧ w.connection name = none ∧
      Extends w before t ∧ middle.manager = t.manager ∧
      (up platform (a name) name kind).run middle = .error e t

def returnedBy (w : World) : Call → Except WgError Unit
  | .one (.up name kind a) => returned ((up platform a name kind).run w)
  | .one (.down name a) => returned ((down a name).run w)
  | .upAll kind a => returned ((upAll platform a kind).run w)
  | .one (.reloadConfig _) | .one (.letGo _) | .downAll _ _ => .ok ()

/-- What a call owes to its caller. -/
def CallSpec (w : World) (call : Call) (answer : Except WgError Unit) (t : World) : Prop :=
  match call with
  | .one (.up name kind _) => UpSpec name kind w answer t
  | .one (.down name _) => DownSpec name w answer t
  | .upAll kind a => UpAllSpec platform kind a w answer t
  | .downAll _ _ => t.manager.config = w.manager.config ∧ ∀ name, t.connection name = none
  | .one (.reloadConfig config) => t.manager = { w.manager with config := config }
  | .one (.letGo _) => t.manager = w.manager

theorem up_spec (a : UpAnswers) (name : String) (kind : BackendKind) (w : World) :
    UpSpec name kind w (returned ((up platform a name kind).run w))
      (after (up platform a name kind) w) := by
  cases ran : (up platform a name kind).run w with
  | ok u t =>
    rw [after_of_ok ran]
    obtain ⟨plan, tun, planned, _⟩ := (up_ok_iff platform a kind name w).mp ⟨t, ran⟩
    obtain ⟨inactive, configured⟩ := (plan_ok_iff w.manager name plan).mp planned
    refine ⟨fun refused => ?_, fun _ failed => (by cases failed), fun _ => ?_⟩
    · rcases refused with active | missing
      · rw [World.connection, inactive] at active
        cases active
      · exact absurd ⟨plan, configured⟩ missing
    · rw [up_of_plan planned] at ran
      split at ran
      · cases ran
      · rename_i tun' dnsState s _
        cases ran
        exact ⟨rfl, ⟨kind, tun', plan.peer.endpoint, dnsState⟩, plan, configured, rfl,
          configured.endpoint, fun other => World.connection_insert _ name other _⟩
  | error e t =>
    rw [after_of_error ran]
    exact ⟨fun _ => ⟨e, rfl⟩, fun _ _ => up_error ran, fun done => by cases done⟩

theorem down_spec (a : DownAnswers) (name : String) (w : World) :
    DownSpec name w (returned ((down a name).run w)) (after (down a name) w) := by
  rcases down_cases a name w with ⟨inactive, e, ran⟩ | ⟨conn, t, active, torn, ran⟩
  · rw [after_of_error ran, ran]
    exact ⟨rfl, fun _ _ => ⟨inactive, rfl⟩, nofun⟩
  · rw [ran]
    refine ⟨?_, nofun, fun _ => ⟨by rw [active]; rfl, Daemon.down_connection a name w⟩⟩
    rw [after_of_ok ran]
    split <;> exact torn.config

/-- One round of the loop of `up_all`. -/
def upInactive (a : String → UpAnswers) (kind : BackendKind) (name : String) : Daemon Unit := do
  if (← get).manager.connections.contains name then pure () else up platform (a name) name kind

variable (a : String → UpAnswers) (kind : BackendKind)

theorem run_upAll (w : World) : (upAll platform a kind).run w =
    (w.manager.config.connectionNames.forM (upInactive platform a kind)).run w := rfl

theorem upInactive_cases (name : String) (w : World) :
    ((w.connection name).isSome ∧ (upInactive platform a kind name).run w = .ok () w) ∨
    (w.connection name = none ∧
      (upInactive platform a kind name).run w = (up platform (a name) name kind).run w) := by
  simp only [upInactive, EStateM.run_bind, EStateM.run_get,
    Std.ExtTreeMap.contains_eq_isSome_getElem?]
  cases there : w.connection name with
  | some conn =>
    rw [World.connection] at there
    simp [there]
  | none =>
    rw [World.connection] at there
    simp [there]

theorem forM_upInactive (names : List String) (w : World) :
    (∃ t, (names.forM (upInactive platform a kind)).run w = .ok () t ∧ Extends w names t) ∨
    ∃ before name rest middle e t, names = before ++ name :: rest ∧ Extends w before middle ∧
      middle.connection name = none ∧ (up platform (a name) name kind).run middle = .error e t ∧
      (names.forM (upInactive platform a kind)).run w = .error e t := by
  induction names generalizing w with
  | nil => exact .inl ⟨w, rfl, .refl w⟩
  | cons name rest ih =>
    simp only [List.forM_eq_forM, List.forM_cons, EStateM.run_bind] at ih ⊢
    rcases upInactive_cases platform a kind name w with ⟨active, ran⟩ | ⟨inactive, ran⟩
    · rw [ran]
      rcases ih w with ⟨t, ran', grown⟩ | ⟨before, next, rest', middle, e, t, rfl, grown, fails⟩
      · exact .inl ⟨t, ran', grown.skip active⟩
      · exact .inr ⟨name :: before, next, rest', middle, e, t, rfl, grown.skip active, fails⟩
    rw [ran]
    cases called : (up platform (a name) name kind).run w with
    | error e t => exact .inr ⟨[], name, rest, w, e, t, rfl, .refl w, inactive, called, rfl⟩
    | ok u s =>
      obtain ⟨_, config, conn, _, added⟩ := Daemon.up_ok called
      rcases ih s with ⟨t, ran', grown⟩ | ⟨before, next, rest', middle, e, t, rfl, grown, fails⟩
      · exact .inl ⟨t, ran', grown.add inactive config added⟩
      · exact .inr ⟨name :: before, next, rest', middle, e, t, rfl,
          grown.add inactive config added, fails⟩

theorem upAll_spec (w : World) :
    UpAllSpec platform kind a w (returned ((upAll platform a kind).run w))
      (after (upAll platform a kind) w) := by
  rcases forM_upInactive platform a kind w.manager.config.connectionNames w with
    ⟨t, ran, grown⟩ | ⟨before, name, rest, middle, e, t, split, grown, inactive, called, ran⟩
  · rw [← run_upAll] at ran
    rw [after_of_ok ran, ran]
    exact ⟨fun _ => grown, nofun⟩
  · rw [← run_upAll] at ran
    rw [after_of_error ran, ran]
    refine ⟨nofun, fun e' same => ?_⟩
    cases same
    have kept := up_error called
    refine ⟨before, name, rest, middle, split, ?_, grown.of_manager kept, kept.symm, called⟩
    by_contra old
    obtain ⟨conn, there⟩ := Option.ne_none_iff_exists'.mp old
    rw [grown.untouched name conn there] at inactive
    cases inactive

/-- The names that are gone through are down afterwards, and no others. -/
theorem downAll_connection (a : String → DownAnswers) (names : List String) (w : World) :
    (after (downAll a names) w).manager.config = w.manager.config ∧ ∀ name,
      (after (downAll a names) w).connection name =
        if name ∈ names then none else w.connection name := by
  induction names generalizing w with
  | nil => exact ⟨rfl, fun name => by rw [if_neg List.not_mem_nil]; rfl⟩
  | cons first rest ih =>
    have split : after (downAll a (first :: rest)) w =
        after (downAll a rest) (after (down (a first) first) w) :=
      after_passOver_bind (down (a first) first) (fun _ => downAll a rest) w
    obtain ⟨config, connection⟩ := ih (after (down (a first) first) w)
    rw [split]
    refine ⟨config.trans (down_spec (a first) first w).config, fun name => ?_⟩
    rw [connection, Daemon.down_connection]
    by_cases later : name ∈ rest
    · simp [later]
    · simp [later]

theorem call_spec {w t : World} {call : Call} (taken : stepCall platform w call = some t) :
    CallSpec platform w call (returnedBy platform w call) t := by
  cases call with
  | one event =>
    cases event with
    | up name kind a =>
      cases taken
      exact up_spec platform a name kind w
    | down name a =>
      cases taken
      exact down_spec a name w
    | reloadConfig config =>
      cases taken
      rfl
    | letGo tun =>
      simp only [stepCall, stepEvent] at taken
      split at taken <;> cases taken
      rfl
  | upAll kind a =>
    cases taken
    exact upAll_spec platform a kind w
  | downAll names a =>
    simp only [stepCall] at taken
    split at taken <;> cases taken
    rename_i all
    obtain ⟨config, connection⟩ := downAll_connection a names w
    refine ⟨config, fun name => ?_⟩
    rw [connection]
    by_cases member : name ∈ names
    · rw [if_pos member]
    · rw [if_neg member]
      rw [all.mem_iff, Std.ExtTreeMap.mem_keys, Std.ExtTreeMap.mem_iff_isSome_getElem?] at member
      simpa [World.connection] using member

end

/-- The status has the configured connections, in the order of their names, and says of each
whether it is active. -/
structure StatusSpec (m : TunnelManager) (stats : String → TunnelStats) : Prop where
  names : (m.status stats).map PeerStatus.name = m.config.connectionNames
  configured : ∀ name, name ∈ m.config.connectionNames ↔ (m.config.get name).isSome
  sorted : m.config.connectionNames.Pairwise fun a b => compare a b = .lt
  connected : ∀ entry ∈ m.status stats,
    entry.connected = true ↔ (m.connections[entry.name]?).isSome = true

theorem status_spec (m : TunnelManager) (stats : String → TunnelStats) : StatusSpec m stats where
  names := by
    rw [TunnelManager.status, List.map_map, AppConfig.connectionNames,
      ← Std.ExtTreeMap.map_fst_toList_eq_keys]
    rfl
  configured name := by
    rw [AppConfig.connectionNames, Std.ExtTreeMap.mem_keys,
      Std.ExtTreeMap.mem_iff_isSome_getElem?, AppConfig.get]
  sorted := Std.ExtTreeMap.ordered_keys
  connected entry member := by
    obtain ⟨⟨name, config⟩, _, rfl⟩ := List.mem_map.mp member
    rfl

/-- Along every run of calls, each answers and acts as specified, and the status is accurate in
every state. -/
theorem calls_meet_spec [Externals] (platform : Platform) (calls : List Call) (w : World) :
    Along (stepCall platform) (fun w call => ∀ t, stepCall platform w call = some t →
        CallSpec platform w call (returnedBy platform w call) t) calls w ∧
      Always (stepCall platform) (fun w => ∀ stats, StatusSpec w.manager stats) calls w :=
  ⟨along_of_forall (fun _ _ _ taken => call_spec platform taken) calls w,
    always_of_step (fun _ _ _ _ _ => status_spec _) calls (status_spec _)⟩

end FerroWg.Tunnel
