import FerroWg.Tunnel.Events

/-!
# Whether DNS comes back

The tokens of the connections are undo records over each of the settings. The history of a
setting says which changes it went through since no connection had a token.
-/

namespace FerroWg.Tunnel

open Lib Lib.Undo

def World.ledger [Externals] (w : World) (k : Setting) : Ledger String (List String) :=
  ⟨k.get w.system, fun name => (w.token name).map (·.saved k)⟩

abbrev Histories := Setting → History String (List String)

/-- Where a token is written back, the commands for that succeed. -/
def Event.Reverts : Event → Prop
  | .down _ a => a.dns.Reverts
  | _ => True

def Call.Reverts : Call → Prop
  | .one event => event.Reverts
  | .downAll _ a => ∀ name, (a name).dns.Reverts
  | .upAll .. => True

section

variable [Externals] (platform : Platform)

open Classical in
/-- What an event does to a setting: a bring-up that does not end with a token has changed it
without a record. -/
noncomputable def dnsOp (k : Setting) (w : World) : Event → Op String (List String)
  | .up name _ a =>
    match w.manager.plan name with
    | .error _ => .keep
    | .ok plan =>
      if ∃ tun, a.ReachesDns plan tun w.system then
        if a.Finishes ∧ plan.HoldsDns platform a then .acquire name (plan.dnsChange platform a k)
        else .stray (plan.dnsChange platform a k)
      else .keep
  | .down name _ => .release name
  | .reloadConfig _ | .letGo _ => .keep

noncomputable def noteEvent (w : World) (event : Event) (histories : Histories) : Histories :=
  fun k => note (w.ledger k) (dnsOp platform k w event) (histories k)

/-- The last token is not given up but to undo a change that the original, or something that
reads the same, was there before; and without a token DNS is not changed for good. -/
def SoundEvent (original : Setting → List String) (s : World × Histories) (event : Event) : Prop :=
  ∀ k : Setting, Sound k.read (original k) (s.1.ledger k) (s.2 k) (dnsOp platform k s.1 event)

noncomputable abbrev tracedEvent := instrument (stepEvent platform) (noteEvent platform)

/-- The history after all the events of a call. -/
noncomputable def noteCall (w : World) (call : Call) (histories : Histories) : Histories :=
  ((run (tracedEvent platform) (eventsOf platform w call) (w, histories)).map Prod.snd).getD histories

def SoundCall (original : Setting → List String) (s : World × Histories) (call : Call) : Prop :=
  Along (tracedEvent platform) (SoundEvent platform original) (eventsOf platform s.1 call) s

noncomputable abbrev tracedCall := instrument (stepCall platform) (noteCall platform)

/-- The histories account for the settings, which are the original ones when no connection has
a token. -/
structure Accounted (original : Setting → List String) (s : World × Histories) : Prop where
  wellFormed : s.1.system.WellFormed
  traced : ∀ k : Setting, Traced k.read (original k) (s.1.ledger k) (s.2 k)
  restored : ∀ k : Setting, Restored (original k) (s.1.ledger k)

omit [Externals] in
theorem World.token_insert (w : World) (name other : String) (conn : ActiveConnection) :
    (w.insert name conn).token other = if other = name then conn.dnsState else w.token other := by
  rw [World.token, World.connection_insert]
  split <;> rfl

omit [Externals] in
/-- What has a plan is not up. -/
theorem TunnelManager.plan_ok {m : TunnelManager} {name : String} {plan : Plan}
    (planned : m.plan name = .ok plan) : m.connections[name]? = none := by
  rw [TunnelManager.plan] at planned
  split at planned
  · cases planned
  · rename_i idle
    simpa using idle

theorem ledger_up {w : World} (wellFormed : w.system.WellFormed) (name : String)
    (kind : BackendKind) (a : UpAnswers) (k : Setting) :
    (after (up platform a name kind) w).ledger k =
      (w.ledger k).step k.read (dnsOp platform k w (.up name kind a)) := by
  rcases up_cases platform a kind name wellFormed with
    ⟨early, e, ran⟩ | ⟨plan, tun, dnsState, t, planned, reaches, done, ends⟩
  · have keeps : dnsOp platform k w (.up name kind a) = .keep := by
      simp only [dnsOp]
      cases planned : w.manager.plan name with
      | error e => rfl
      | ok plan => exact if_neg fun ⟨tun, reaches⟩ => early plan tun planned reaches
    rw [after_of_error ran, keeps]
    rfl
  simp only [dnsOp, planned]
  rw [if_pos ⟨tun, reaches⟩]
  rcases ends with ⟨finishes, _, ran⟩ | ⟨breaks, _, e, ran⟩
  · rw [after_of_ok ran]
    by_cases held : plan.HoldsDns platform a
    · obtain ⟨st, rfl⟩ := Option.isSome_iff_exists.mp (done.held.mpr held)
      rw [if_pos ⟨finishes, held⟩]
      refine Ledger.ext (done.settings k) (funext fun other => ?_)
      by_cases same : other = name
      · simp [World.ledger, Ledger.step, World.token_insert, same, done.saved st rfl]
      · simp [World.ledger, Ledger.step, World.token_insert, same]
        rfl
    · obtain rfl : dnsState = none := by simpa [held] using done.held
      rw [if_neg fun both => held both.2]
      refine Ledger.ext (done.settings k) (funext fun other => ?_)
      have fresh : w.token name = none := by
        rw [World.token, World.connection, TunnelManager.plan_ok planned]
        rfl
      by_cases same : other = name
      · simp [World.ledger, Ledger.step, World.token_insert, same, fresh]
      · simp [World.ledger, Ledger.step, World.token_insert, same]
        rfl
  · rw [after_of_error ran, if_neg fun both => breaks both.1]
    exact Ledger.ext (done.settings k) rfl

theorem World.without_free (w : World) (name : String) (k : Setting) :
    ((w.ledger k).without name).Free ↔ ∀ other ≠ name, w.token other = none := by
  refine forall_congr' fun other => ?_
  by_cases same : other = name
  · simp [Ledger.without, same]
  · simp [Ledger.without, same, World.ledger]

theorem ledger_down (w : World) (name : String) {a : DownAnswers} (reverts : a.dns.Reverts)
    (k : Setting) :
    (after (down a name) w).ledger k = (w.ledger k).step k.read (.release name) := by
  rcases down_cases a name w with ⟨missing, e, ran⟩ | ⟨conn, t, there, torn, ran⟩
  · rw [after_of_error ran, step_release_of_none]
    simp [World.ledger, World.token, missing]
  have same : (if a.reaped then letGo conn.tunName t else t).ledger k = t.ledger k := by
    split
    · exact Ledger.ext (k.get_dropInterface conn.tunName t.system) rfl
    · rfl
  rw [after_of_ok ran, same]
  refine Ledger.ext ?_ (funext fun other => ?_)
  · by_cases free : ∀ other ≠ name, w.token other = none
    · have value := torn.reverted reverts free k
      simp only [Ledger.step, (w.without_free name k).mpr free, if_true]
      apply value.trans
      simp only [World.ledger, World.token, there, Option.bind_some]
      cases conn.dnsState <;> rfl
    · have value := torn.skipped (by simpa [Option.isSome_iff_ne_none] using free) k
      simp only [Ledger.step, mt (w.without_free name k).mp free, if_false]
      exact value
  · have connection := torn.connection other
    by_cases same : other = name
    · rw [if_pos same] at connection
      simp [World.ledger, Ledger.step, Ledger.without, World.token, connection, same.symm]
    · simp [World.ledger, Ledger.step, Ledger.without, World.token, connection, same]

theorem ledger_step {w t : World} {event : Event} (wellFormed : w.system.WellFormed)
    (reverts : event.Reverts) (taken : stepEvent platform w event = some t) (k : Setting) :
    t.ledger k = (w.ledger k).step k.read (dnsOp platform k w event) := by
  cases event with
  | up name kind a =>
    cases taken
    exact ledger_up platform wellFormed name kind a k
  | down name a =>
    cases taken
    exact ledger_down w name reverts k
  | reloadConfig config =>
    cases taken
    rfl
  | letGo tun =>
    simp only [stepEvent] at taken
    split at taken <;> cases taken
    exact Ledger.ext (k.get_dropInterface tun w.system) rfl

variable {original : Setting → List String}

theorem tracedEvent_ledger {s next : World × Histories} {event : Event}
    (wellFormed : s.1.system.WellFormed) (reverts : event.Reverts)
    (taken : tracedEvent platform s event = some next) (k : Setting) :
    next.1.ledger k = (s.1.ledger k).step k.read (dnsOp platform k s.1 event) :=
  ledger_step platform wellFormed reverts (instrument_some.mp taken).1 k

/-- The accounts are kept as long as the settings came back. -/
theorem accounted_of_restored {s next : World × Histories} {event : Event}
    (accounts : Accounted original s) (reverts : event.Reverts)
    (taken : tracedEvent platform s event = some next)
    (restored : ∀ k : Setting, Restored (original k) (next.1.ledger k)) : Accounted original next := by
  obtain ⟨stepped, noted⟩ := instrument_some.mp taken
  have ledger := tracedEvent_ledger platform accounts.wellFormed reverts taken
  refine ⟨stepEvent_wellFormed platform stepped accounts.wellFormed, fun k => ?_, restored⟩
  rw [noted, ledger]
  exact traced_step (accounts.traced k) _ (by rw [← ledger]; exact restored k)

theorem restored_iff_sound {s next : World × Histories} {event : Event}
    (accounts : Accounted original s) (reverts : event.Reverts)
    (taken : tracedEvent platform s event = some next) :
    (∀ k : Setting, Restored (original k) (next.1.ledger k)) ↔ SoundEvent platform original s event := by
  refine forall_congr' fun k => ?_
  rw [tracedEvent_ledger platform accounts.wellFormed reverts taken k]
  exact restored_step_iff (accounts.traced k) (accounts.restored k) _

theorem accounted_initial {w : World} (wellFormed : w.system.WellFormed)
    (idle : ∀ name, w.connection name = none) :
    Accounted (fun k => k.get w.system) (w, fun _ => []) := by
  have free (k : Setting) : (w.ledger k).Free := fun name => by
    simp [World.ledger, World.token, idle]
  exact ⟨wellFormed, fun k => Traced.initial k.read (free k), fun k _ => rfl⟩

/-- Any token gives DNS back that was taken down before the second event, if the original reads
as itself. -/
theorem soundEvent_down {s : World × Histories}
    (reads : ∀ k : Setting, k.read (original k) = original k)
    (noted : ∀ k, ∃ l op, s.2 k = note l op []) (name : String) (a : DownAnswers) :
    SoundEvent platform original s (.down name a) := by
  intro k _ _
  obtain ⟨l, op, same⟩ := noted k
  rw [same]
  exact unwinds_note_nil (reads k) op

/-- A bring-up that gets a token is sound. -/
theorem soundEvent_up (s : World × Histories) {name : String} (kind : BackendKind) {a : UpAnswers}
    (held : ∀ plan, s.1.manager.plan name = .ok plan → a.Finishes ∧ plan.HoldsDns platform a) :
    SoundEvent platform original s (.up name kind a) := by
  intro k
  simp only [dnsOp]
  cases planned : s.1.manager.plan name with
  | error e => trivial
  | ok plan =>
    simp only [if_pos (held plan planned)]
    split <;> trivial

theorem restored_iff_unheld {w : World} :
    (∀ k : Setting, Restored (original k) (w.ledger k)) ↔
      ((∀ name, w.token name = none) → ∀ k : Setting, k.get w.system = original k) := by
  have free (k : Setting) : (w.ledger k).Free ↔ ∀ name, w.token name = none := by
    simp [Ledger.Free, World.ledger]
  simp only [Restored, free]
  exact forall_comm

/-- Over single events the condition is exact: as long as every event meets it, and only then,
the settings are the original ones whenever no connection has a token. -/
theorem dns_unheld_restored_iff {w : World} (wellFormed : w.system.WellFormed)
    (idle : ∀ name, w.connection name = none) {events : List Event}
    (reverts : ∀ event ∈ events, event.Reverts) :
    Always (stepEvent platform)
        (fun t => (∀ name, t.token name = none) → ∀ k : Setting, k.get t.system = k.get w.system)
        events w ↔
      Along (tracedEvent platform) (SoundEvent platform fun k => k.get w.system) events
        (w, fun _ => []) := by
  rw [← always_instrument (stepEvent platform) (noteEvent platform) _ events (w, fun _ => [])]
  simp only [← restored_iff_unheld]
  refine always_iff_along ?_ ?_ (accounted_initial wellFormed idle)
    fun k _ => rfl
  · intro event member s next accounts taken restored
    exact accounted_of_restored platform accounts (reverts event member) taken restored
  · intro event member s next accounts _ taken
    exact restored_iff_sound platform accounts (reverts event member) taken

theorem upEvents_reverts (a : String → UpAnswers) (kind : BackendKind) (names : List String)
    (w : World) : ∀ event ∈ upEvents platform a kind names w, event.Reverts := by
  induction names generalizing w with
  | nil => simp [upEvents]
  | cons name rest ih =>
    rw [upEvents]
    cases w.manager.connections.contains name with
    | true => exact ih w
    | false =>
      cases (up platform (a name) name kind).run w with
      | ok u t => exact List.forall_mem_cons.mpr ⟨trivial, ih t⟩
      | error e t => exact List.forall_mem_cons.mpr ⟨trivial, by simp⟩

theorem eventsOf_reverts {call : Call} (reverts : call.Reverts) (w : World) :
    ∀ event ∈ eventsOf platform w call, event.Reverts := by
  cases call with
  | one event => exact fun _ member => List.mem_singleton.mp member ▸ reverts
  | upAll kind a => exact upEvents_reverts platform a kind _ w
  | downAll names a =>
    intro event member
    obtain ⟨name, _, rfl⟩ := List.mem_map.mp member
    exact reverts name

theorem noteCall_one {w t : World} {event : Event} (stepped : stepEvent platform w event = some t)
    (histories : Histories) :
    noteCall platform w (.one event) histories = noteEvent platform w event histories := by
  have taken : tracedEvent platform (w, histories) event =
      some (t, noteEvent platform w event histories) := instrument_some.mpr ⟨stepped, rfl⟩
  simp only [noteCall, eventsOf, run_cons, taken]
  rfl

theorem accounted_call {s next : World × Histories} {call : Call} (reverts : call.Reverts)
    (accounts : Accounted original s) (sound : SoundCall platform original s call)
    (taken : tracedCall platform s call = some next) : Accounted original next := by
  obtain ⟨stepped, noted⟩ := instrument_some.mp taken
  have projected := run_instrument (stepEvent platform) (noteEvent platform)
    (eventsOf platform s.1 call) s
  rw [run_eventsOf platform stepped] at projected
  obtain ⟨reached, ran, same⟩ := Option.map_eq_some_iff.mp projected
  have whole : reached = next := by
    apply Prod.ext same
    rw [noted, noteCall, show run (tracedEvent platform) _ (s.1, s.2) = some reached from ran]
    rfl
  subst whole
  refine run_of_along ?_ accounts sound ran
  intro event member t u accounts sound taken
  have reverts := eventsOf_reverts platform reverts s.1 event member
  exact accounted_of_restored platform accounts reverts taken
    ((restored_iff_sound platform accounts reverts taken).mpr sound)

/-- The settings are the original ones whenever no connection is up, as long as no call gives up
the last token unsoundly. -/
theorem dns_restored (w : World) (wellFormed : w.system.WellFormed)
    (idle : ∀ name, w.connection name = none) (calls : List Call)
    (reverts : ∀ call ∈ calls, call.Reverts)
    (sound : Along (tracedCall platform) (SoundCall platform fun k => k.get w.system) calls
      (w, fun _ => [])) :
    Always (stepCall platform)
      (fun t => (∀ name, t.connection name = none) → ∀ k : Setting, k.get t.system = k.get w.system)
      calls w := by
  have accounts := always_of_along
    (fun call member _ _ accounts sound taken =>
      accounted_call platform (reverts call member) accounts sound taken)
    (accounted_initial wellFormed idle) sound
  refine (always_instrument (stepCall platform) (noteCall platform) _ calls (w, fun _ => [])).mp
    (accounts.mono fun s accounts idle => restored_iff_unheld.mp accounts.restored fun name => ?_)
  simp [World.token, idle]

end

open TunnelSample in
/-- One connection with a search domain, up and down. -/
theorem dns_restored_office :
    let w := worldOf (AppConfig.insert default "office" (wgWith ["corp"] []))
    let calls : List Call :=
      [.one (.up "office" .boringtun (upAnswers "utun4")), .one (.down "office" downAnswers)]
    Always (@stepCall externals .macos) (fun t => (∀ name, t.connection name = none) →
      ∀ k : Setting, k.get t.system = k.get w.system) calls w := by
  intro w calls
  have planned : w.manager.plan "office" = .ok ⟨wgWith ["corp"] [],
      (wgWith ["corp"] []).peers.head (by decide), "192.0.2.9:51820"⟩ := by rfl
  refine @dns_restored externals .macos w (worldOf_wellFormed _) (fun name => rfl) calls ?_ ?_
  · exact List.forall_mem_cons.mpr ⟨trivial, List.forall_mem_singleton.mpr ⟨rfl, rfl, rfl⟩⟩
  · rintro ⟨t, histories⟩ taken
    refine ⟨fun _ _ => ⟨?_, trivial⟩, fun _ _ => ⟨fun _ _ => ⟨?_, trivial⟩, trivial⟩⟩
    · refine @soundEvent_up externals .macos _ _ _ _ _ fun plan planned' => ?_
      obtain rfl := Except.ok.inj (planned.symm.trans planned')
      exact ⟨⟨rfl, rfl, rfl⟩, .inr (List.cons_ne_nil _ _), rfl, .inl rfl, .inr ⟨rfl, rfl⟩⟩
    · obtain ⟨stepped, noted⟩ := instrument_some.mp taken
      replace noted := noted.trans (@noteCall_one externals .macos w t (.up "office" _ _) stepped _)
      refine @soundEvent_down externals .macos _ _ (fun k => ?_) (fun k => ?_) _ _
      · cases k with
        | servers | resolvConf => rfl
        | search => exact (by decide +kernel : parseNetworksetupSearch ["lan"] = ["lan"])
      · exact ⟨_, _, congrFun noted k⟩

open TunnelSample in
/-- Two connections, where the first to come up is the first to go down: the second one gives
back the search domain of the first. -/
theorem dns_left_by_first :
    let w := worldOf ((AppConfig.insert default "office" (wgWith ["corp"] [])).insert "lab"
      (wgWith ["lab"] []))
    let calls : List Call :=
      [.one (.up "office" .boringtun (upAnswers "utun4")), .one (.up "lab" .boringtun (upAnswers "utun5")),
       .one (.down "office" downAnswers), .one (.down "lab" downAnswers)]
    (∀ call ∈ calls, call.Reverts) ∧
      ((run (@stepCall externals .macos) calls w).map fun t =>
        (t.manager.connections.isEmpty, t.system.searchDomains "Wi-Fi")) = some (true, ["corp"]) ∧
      ¬ Always (@stepCall externals .macos) (fun t => (∀ name, t.connection name = none) →
        ∀ k : Setting, k.get t.system = k.get w.system) calls w := by
  intro w calls
  have ended : ((run (@stepCall externals .macos) calls w).map fun t =>
      (t.manager.connections.isEmpty, t.system.searchDomains "Wi-Fi")) = some (true, ["corp"]) := by
    decide +kernel
  refine ⟨?_, ended, fun always => ?_⟩
  · simp only [calls, List.forall_mem_cons, List.not_mem_nil, false_imp_iff, implies_true, and_true]
    exact ⟨trivial, trivial, ⟨rfl, rfl, rfl⟩, ⟨rfl, rfl, rfl⟩⟩
  · obtain ⟨t, reached, final⟩ := Option.map_eq_some_iff.mp ended
    obtain ⟨idle, left⟩ := Prod.mk.inj final
    have back := always.last reached
      (fun name => by simp [World.connection, Std.ExtTreeMap.isEmpty_iff.mp idle]) (.search "Wi-Fi")
    have left' : Setting.get (.search "Wi-Fi") t.system = ["corp"] := left
    rw [left'] at back
    exact absurd back (by decide +kernel)

end FerroWg.Tunnel
