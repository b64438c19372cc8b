import FerroWg.Tui.Conversation
import FerroWg.Tui.Statuses

/-!
# What the statuses on show are worth

One poll is asked at a time and lets the flag go after its message, so the statuses come in the
order the daemon gave them in.
-/

namespace FerroWg.Tui

open Lib Daemon Tunnel

/-- What the daemon answers a poll from. -/
structure Moment where
  manager : TunnelManager
  stats : String → TunnelStats

def Moment.statuses (m : Moment) : List PeerStatus := m.manager.status m.stats

/-- What was answered, the configuration on show, and what was applied to it. -/
structure Watch where
  produced : List Moment
  loaded : AppConfig
  applied : List (List PeerStatus)

def Watch.start (config : AppConfig) : Watch := ⟨[], config, []⟩

def DaemonMessage.statuses? : DaemonMessage → Option (List PeerStatus)
  | .statusUpdate peers => some peers
  | _ => none

def Watch.receive (w : Watch) : DaemonMessage → Watch
  | .statusUpdate peers => { w with applied := w.applied ++ [peers] }
  | .reloadConfig config _ => { w with loaded := config, applied := [] }
  | _ => w

def Watch.answer (w : Watch) (p : Passage) (s : Process) : Watch :=
  { w with produced := w.produced ++ [⟨(reloadFromDisk p.loaded s.world).manager, p.answers.stats⟩] }

def PollTask.statuses? : PollTask → Option (List PeerStatus)
  | .answered answer => (pollMessage answer).bind DaemonMessage.statuses?
  | _ => none

/-- The statuses on their way: in the channel, and with the task that has not sent them yet. -/
def Conversation.unshown (s : Conversation) : List (List PeerStatus) :=
  s.program.channel.filterMap (·.message.statuses?) ++ s.polls.filterMap PollTask.statuses?

section

variable [Externals]

def showStatuses (connections : List ConnectionView) (applied : List (List PeerStatus)) :
    List ConnectionView :=
  statusUpdate.batch applied.flatten connections

variable (json : SerdeJson) (platform : Platform)

omit [Externals] in
def watch (s : Conversation) (turn : Turn) (w : Watch) : Watch :=
  match turn with
  | .askPoll _ p => if s.daemon.gets json p .status then w.answer p s.daemon else w
  | .tui (.receive _) => (s.program.channel.head?.map (w.receive ·.message)).getD w
  | _ => w

/-- The question and its answer are such that either side reads what the other means. -/
def ReadsPolls (s : Conversation) : Turn → Prop
  | .askPoll _ p => json.Sends .status ∧
    json.Answers (processCommand platform p.answers p.loaded .status s.daemon.world).2
  | _ => True

/-- The polls are one at most, as the flag says, and nothing is on its way out of order. -/
structure Polled (s : Conversation × Watch) : Prop where
  single : s.1.polls.length = s.1.pollInFlight.toNat
  shown : s.1.program.loop.state.connections =
    showStatuses (connectionViews s.2.loaded) s.2.applied
  ordered : (s.2.applied ++ s.1.unshown).Sublist (s.2.produced.map Moment.statuses)

/-! ## What reaches the connections -/

theorem showStatuses_snoc (connections : List ConnectionView) (applied : List (List PeerStatus))
    (peers : List PeerStatus) :
    showStatuses connections (applied ++ [peers]) =
      peers.foldl updateConnection (showStatuses connections applied) := by
  have same : updateConnection = statusUpdate.one := by
    funext connections status
    exact updateConnection_eq connections status
  rw [showStatuses, List.flatten_append, statusUpdate.batch_append, List.flatten_singleton, same]
  rfl

/-- No key changes what is shown of a connection. -/
theorem handleKeyEvent_connections {now : Clock} {key : KeyEvent} {l : Loop} {o : Outcome}
    (done : handleKeyEvent now key l = some o) : o.loop.state.connections = l.state.connections := by
  obtain ⟨bundle, _, rfl⟩ | ⟨bundle, action, performed, resolved, run, rfl⟩ :=
    handleKeyEvent_cases done
  · rfl
  · have other : ∀ next ∈ action :: (followUp action l.state).toList,
        Part.connections ∉ next.writes := by
      rw [List.forall_mem_cons]
      constructor
      · have keyed := resolveKey_keyed resolved action rfl
        cases action with
        | updatePeers => exact absurd keyed id
        | _ => simp [Action.writes]
      · intro next follows
        obtain rfl | rfl | ⟨i, rfl⟩ := followUp_confirmed (Option.mem_toList.mp follows)
        all_goals simp [Action.writes]
    have kept : performed.loop.state.connections = l.state.connections :=
      performEach_inv (·.connections = l.state.connections) (l := ⟨l.state, bundle⟩)
        (fun next member s t same taken =>
          (dispatch_writes .connections (other next member) taken).trans same) rfl run
    exact kept

/-- A message is put to the connections as it is noted. -/
theorem handleDaemonMessage_connections {now : Clock} {message : DaemonMessage} {l : Loop}
    {o : Outcome} {w : Watch} (done : handleDaemonMessage now message l = some o)
    (shown : l.state.connections = showStatuses (connectionViews w.loaded) w.applied) :
    o.loop.state.connections =
      showStatuses (connectionViews (w.receive message).loaded) (w.receive message).applied := by
  obtain ⟨dispatched, run, same⟩ := handleDaemonMessage_loop done
  rw [same]
  cases message with
  | statusUpdate peers =>
    obtain ⟨next, later, taken, rest, rfl⟩ := dispatchEach_cons.mp run
    cases rest
    rw [dispatchAll_updatePeers] at taken
    cases taken
    simp [Watch.receive, showStatuses_snoc, received, Outcome.idle, applyPeerUpdates, shown]
  | _ =>
    refine (dispatchEach_inv (·.connections = (received _ l).state.connections)
      (fun action member s t same taken => ?_) rfl run).trans ?_
    · refine (dispatch_writes .connections ?_ taken).trans same
      simp only [daemonActions, List.mem_cons, List.not_mem_nil, or_false] at member
      first
        | subst member; simp [Action.writes]
        | obtain rfl | rfl := member <;> simp [Action.writes]
    · first
        | exact shown
        | rfl

omit [Externals] in
theorem errorToMessage_statuses (e : DaemonClientError) : (errorToMessage e).statuses? = none := by
  rw [errorToMessage]
  split <;> rfl

omit [Externals] in
/-- No benchmark sends a status. -/
theorem BenchmarkTask.poll_statuses {task : BenchmarkTask} {event : StreamEvent}
    {sent : Option DaemonMessage} {goesOn : Option BenchmarkTask}
    (answered : task.poll event = some (sent, goesOn)) : sent.bind DaemonMessage.statuses? = none := by
  rw [poll.eq_def] at answered
  split at answered <;> cases answered <;> first | rfl | exact errorToMessage_statuses _

omit [Externals] in
theorem commandMessage_statuses (description : String)
    (answer : Except DaemonClientError DaemonResponse) :
    (commandMessage description answer).bind DaemonMessage.statuses? = none := by
  rw [commandMessage.eq_def]
  split <;> first | rfl | exact errorToMessage_statuses _

omit [Externals] in
theorem post_statuses (p : Program) (message : Option DaemonMessage) :
    (p.post message).channel.filterMap (·.message.statuses?) =
      p.channel.filterMap (·.message.statuses?) ++ (message.bind DaemonMessage.statuses?).toList := by
  rw [Program.post, List.filterMap_append]
  cases message <;> rfl

omit [Externals] in
theorem answered_statuses (answer : Except DaemonClientError DaemonResponse) :
    [PollTask.answered answer].filterMap PollTask.statuses? =
      ((pollMessage answer).bind DaemonMessage.statuses?).toList := by
  rw [List.filterMap_cons, PollTask.statuses?]
  cases (pollMessage answer).bind DaemonMessage.statuses? <;> rfl

omit [Externals] in
theorem told_statuses : [PollTask.told].filterMap PollTask.statuses? = [] := rfl

/-- Nothing else than a message from the channel is put to the connections, and nothing else than a
poll sends one that is. -/
theorem step_unheard {p next : Program} {event : Happening} (taken : p.step event = some next)
    (other : event.sendsStatus = false) (silent : ∀ now, event ≠ .receive now) :
    next.loop.state.connections = p.loop.state.connections ∧
      next.channel.filterMap (·.message.statuses?) = p.channel.filterMap (·.message.statuses?) := by
  cases event with
  | key now key =>
    obtain ⟨o, done, rfl⟩ := Program.step_key taken
    exact ⟨handleKeyEvent_connections done, rfl⟩
  | receive now => exact absurd rfl (silent now)
  | expire now =>
    obtain rfl := Program.step_expire taken
    exact ⟨rfl, rfl⟩
  | benchmark i event =>
    obtain ⟨task, _, polled⟩ := Option.bind_eq_some_iff.mp (Program.step_benchmark taken)
    obtain ⟨⟨sent, goesOn⟩, answered, rfl⟩ := Option.map_eq_some_iff.mp polled
    refine ⟨rfl, ?_⟩
    have none_sent := BenchmarkTask.poll_statuses answered
    rw [List.filterMap_append]
    cases sent with
    | none => simp
    | some message =>
      rw [Option.bind_some] at none_sent
      simp [none_sent]
  | send message =>
    obtain ⟨_, rfl⟩ := Program.step_send taken
    refine ⟨rfl, ?_⟩
    cases message with
    | statusUpdate => cases other
    | _ => simp [DaemonMessage.statuses?]

/-! ## One step -/

omit [Externals] in
theorem eq_singleton_of_getElem? {α : Type} {l : List α} (few : l.length ≤ 1) {i : Nat} {a : α}
    (there : l[i]? = some a) : l = [a] ∧ i = 0 := by
  obtain ⟨inside, rfl⟩ := List.getElem?_eq_some_iff.mp there
  obtain rfl : i = 0 := by omega
  match l with
  | [] => exact absurd inside (by simp)
  | [b] => exact ⟨rfl, rfl⟩
  | _ :: _ :: _ => exact absurd few (by simp)

variable {json platform}

/-- An answer to a poll with statuses is what the daemon said then. -/
theorem exchange_status {p : Passage} {s : Process} (sends : json.Sends .status)
    (answers : json.Answers (processCommand platform p.answers p.loaded .status s.world).2)
    {peers : List PeerStatus}
    (answered : (PollTask.answered (exchange json platform p .status s).2).statuses? = some peers) :
    s.gets json p .status = true ∧
      peers = Moment.statuses ⟨(reloadFromDisk p.loaded s.world).manager, p.answers.stats⟩ := by
  have got : (exchange json platform p .status s).2 = .ok (.status peers) := by
    rw [PollTask.statuses?, pollMessage.eq_def] at answered
    split at answered
    · rename_i said
      obtain rfl := Option.some.inj answered
      exact said
    · rw [Option.bind_some, errorToMessage_statuses] at answered
      cases answered
    · cases answered
  obtain ⟨reached, same⟩ := (exchanged sends answers nofun).answered _ got
  exact ⟨reached, DaemonResponse.status.inj same⟩

theorem polled_askPoll {s : Conversation} {w : Watch} {i : Nat} {p : Passage}
    (reads : ReadsPolls json platform s (.askPoll i p)) (polled : Polled (s, w))
    (waiting : s.polls[i]? = some .asking) :
    Polled ({ s with
      daemon := (exchange json platform p .status s.daemon).1
      polls := s.polls.set i (.answered (exchange json platform p .status s.daemon).2) },
      watch json s (.askPoll i p) w) := by
  obtain ⟨single, shown, ordered⟩ := polled
  simp only at single shown ordered
  have few : s.polls.length ≤ 1 := single ▸ Bool.toNat_le _
  obtain ⟨alone, rfl⟩ := eq_singleton_of_getElem? few waiting
  have held : s.unshown = s.program.channel.filterMap (·.message.statuses?) := by
    rw [Conversation.unshown, alone]
    exact List.append_nil _
  refine ⟨by simpa [alone] using single, ?_, ?_⟩
  · rw [watch]
    split <;> exact shown
  · have grown : (w.produced.map Moment.statuses).Sublist
        ((watch json s (.askPoll 0 p) w).produced.map Moment.statuses) := by
      rw [watch]
      split
      · exact (List.sublist_append_left _ _).map _
      · exact List.Sublist.refl _
    have applied : (watch json s (.askPoll 0 p) w).applied = w.applied := by
      rw [watch]
      split <;> rfl
    rw [held] at ordered
    simp only [applied, Conversation.unshown, alone, List.set_cons_zero, List.filterMap_cons,
      List.filterMap_nil]
    split
    · rw [List.append_nil]
      exact ordered.trans grown
    · rename_i peers answered
      obtain ⟨reached, rfl⟩ := exchange_status reads.1 reads.2 answered
      rw [watch, if_pos reached, Watch.answer, List.map_append, ← List.append_assoc]
      exact ordered.append (List.Sublist.refl _)

theorem polled_tui {s : Conversation} {w : Watch} {event : Happening} {program : Program}
    {commands : List CommandTask} (polled : Polled (s, w)) (other : event.sendsStatus = false)
    (taken : s.program.step event = some program) :
    Polled ({ s with program := program, commands := commands }, watch json s (.tui event) w) := by
  obtain ⟨single, shown, ordered⟩ := polled
  simp only at single shown ordered
  by_cases receives : ∃ now, event = .receive now
  · obtain ⟨now, rfl⟩ := receives
    obtain ⟨mail, rest, o, channel, done, rfl⟩ := Program.step_receive taken
    have noted : watch json s (.tui (.receive now)) w = w.receive mail.message := by
      simp [watch, channel]
    rw [noted]
    refine ⟨single, handleDaemonMessage_connections done shown, ?_⟩
    simp only [Conversation.unshown, channel, List.filterMap_cons] at ordered ⊢
    cases message : mail.message with
    | statusUpdate peers => simpa [Watch.receive, DaemonMessage.statuses?, message] using ordered
    | reloadConfig config text =>
      simp only [message, DaemonMessage.statuses?] at ordered
      exact (List.sublist_append_right _ _).trans ordered
    | _ => simpa [Watch.receive, DaemonMessage.statuses?, message] using ordered
  · have silent : ∀ now, event ≠ .receive now := fun now same => receives ⟨now, same⟩
    have noted : watch json s (.tui event) w = w := by
      cases event with
      | receive now => exact absurd rfl (silent now)
      | _ => rfl
    obtain ⟨connections, channel⟩ := step_unheard taken other silent
    rw [noted]
    refine ⟨single, connections.trans shown, ?_⟩
    simpa only [Conversation.unshown, channel] using ordered

theorem polled_step (s : Conversation × Watch) (turn : Turn) (next : Conversation × Watch)
    (polled : Polled s) (reads : ReadsPolls json platform s.1 turn)
    (taken : instrument (Conversation.step json platform) (watch json) s turn = some next) :
    Polled next := by
  obtain ⟨s, w⟩ := s
  obtain ⟨next, w'⟩ := next
  obtain ⟨stepped, noted⟩ := instrument_some.mp taken
  simp only at stepped noted reads
  subst noted
  have few : s.polls.length ≤ 1 := polled.single ▸ Bool.toNat_le _
  cases Conversation.stepped stepped with
  | askPoll running waiting => exact polled_askPoll reads polled waiting
  | tui running other went => exact polled_tui polled other went
  | tick running =>
    obtain ⟨single, shown, ordered⟩ := polled
    simp only at single shown ordered
    rw [Conversation.spawnStatusPoll]
    split
    · exact ⟨single, shown, ordered⟩
    · rename_i free
      refine ⟨by simp [single, free], shown, ?_⟩
      simpa [Conversation.unshown, PollTask.statuses?, watch, List.filterMap_cons] using ordered
  | tellPoll running waiting =>
    obtain ⟨single, shown, ordered⟩ := polled
    obtain ⟨alone, rfl⟩ := eq_singleton_of_getElem? few waiting
    refine ⟨by simpa [alone] using single, shown, ?_⟩
    simpa [Conversation.unshown, alone, post_statuses, answered_statuses, told_statuses, watch]
      using ordered
  | releasePoll running waiting =>
    obtain ⟨single, shown, ordered⟩ := polled
    obtain ⟨alone, rfl⟩ := eq_singleton_of_getElem? few waiting
    refine ⟨by simp [alone], shown, ?_⟩
    simpa [Conversation.unshown, alone, told_statuses, watch] using ordered
  | tellCommand running waiting =>
    obtain ⟨single, shown, ordered⟩ := polled
    refine ⟨single, shown, ?_⟩
    simpa [Conversation.unshown, post_statuses, commandMessage_statuses, watch] using ordered
  | askCommand running waiting => exact ⟨polled.single, polled.shown, polled.ordered⟩
  | serve => exact ⟨polled.single, polled.shown, polled.ordered⟩

theorem polled_start (config : AppConfig) (history : List BenchmarkRun) (daemon : Process) :
    Polled (.start config history daemon, .start config) where
  single := rfl
  shown := rfl
  ordered := List.nil_sublist _

/-! ## What is on show -/

/-- What is on show, beside what the daemon answered: a connection has the status that the last entry
of its name gave it since the configuration was loaded, and the daemon said so at some time. -/
structure ShowsDaemon (s : Conversation × Watch) : Prop where
  single : s.1.polls.length ≤ 1
  ordered : (s.2.applied ++ s.1.unshown).Sublist (s.2.produced.map Moment.statuses)
  shown : ∀ c ∈ s.1.program.loop.state.connections,
    c.status = (statusUpdate.newest s.2.applied.flatten c.name).bind fun entry =>
      (applyPeerUpdate entry c).status
  truthful : ∀ c ∈ s.1.program.loop.state.connections, ∀ status, c.status = some status →
    ∃ m ∈ s.2.produced, (∃ entry ∈ m.statuses, entry.name = c.name ∧
      (applyPeerUpdate entry c).status = some status) ∧
      (status.state = .connected ↔ (m.manager.connections[c.name]?).isSome = true)

omit [Externals] in
theorem connectionViews_distinct (config : AppConfig) :
    ((connectionViews config).map ConnectionView.name).Nodup := by
  rw [connectionViews_names]
  exact Std.ExtTreeMap.nodup_keys

/-- A connection of a list that batches were put to, by the last entry of its name. -/
theorem showStatuses_status {config : AppConfig} {applied : List (List PeerStatus)}
    {c : ConnectionView} (member : c ∈ showStatuses (connectionViews config) applied) :
    c.status = (statusUpdate.newest applied.flatten c.name).bind fun entry =>
      (applyPeerUpdate entry c).status := by
  have distinct : ((showStatuses (connectionViews config) applied).map statusUpdate.key).Nodup := by
    rw [showStatuses, statusUpdate.batch_keys]
    exact connectionViews_distinct config
  have found := statusUpdate.lookup_of_mem distinct member
  rw [showStatuses, statusUpdate.lookup_batch_newest (fun _ _ _ => rfl)] at found
  obtain ⟨a, loaded, same⟩ := Option.map_eq_some_iff.mp found
  have bare : a.status = none := by
    obtain ⟨stored, _, rfl⟩ := List.mem_map.mp (List.mem_of_find?_eq_some loaded)
    rfl
  change _ = (statusUpdate.newest applied.flatten (statusUpdate.key c)).bind _
  cases newest : statusUpdate.newest applied.flatten (statusUpdate.key c) with
  | none =>
    rw [newest] at same
    exact same ▸ bare
  | some entry =>
    rw [newest] at same
    subst same
    rfl

theorem Polled.shows {s : Conversation × Watch} (polled : Polled s) : ShowsDaemon s where
  single := polled.single ▸ Bool.toNat_le _
  ordered := polled.ordered
  shown c member := showStatuses_status (polled.shown ▸ member)
  truthful c member status has := by
    have by_entry := showStatuses_status (polled.shown ▸ member)
    rw [has] at by_entry
    obtain ⟨entry, newest, given⟩ := Option.bind_eq_some_iff.mp by_entry.symm
    obtain ⟨listed, named⟩ := statusUpdate.newest_some newest
    obtain ⟨peers, applied, inside⟩ := List.mem_flatten.mp listed
    obtain ⟨m, produced, rfl⟩ := List.mem_map.mp
      (polled.ordered.subset (List.mem_append_left _ applied))
    have active := (status_spec m.manager m.stats).connected entry inside
    have named : entry.name = c.name := named
    refine ⟨m, produced, ⟨entry, inside, named, given⟩, ?_⟩
    obtain rfl := Option.some.inj given
    rw [named] at active
    rw [← active]
    cases entry.connected <;> simp

/-- Whatever keys are typed, tasks do and clients ask of the daemon, in any order: one poll at most is
on its way, statuses are shown in the order the daemon gave them in, each connection shows the last
one that was applied to it, and that one says whether it was active when the daemon was asked. -/
theorem statuses_truthful {config : AppConfig} {history : List BenchmarkRun} {daemon : Process}
    {turns : List Turn} {final : Conversation × Watch}
    (reads : Along (Conversation.step json platform) (ReadsPolls json platform) turns
      (.start config history daemon))
    (reached : run (instrument (Conversation.step json platform) (watch json)) turns
      (.start config history daemon, .start config) = some final) : ShowsDaemon final := by
  have polled : Polled final := by
    have along : Along (instrument (Conversation.step json platform) (watch json))
        (fun s => ReadsPolls json platform s.1) turns (.start config history daemon, .start config) :=
      (along_instrument _ _ _ turns _).mpr reads
    exact run_of_along (fun turn _ s next => polled_step s turn next)
      (polled_start config history daemon) along reached
  exact polled.shows

end

namespace PollSample

open ImportSample
open RpcSample (whole)
open TunnelSample (worldOf)

def line : String :=
  "\x7b\"Status\":[\x7b\"name\":\"home\",\"connected\":false,\"backend\":\"Boringtun\"," ++
    "\"stats\":\x7b\"tx_bytes\":0,\"rx_bytes\":0,\"last_handshake\":null,\"packet_loss\":0.0," ++
    "\"session_index\":null\x7d,\"endpoint\":null,\"interface\":null\x7d]\x7d"

def answer : DaemonResponse :=
  .status [⟨"home", false, .boringtun, ⟨0, 0, none, 0, none⟩, none, none⟩]

/-- The texts of a poll and its answer. -/
def json : SerdeJson where
  client := {
    encode := fun command => if command = .status then .ok "\"Status\"" else .error "another"
    decode := fun s => if s = line then .ok answer else .error "EOF while parsing" }
  daemon := {
    encode := fun
      | .status [_] => .ok line
      | _ => .error "another"
    decode := fun s => if s = "\"Status\"" then .ok .status else .error "EOF while parsing" }

theorem sends_status : json.Sends .status :=
  ⟨"\"Status\"", rfl, .of_only (by decide) (by decide) (by decide +kernel)
    (by simp [json, Except.toOption]) fun _ other => by simp [json, other, Except.toOption]⟩

theorem answers_status : json.Answers answer :=
  ⟨line, rfl, .of_only (by decide +kernel) (by decide +kernel) (by decide +kernel)
    (by simp [json, Except.toOption]) fun _ other => by simp [json, other, Except.toOption]⟩

/-- The daemon knows of one connection and has not brought it up. -/
def daemon : Process := ⟨⟨worldOf home, [], 0⟩, false⟩

theorem answer_eq : (@processCommand externals .macos whole.answers whole.loaded .status
    daemon.world).2 = answer := by rfl

def turns : List Turn := [.tick, .askPoll 0 whole, .tellPoll 0, .tui (.receive ⟨0, 0⟩)]

end PollSample

open PollSample ImportSample in
/-- The connection is shown as what the daemon says, and not as unknown any more. -/
theorem statuses_truthful_home :
    ∃ final, run (instrument (@Conversation.step externals json .macos) (watch json)) turns
        (.start home [] daemon, .start home) = some final ∧
      (final.1.program.loop.state.connections.map fun c => c.status.map (·.state)) =
        [some .disconnected] ∧
      @ShowsDaemon externals final := by
  have there : ((run (instrument (@Conversation.step externals json .macos) (watch json)) turns
      (.start home [] daemon, .start home)).map fun final =>
        final.1.program.loop.state.connections.map fun c => c.status.map (·.state)) =
      some [some .disconnected] := by decide +kernel
  obtain ⟨final, reached, shown⟩ := Option.map_eq_some_iff.mp there
  refine ⟨final, reached, shown, @statuses_truthful externals json .macos home [] daemon turns final
    ?_ reached⟩
  refine fun next taken => ⟨trivial, fun later asked => ⟨?_, fun _ _ => ⟨trivial, fun _ _ =>
    ⟨trivial, trivial⟩⟩⟩⟩
  cases taken
  exact ⟨sends_status, answer_eq ▸ answers_status⟩

end FerroWg.Tui
