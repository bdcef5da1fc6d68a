import TxServer.Coordinator.Votes

/-!
# The coordinator with the channel from its sessions

`Network` hands a session's message to the coordinator in the step the session sends it. In the
code the two are apart. A session sends on `client_state_snd`, an unbounded channel, and `serve`
takes the oldest message whenever its `select!` takes that branch, which it may put off while it
handles members' messages. A session returns right after it sends `Finished`, dropping the
receiving end of its `forward_snd`; until the coordinator takes that `Finished`, the handle is
still in `clients`, and a send on it fails: `pass_to_client` returns the error, and its callers in
`handle_server_state` and `handle_two_phase_commit` exit.

`Channels` adds the channel: a session's send appends its message, `receive` runs the handler on
the oldest one, and a handler's send to a session that has sent `Finished` stops the coordinator
with `exit(1)`. Sends to members are taken to get through: a member's connection closes only when
its member loop, which `member.rs` (not among the repository's files) runs, ends.

Every run of `Network` from a state it reaches is a run of `Channels` that takes each session
message as soon as it is sent (`network_runs_are_channel_runs`). Over all runs of `Channels`, a
member's answer meets a handle whose session has finished in two ways: after the coordinator has
taken the `Finished`, the handle is gone and `pass_to_client` panics; before, the send fails and
the coordinator exits.
-/

namespace TxServer

/-- Whether a send gets through: a session that has sent `Finished` has dropped the receiving
end of its channel, and `forward_snd.send` to it fails. -/
def Effect.reaches (sessions : BTreeMap TransactionId SessionPhase) : Effect → Bool
  | .toClient txId _ => sessions.get? txId != some .finished
  | _ => true

/-- The coordinator with its sessions and members, and the messages the sessions have sent on
`client_state_snd` that `serve` has not taken yet, oldest first. -/
structure Channels where
  /-- The coordinator, the phase of each session and the answers the members owe. -/
  net : Network
  /-- The messages in `from_clients`. -/
  inbox : List ClientState

/-- An input of the coordinator's environment, or `serve` taking a session's message. -/
inductive ChannelEvent where
  /-- A client connects. -/
  | accept
  /-- A session sends a message on `client_state_snd`. -/
  | send (state : ClientState)
  /-- `serve` takes the oldest message of `from_clients`. -/
  | receive
  /-- A member answers a forwarded request, from what its shard returned. -/
  | answer (owed : Owed) (outcome : ShardOutcome)
  /-- A member sends a request of one of its own sessions, or `DoCommit`. -/
  | remote (memberId : NodeId) (msg : Forwarded)
  deriving DecidableEq, Repr

namespace Channels

/-- A coordinator whose pool has just connected, with no session and nothing sent. -/
def init (nodeId : NodeId) (serverPool : List NodeId) : Channels :=
  ⟨Network.init nodeId serverPool, []⟩

/-- The coordinator handles `event`. A send to a session that has finished stops it with
`exit(1)`; otherwise its sends reach the sessions and the members owe the requests it
forwards. -/
def handleWith (chan : Channels) (event : Event) (sessions : BTreeMap TransactionId SessionPhase)
    (owed : List Owed) (inbox : List ClientState) : Except Halt Channels :=
  (chan.net.server.handle event).bind fun (server, effects) =>
    if effects.all (Effect.reaches sessions) then
      .ok ⟨⟨server, deliver sessions effects, owed ++ owedBy effects⟩, inbox⟩
    else .error .exit

/-- One event, when the session protocol, the channel and the members' answers allow it (`none`
otherwise), and what the coordinator makes of it. -/
def step (chan : Channels) : ChannelEvent → Option (Except Halt Channels)
  | .accept => some (chan.handleWith .accept chan.net.sessions chan.net.owed chan.inbox)
  | .send state =>
    (chan.net.sessions.get? state.txId).bind fun phase =>
      (phase.send state).bind fun next =>
        if state.withinPool chan.net.server.serverPool then
          some (.ok ⟨{ chan.net with sessions := chan.net.sessions.insert state.txId next },
            chan.inbox ++ [state]⟩)
        else none
  | .receive =>
    match chan.inbox with
    | [] => none
    | state :: rest =>
      some (chan.handleWith (.fromClients state) chan.net.sessions chan.net.owed rest)
  | .answer owed outcome =>
    if owed ∈ chan.net.owed then
      (remoteReply owed.txId owed.request outcome).map fun reply =>
        chan.handleWith (.fromServers ⟨owed.memberId, .message reply⟩) chan.net.sessions
          (chan.net.owed.erase owed) chan.inbox
    else none
  | .remote memberId msg =>
    match msg with
    | .request .. | .doCommit _ =>
      if memberId ∈ chan.net.server.serverPool then
        some (chan.handleWith (.fromServers ⟨memberId, .message msg⟩) chan.net.sessions
          chan.net.owed chan.inbox)
      else none
    | _ => none

/-- A sequence of events: `none` when one is not allowed, the halt that stopped the
coordinator, or the state after them all. -/
def run (chan : Channels) : List ChannelEvent → Option (Except Halt Channels)
  | [] => some (.ok chan)
  | event :: events => (chan.step event).bind fun
    | .ok next => next.run events
    | .error halt => some (.error halt)

/-- A handler that does not stop the coordinator: its sends all got through. -/
theorem handleWith_eq_ok {chan next : Channels} {event : Event}
    {sessions : BTreeMap TransactionId SessionPhase} {owed : List Owed} {inbox : List ClientState}
    (handled : chan.handleWith event sessions owed inbox = .ok next) :
    ∃ server effects, chan.net.server.handle event = .ok (server, effects) ∧
      effects.all (Effect.reaches sessions) = true ∧
      next = ⟨⟨server, deliver sessions effects, owed ++ owedBy effects⟩, inbox⟩ := by
  unfold handleWith at handled
  cases handledBy : chan.net.server.handle event with
  | error halt => simp [handledBy, Except.bind] at handled
  | ok result =>
    simp only [handledBy, Except.bind] at handled
    split_ifs at handled with reached
    cases handled
    exact ⟨result.1, result.2, rfl, reached, rfl⟩

/-- When every send a handler can make gets through, handling adds nothing to `Network`'s
handling. -/
theorem handleWith_of_reaches {chan : Channels} {event : Event}
    {sessions : BTreeMap TransactionId SessionPhase} {owed : List Owed} {inbox : List ClientState}
    (reached : ∀ server effects, chan.net.server.handle event = .ok (server, effects) →
      effects.all (Effect.reaches sessions) = true) :
    chan.handleWith event sessions owed inbox =
      (chan.net.handleWith event sessions owed).map fun net => ⟨net, inbox⟩ := by
  unfold handleWith Network.handleWith
  cases handledBy : chan.net.server.handle event with
  | error halt => rfl
  | ok result => simp [Except.bind, Except.map, reached result.1 result.2 handledBy]

/-- What one allowed event does. -/
theorem step_cases {chan next : Channels} {event : ChannelEvent}
    (stepped : chan.step event = some (.ok next)) :
    (event = .accept ∧
      chan.handleWith .accept chan.net.sessions chan.net.owed chan.inbox = .ok next) ∨
    (∃ state phase after, event = .send state ∧ chan.net.sessions.get? state.txId = some phase ∧
      phase.send state = some after ∧
      next = ⟨{ chan.net with sessions := chan.net.sessions.insert state.txId after },
        chan.inbox ++ [state]⟩) ∨
    (∃ state rest, event = .receive ∧ chan.inbox = state :: rest ∧
      chan.handleWith (.fromClients state) chan.net.sessions chan.net.owed rest = .ok next) ∨
    (∃ owed outcome reply, event = .answer owed outcome ∧ owed ∈ chan.net.owed ∧
      remoteReply owed.txId owed.request outcome = some reply ∧
      chan.handleWith (.fromServers ⟨owed.memberId, .message reply⟩) chan.net.sessions
        (chan.net.owed.erase owed) chan.inbox = .ok next) ∨
    (∃ memberId msg, event = .remote memberId msg ∧ memberId ∈ chan.net.server.serverPool ∧
      ((∃ txId request, msg = .request txId request) ∨ ∃ txId, msg = .doCommit txId) ∧
      chan.handleWith (.fromServers ⟨memberId, .message msg⟩) chan.net.sessions chan.net.owed
        chan.inbox = .ok next) := by
  cases event with
  | accept => exact .inl ⟨rfl, Option.some.inj stepped⟩
  | send state =>
    simp only [step, Option.bind_eq_some] at stepped
    obtain ⟨phase, found, after, sent, stepped⟩ := stepped
    split_ifs at stepped
    cases stepped
    exact .inr (.inl ⟨state, phase, after, rfl, found, sent, rfl⟩)
  | receive =>
    cases queued : chan.inbox with
    | nil => simp [step, queued] at stepped
    | cons state rest =>
      simp only [step, queued, Option.some.injEq] at stepped
      exact .inr (.inr (.inl ⟨state, rest, rfl, rfl, stepped⟩))
  | answer owed outcome =>
    simp only [step] at stepped
    split_ifs at stepped with pending
    obtain ⟨reply, replied, stepped⟩ := Option.map_eq_some'.1 stepped
    exact .inr (.inr (.inr (.inl ⟨owed, outcome, reply, rfl, pending, replied, stepped⟩)))
  | remote memberId msg =>
    cases msg <;> simp only [step, Option.ite_none_right_eq_some, Option.some.injEq,
      reduceCtorEq] at stepped
    · exact .inr (.inr (.inr (.inr ⟨memberId, _, rfl, stepped.1, .inl ⟨_, _, rfl⟩, stepped.2⟩)))
    · exact .inr (.inr (.inr (.inr ⟨memberId, _, rfl, stepped.1, .inr ⟨_, rfl⟩, stepped.2⟩)))

/-- A run that ends well takes its first step well. -/
theorem run_cons_eq_ok {chan next : Channels} {event : ChannelEvent} {events : List ChannelEvent}
    (ran : chan.run (event :: events) = some (.ok next)) :
    ∃ middle, chan.step event = some (.ok middle) ∧ middle.run events = some (.ok next) := by
  simp only [run, Option.bind_eq_some] at ran
  obtain ⟨result, stepped, ran⟩ := ran
  cases result with
  | ok middle => exact ⟨middle, stepped, ran⟩
  | error halt => cases ran

/-- Running one sequence of events after another. -/
theorem run_append (chan : Channels) (events more : List ChannelEvent) :
    chan.run (events ++ more) = (chan.run events).bind fun
      | .ok next => next.run more
      | .error halt => some (.error halt) := by
  induction events generalizing chan with
  | nil => rfl
  | cons event events ih =>
    simp only [List.cons_append, run, Option.bind_assoc]
    congr 1
    funext result
    cases result with
    | ok next => exact ih next
    | error halt => rfl

/-- One event as a run. -/
theorem run_singleton (chan : Channels) (event : ChannelEvent) :
    chan.run [event] = chan.step event := by
  simp only [run]
  cases chan.step event with
  | none => rfl
  | some result => cases result <;> rfl

end Channels

/-! ## `Network` takes each session message as soon as it is sent -/

namespace Server

/-- A session's message makes the coordinator send to no session. -/
theorem toClient_not_mem_of_fromClients {self next : Server} {state : ClientState}
    {effects : List Effect} (handled : self.handle (.fromClients state) = .ok (next, effects))
    (txId : TransactionId) (response : ClientResponse) : Effect.toClient txId response ∉ effects := by
  cases state with
  | finished clientId =>
    cases handled
    simp
  | forward target forwarded request =>
    obtain ⟨-, members, -, rfl⟩ := handleClientState_forward handled
    simp

/-- The coordinator sends to a session only through `pass_to_client`, so only to a transaction
that has a handle. -/
theorem contains_of_toClient {self next : Server} {event : Event} {effects : List Effect}
    (handled : self.handle event = .ok (next, effects)) {txId : TransactionId}
    {response : ClientResponse} (sent : Effect.toClient txId response ∈ effects) :
    self.clients.contains txId = true := by
  cases event with
  | accept =>
    cases handled
    simp at sent
  | fromClients state => exact absurd sent (toClient_not_mem_of_fromClients handled txId response)
  | fromServers state =>
    obtain ⟨memberId, msg⟩ := state
    cases msg with
    | disconnected => cases handled
    | message msg =>
      cases msg with
      | request requested request =>
        simp only [handle, handleServerState, handleRemoteRequest] at handled
        split_ifs at handled <;> cases handled
        simp at sent
      | response responded reply =>
        simp only [handle, handleServerState, passToClient] at handled
        split_ifs at handled with registered <;> cases handled
        simp only [List.mem_singleton, Effect.toClient.injEq] at sent
        exact sent.1 ▸ registered
      | twoPhaseCommitStatus voted status =>
        cases found : self.commitStatus.get? voted with
        | none => simp [handle, handleServerState, handleTwoPhaseCommit, found] at handled
        | some entry =>
          obtain ⟨count, currStatus⟩ := entry
          simp only [handle, handleServerState, handleTwoPhaseCommit, found] at handled
          generalize (if status = .cannotCommit then status else currStatus) = verdict at handled
          split_ifs at handled
          · cases verdict <;> unfold passToClient at handled <;>
              split_ifs at handled with registered <;> cases handled <;> simp [broadcast] at sent <;>
              exact sent.1 ▸ registered
          · cases handled
            simp at sent
      | doCommit committed =>
        cases handled
        simp at sent

end Server

/-- A session's message reaches a handler that sends to no session, so every send it makes gets
through. -/
theorem Server.reaches_of_fromClients {self next : Server} {state : ClientState}
    {effects : List Effect} (handled : self.handle (.fromClients state) = .ok (next, effects))
    (sessions : BTreeMap TransactionId SessionPhase) :
    effects.all (Effect.reaches sessions) = true :=
  List.all_eq_true.2 fun effect sent => by
    cases effect with
    | toClient txId response =>
      exact absurd sent (Server.toClient_not_mem_of_fromClients handled txId response)
    | _ => rfl

/-- The inputs of `Network` as events of `Channels`: a session's message is sent and taken at
once. -/
def NetEvent.toChannels : NetEvent → List ChannelEvent
  | .accept => [.accept]
  | .session state => [.send state, .receive]
  | .answer owed outcome => [.answer owed outcome]
  | .remote memberId msg => [.remote memberId msg]

namespace Network

/-- Where the client table matches the sessions, every send a handler makes to a session reaches
it: the handle it needs belongs to a live session. -/
theorem Matched.reaches {net : Network} (matched : net.Matched) {event : Event} {server : Server}
    {effects : List Effect} (handled : net.server.handle event = .ok (server, effects)) :
    effects.all (Effect.reaches net.sessions) = true := by
  refine List.all_eq_true.2 fun effect sent => ?_
  cases effect with
  | toClient txId response =>
    have live := (matched.handles txId).1 (Server.contains_of_toClient handled sent)
    simp only [Effect.reaches, bne_iff_ne, ne_eq]
    intro finished
    simp [liveness, finished, SessionPhase.live] at live
  | _ => rfl

/-- One input of `Network`, from a state where the client table matches the sessions, is the run
of `Channels` that sends a session's message and takes it at once, with the same outcome. -/
theorem Matched.step_toChannels {net : Network} (matched : net.Matched) {event : NetEvent}
    {result : Except Halt Network} (stepped : net.step event = some result) :
    (⟨net, []⟩ : Channels).run event.toChannels = some (result.map fun next => ⟨next, []⟩) := by
  have served : ∀ {event : Event} {sessions owed},
      (∀ server effects, net.server.handle event = .ok (server, effects) →
        effects.all (Effect.reaches sessions) = true) →
      (⟨net, []⟩ : Channels).handleWith event sessions owed [] =
        (net.handleWith event sessions owed).map fun next => ⟨next, []⟩ :=
    fun reached => Channels.handleWith_of_reaches reached
  cases event with
  | accept =>
    cases stepped
    rw [NetEvent.toChannels, Channels.run_singleton]
    exact congrArg some (served fun _ _ handled => matched.reaches handled)
  | session state =>
    simp only [Network.step, Option.bind_eq_some] at stepped
    obtain ⟨phase, found, after, sent, stepped⟩ := stepped
    split_ifs at stepped with within
    cases stepped
    simp only [NetEvent.toChannels, Channels.run, Channels.step, found, sent, within,
      Option.some_bind, if_true, List.nil_append]
    cases handledBy : net.server.handle (.fromClients state) with
    | error halt => simp [Channels.handleWith, Network.handleWith, handledBy, Except.bind, Except.map]
    | ok result =>
      obtain ⟨server, effects⟩ := result
      simp [Channels.handleWith, Network.handleWith, handledBy, Except.bind, Except.map,
        Server.reaches_of_fromClients handledBy]
  | answer owed outcome =>
    simp only [Network.step] at stepped
    split_ifs at stepped with pending
    obtain ⟨reply, replied, rfl⟩ := Option.map_eq_some'.1 stepped
    rw [NetEvent.toChannels, Channels.run_singleton]
    simp only [Channels.step, if_pos pending, replied, Option.map_some']
    exact congrArg some (served fun _ _ handled => matched.reaches handled)
  | remote memberId msg =>
    rw [NetEvent.toChannels, Channels.run_singleton]
    cases msg <;> simp only [Network.step, Option.ite_none_right_eq_some, Option.some.injEq,
      reduceCtorEq] at stepped <;> obtain ⟨member, rfl⟩ := stepped <;>
      simp only [Channels.step, if_pos member] <;>
      exact congrArg some (served fun _ _ handled => matched.reaches handled)

/-- So is every run of `Network` from such a state. -/
theorem Matched.run_toChannels {net : Network} (matched : net.Matched) {events : List NetEvent}
    {result : Except Halt Network} (ran : net.run events = some result) :
    (⟨net, []⟩ : Channels).run (events.flatMap NetEvent.toChannels) =
      some (result.map fun next => ⟨next, []⟩) := by
  induction events generalizing net with
  | nil =>
    cases ran
    rfl
  | cons event events ih =>
    simp only [Network.run, Option.bind_eq_some] at ran
    obtain ⟨first, stepped, ran⟩ := ran
    rw [List.flatMap_cons, Channels.run_append, matched.step_toChannels stepped]
    cases first with
    | ok next => exact ih (matched.step stepped) ran
    | error halt =>
      cases ran
      rfl

end Network

/-- Every run of `Network` from a fresh coordinator, which takes each session message in the step
the session sends it, is a run of `Channels` with the same outcome: what is proved of the runs of
`Network` holds of these runs of the coordinator with its channel. -/
theorem network_runs_are_channel_runs (nodeId : NodeId) (serverPool : List NodeId)
    (events : List NetEvent) (result : Except Halt Network)
    (ran : (Network.init nodeId serverPool).run events = some result) :
    (Channels.init nodeId serverPool).run (events.flatMap NetEvent.toChannels) =
      some (result.map fun net => ⟨net, []⟩) :=
  (Network.matched_init nodeId serverPool).run_toChannels ran

/-- The late answer to an `Abort` after `Finished`, which panics in `Network`, panics in the same
way when the session's messages go through the channel. -/
theorem late_abort_answer_panics_through_channel :
    (Network.init 'A' ['A', 'B']).run [.accept, .session (.forward .broadcast ⟨1, 'A'⟩ .abort),
        .session (.finished ⟨1, 'A'⟩), .answer ⟨'B', ⟨1, 'A'⟩, .abort⟩ (.ok 0)] =
      some (.error .panic) ∧
    (Channels.init 'A' ['A', 'B']).run ([.accept, .session (.forward .broadcast ⟨1, 'A'⟩ .abort),
        .session (.finished ⟨1, 'A'⟩), .answer ⟨'B', ⟨1, 'A'⟩, .abort⟩ (.ok 0)].flatMap
        NetEvent.toChannels) = some (.error .panic) :=
  ⟨rfl, network_runs_are_channel_runs 'A' ['A', 'B'] [.accept,
    .session (.forward .broadcast ⟨1, 'A'⟩ .abort), .session (.finished ⟨1, 'A'⟩),
    .answer ⟨'B', ⟨1, 'A'⟩, .abort⟩ (.ok 0)] (.error .panic) rfl⟩

/-! ## The client table against the channel -/

/-- A member's message opens no entry of `commit_status`: only a vote changes an entry, and only
its own, which it finds there. -/
theorem Server.get?_commitStatus_of_fromServers {self next : Server} {state : ServerStateMessage}
    {effects : List Effect} (handled : self.handle (.fromServers state) = .ok (next, effects))
    {txId : TransactionId} (absent : self.commitStatus.get? txId = none) :
    next.commitStatus.get? txId = none := by
  by_cases vote : ∃ voted status, state.msg = .message (.twoPhaseCommitStatus voted status)
  · obtain ⟨voted, status, isVote⟩ := vote
    simp only [Server.handle, Server.handleServerState, isVote] at handled
    obtain ⟨⟨count, currStatus, verdict, found, rfl⟩, -⟩ :=
      Server.handleTwoPhaseCommit_frame handled
    have other : txId ≠ voted := fun same => by simp [same, found] at absent
    split_ifs <;> simp [other, absent]
  · push_neg at vote
    rw [Server.handleServerState_of_not_vote vote handled]
    exact absent

namespace Channels

/-- The client table against the sessions and the channel. -/
structure Matched (chan : Channels) : Prop where
  /-- A transaction has a handle while its session is live, or while its `Finished` waits in the
  channel. -/
  handles : ∀ txId, chan.net.server.clients.contains txId = true ↔
    liveness chan.net.sessions txId = some true ∨ ClientState.finished txId ∈ chan.inbox
  /-- A `Finished` in the channel is its session's only one, and the session has finished. -/
  closing : ∀ txId, ClientState.finished txId ∈ chan.inbox →
    liveness chan.net.sessions txId = some false ∧ chan.inbox.count (.finished txId) = 1
  /-- Every message in the channel is from a session. -/
  senders : ∀ state ∈ chan.inbox, (liveness chan.net.sessions state.txId).isSome
  /-- Every answer a member owes is for a transaction with a session. -/
  owners : ∀ owed ∈ chan.net.owed, (liveness chan.net.sessions owed.txId).isSome

/-- A fresh coordinator with an empty channel has no handle, no session and nothing owed. -/
theorem matched_init (nodeId : NodeId) (serverPool : List NodeId) :
    (init nodeId serverPool).Matched :=
  ⟨fun txId => by simp [init, Network.init, Server.start], by simp [init], by simp [init],
    by simp [init, Network.init]⟩

/-- A new connection gets a handle and a live session, under an id no session has. -/
theorem Matched.accept {chan : Channels} {server : Server} {effects : List Effect}
    (matched : chan.Matched) (counted : chan.net.VotesCounted)
    (handled : chan.net.server.handle .accept = .ok (server, effects)) :
    Matched ⟨⟨server, deliver chan.net.sessions effects, chan.net.owed ++ owedBy effects⟩,
      chan.inbox⟩ := by
  cases handled
  have fresh : liveness chan.net.sessions chan.net.server.getHandle.1 = none :=
    Option.not_isSome_iff_eq_none.1 fun started =>
      (counted.issued _ (by simpa [liveness, forwardingOf] using started)).ne rfl
  refine ⟨fun txId => ?_, fun txId queued => ?_,
    fun state queued => isSome_liveness_deliver (matched.senders state queued) _,
    fun owed pending => ?_⟩
  · by_cases same : txId = chan.net.server.getHandle.1
    · simp [liveness_deliver, same]
    · simpa [liveness_deliver, same] using matched.handles txId
  · obtain ⟨finished, once⟩ := matched.closing txId queued
    have other : txId ≠ chan.net.server.getHandle.1 := by
      rintro rfl
      rw [fresh] at finished
      cases finished
    exact ⟨by simpa [liveness_deliver, other] using finished, once⟩
  · simp only [owedBy, List.filterMap_cons, List.filterMap_nil, List.append_nil] at pending
    exact isSome_liveness_deliver (matched.owners owed pending) _

/-- A session's send keeps the table: a `Finished` enters the channel as its session finishes,
and a forward keeps its session live. -/
theorem Matched.send {chan : Channels} {state : ClientState} {phase after : SessionPhase}
    (matched : chan.Matched) (found : chan.net.sessions.get? state.txId = some phase)
    (sent : phase.send state = some after) :
    Matched ⟨{ chan.net with sessions := chan.net.sessions.insert state.txId after },
      chan.inbox ++ [state]⟩ := by
  have live : liveness chan.net.sessions state.txId = some true := by
    simp [liveness, found, SessionPhase.live_of_send sent]
  have fresh : ClientState.finished state.txId ∉ chan.inbox := fun queued => by
    simpa [live] using (matched.closing _ queued).1
  have started : ∀ txId, (liveness chan.net.sessions txId).isSome →
      (liveness (chan.net.sessions.insert state.txId after) txId).isSome := fun txId old => by
    rw [liveness_insert]
    split_ifs
    exacts [rfl, old]
  have notSent : ∀ txId, txId ≠ state.txId → ClientState.finished txId ≠ state := by
    rintro txId same rfl
    exact same rfl
  refine ⟨fun txId => ?_, fun txId queued => ?_, fun other queued => ?_,
    fun owed pending => started _ (matched.owners owed pending)⟩
  · by_cases same : txId = state.txId
    · subst same
      cases state with
      | finished clientId =>
        simp [liveness_insert, ClientState.txId, (matched.handles clientId).2 (.inl live)]
      | forward target txId request =>
        simp [liveness_insert, ClientState.txId, (matched.handles txId).2 (.inl live),
          SessionPhase.live_of_send_forward sent]
    · simpa [liveness_insert, same, notSent txId same] using matched.handles txId
  · by_cases same : txId = state.txId
    · subst same
      cases state with
      | finished clientId =>
        cases SessionPhase.send_finished sent
        simp only [ClientState.txId] at fresh
        simp [liveness_insert, ClientState.txId, SessionPhase.live, List.count_eq_zero.2 fresh]
      | forward target txId request =>
        simp [ClientState.txId] at fresh queued
        exact (fresh queued).elim
    · simp only [List.mem_append, List.mem_singleton, notSent txId same, or_false] at queued
      simpa [liveness_insert, same, notSent txId same] using matched.closing txId queued
  · rw [List.mem_append, List.mem_singleton] at queued
    rcases queued with queued | rfl
    · exact started _ (matched.senders other queued)
    · simp [liveness_insert]

/-- Taking a session's message keeps the table: a `Finished` drops the handle as it leaves the
channel, and a forward leaves the members owing answers for a transaction with a session. -/
theorem Matched.receive {chan : Channels} {state : ClientState} {rest : List ClientState}
    {server : Server} {effects : List Effect} (matched : chan.Matched)
    (queued : chan.inbox = state :: rest)
    (handled : chan.net.server.handle (.fromClients state) = .ok (server, effects)) :
    Matched ⟨⟨server, deliver chan.net.sessions effects, chan.net.owed ++ owedBy effects⟩,
      rest⟩ := by
  have kept : ∀ other ∈ rest, other ∈ chan.inbox := fun other waiting =>
    queued ▸ List.mem_cons_of_mem _ waiting
  have head : state ∈ chan.inbox := queued ▸ List.mem_cons_self _ _
  cases state with
  | finished clientId =>
    cases handled
    obtain ⟨finished, once⟩ := matched.closing clientId head
    have gone : ClientState.finished clientId ∉ rest := by
      rw [queued, List.count_cons_self] at once
      exact List.count_eq_zero.1 (by omega)
    refine ⟨fun txId => ?_, fun txId waiting => ?_,
      fun other waiting => matched.senders other (kept other waiting), fun owed pending => ?_⟩
    · by_cases same : txId = clientId
      · subst same
        simp [deliver, finished, gone]
      · simpa [deliver, queued, same] using matched.handles txId
    · have other : ClientState.finished txId ≠ .finished clientId := by
        rintro ⟨⟩
        exact gone waiting
      obtain ⟨finished', once'⟩ := matched.closing txId (kept _ waiting)
      rw [queued, List.count_cons_of_ne other] at once'
      exact ⟨finished', once'⟩
    · simp only [owedBy, List.filterMap_nil, List.append_nil] at pending
      exact matched.owners owed pending
  | forward target txId request =>
    obtain ⟨rfl, members, -, rfl⟩ := Server.handleClientState_forward handled
    have unmoved : ∀ other, liveness (deliver chan.net.sessions
        (members.map fun member => .toMember member (.request txId request))) other =
        liveness chan.net.sessions other := fun other => by
      rw [liveness_deliver, if_neg (by simp)]
    have clients : (if target = .broadcast ∧ request = .commit then
        { chan.net.server with
          commitStatus := chan.net.server.commitStatus.insert txId (0, .readyToCommit) }
        else chan.net.server).clients = chan.net.server.clients := by
      split_ifs <;> rfl
    refine ⟨fun other => ?_, fun other waiting => ?_,
      fun other waiting => by rw [unmoved]; exact matched.senders other (kept other waiting),
      fun owed pending => ?_⟩
    · rw [unmoved, clients, matched.handles, queued]
      simp
    · obtain ⟨finished, once⟩ := matched.closing other (kept _ waiting)
      rw [queued, List.count_cons_of_ne (by simp)] at once
      exact ⟨by rw [unmoved]; exact finished, once⟩
    · rw [unmoved]
      rw [owedBy_forward, List.mem_append, List.mem_map] at pending
      rcases pending with old | ⟨member, -, rfl⟩
      · exact matched.owners owed old
      · exact matched.senders _ head

/-- A member's message keeps the table, whichever answers the members still owe after it. -/
theorem Matched.serverState {chan : Channels} {state : ServerStateMessage} {server : Server}
    {effects : List Effect} {owed : List Owed} (matched : chan.Matched)
    (handled : chan.net.server.handle (.fromServers state) = .ok (server, effects))
    (answered : ∀ other ∈ owed, other ∈ chan.net.owed) :
    Matched ⟨⟨server, deliver chan.net.sessions effects, owed ++ owedBy effects⟩,
      chan.inbox⟩ := by
  obtain ⟨frame, quiet⟩ := Server.handleServerState_frame handled
  have kept : server.clients = chan.net.server.clients := by rw [frame]
  refine ⟨fun txId => ?_, fun txId queued => ?_, fun state queued => ?_, fun other owing => ?_⟩
  · simpa [liveness_deliver_of_quiet quiet, kept] using matched.handles txId
  · simpa [liveness_deliver_of_quiet quiet] using matched.closing txId queued
  · simpa [liveness_deliver_of_quiet quiet] using matched.senders state queued
  · rw [owedBy_of_quiet quiet, List.append_nil] at owing
    rw [liveness_deliver_of_quiet quiet]
    exact matched.owners other (answered other owing)

/-- Every event that does not stop the coordinator keeps the table, while `id_gen` issues fresh
ids. -/
theorem Matched.step {chan next : Channels} {event : ChannelEvent} (matched : chan.Matched)
    (counted : chan.net.VotesCounted) (stepped : chan.step event = some (.ok next)) :
    next.Matched := by
  rcases step_cases stepped with ⟨-, handledWith⟩ | ⟨state, phase, after, -, found, sent, rfl⟩ |
    ⟨state, rest, -, queued, handledWith⟩ | ⟨owed, outcome, reply, -, -, -, handledWith⟩ |
    ⟨memberId, msg, -, -, -, handledWith⟩
  · obtain ⟨server, effects, handled, -, rfl⟩ := handleWith_eq_ok handledWith
    exact matched.accept counted handled
  · exact matched.send found sent
  · obtain ⟨server, effects, handled, -, rfl⟩ := handleWith_eq_ok handledWith
    exact matched.receive queued handled
  · obtain ⟨server, effects, handled, -, rfl⟩ := handleWith_eq_ok handledWith
    exact matched.serverState handled fun _ => List.mem_of_mem_erase
  · obtain ⟨server, effects, handled, -, rfl⟩ := handleWith_eq_ok handledWith
    exact matched.serverState handled fun _ => id

end Channels

/-! ## The vote tally against the channel -/

namespace Network

/-- The tally reads only the entries, the pool, `id_gen`, which sessions still forward and the
votes owed. -/
theorem VotesCounted.congr {net other : Network} (counted : net.VotesCounted)
    (entries : other.server.commitStatus = net.server.commitStatus)
    (pool : other.server.serverPool = net.server.serverPool)
    (ids : other.server.idGen = net.server.idGen)
    (phases : ∀ txId, forwardingOf other.sessions txId = forwardingOf net.sessions txId)
    (votes : ∀ txId, votesOwed other.owed txId = votesOwed net.owed txId) :
    other.VotesCounted :=
  ⟨fun txId count status found => by
      rw [votes, pool]
      exact counted.tally txId count status (entries ▸ found),
    fun txId absent => by
      rw [votes]
      exact counted.settled txId (entries ▸ absent),
    fun txId opened => by
      rw [phases]
      exact counted.committing txId (entries ▸ opened),
    fun txId started => by
      rw [ids]
      exact counted.issued txId (phases txId ▸ started)⟩

/-- A session's send, before the coordinator takes it, keeps the tally: a session that has
stopped forwarding never forwards again. -/
theorem VotesCounted.post {net : Network} {state : ClientState} {phase after : SessionPhase}
    (counted : net.VotesCounted) (found : net.sessions.get? state.txId = some phase)
    (sent : phase.send state = some after) :
    VotesCounted { net with sessions := net.sessions.insert state.txId after } := by
  refine ⟨counted.tally, counted.settled, fun txId opened => ?_, counted.issued_insert found after⟩
  rw [forwardingOf_insert]
  split_ifs with same
  · subst same
    have before : phase.forwarding = false := by
      simpa [forwardingOf, found] using counted.committing _ opened
    cases still : after.forwarding
    · rfl
    · simp [SessionPhase.forwarding_of_send sent still] at before
  · exact counted.committing txId opened

end Network

/-- The input of `Network` an event is, unless a session sends or `serve` takes a session's
message. -/
def ChannelEvent.toNet : ChannelEvent → Option NetEvent
  | .accept => some .accept
  | .send _ | .receive => none
  | .answer owed outcome => some (.answer owed outcome)
  | .remote memberId msg => some (.remote memberId msg)

namespace Channels

/-- A handling that gets through is `Network`'s handling, with the channel as it was. -/
theorem net_handleWith_of_eq_ok {chan next : Channels} {event : Event}
    {sessions : BTreeMap TransactionId SessionPhase} {owed : List Owed} {inbox : List ClientState}
    (handled : chan.handleWith event sessions owed inbox = .ok next) :
    chan.net.handleWith event sessions owed = .ok next.net ∧ next.inbox = inbox := by
  obtain ⟨server, effects, handledBy, -, rfl⟩ := handleWith_eq_ok handled
  simp [Network.handleWith, handledBy, Except.map]

/-- An event `Network` also has takes the step it takes there, with the channel as it was. -/
theorem net_step {chan next : Channels} {event : ChannelEvent} {input : NetEvent}
    (stepped : chan.step event = some (.ok next)) (same : event.toNet = some input) :
    chan.net.step input = some (.ok next.net) ∧ next.inbox = chan.inbox := by
  rcases step_cases stepped with ⟨rfl, handledWith⟩ | ⟨state, phase, after, rfl, -⟩ |
    ⟨state, rest, rfl, -⟩ | ⟨owed, outcome, reply, rfl, pending, replied, handledWith⟩ |
    ⟨memberId, msg, rfl, member, shape, handledWith⟩ <;>
    simp only [ChannelEvent.toNet, Option.some.injEq, reduceCtorEq] at same <;> subst same <;>
    obtain ⟨netHandled, kept⟩ := net_handleWith_of_eq_ok handledWith
  · simp [Network.step, netHandled, kept]
  · simp [Network.step, pending, replied, netHandled, kept]
  · rcases shape with ⟨txId, request, rfl⟩ | ⟨txId, rfl⟩ <;>
      simp [Network.step, member, netHandled, kept]

/-- The vote tally against the channel: the tally of `Network`, and a session's `Commit` waiting
in the channel is its only one, a broadcast from a session that has stopped forwarding, with no
entry yet. -/
structure Counted (chan : Channels) : Prop where
  /-- The entries against the votes owed and the sessions. -/
  counted : chan.net.VotesCounted
  /-- A `Commit` in the channel. -/
  queued : ∀ target txId, ClientState.forward target txId .commit ∈ chan.inbox →
    target = .broadcast ∧ chan.net.server.commitStatus.get? txId = none ∧
      forwardingOf chan.net.sessions txId = some false ∧
      chan.inbox.count (.forward target txId .commit) = 1

/-- The tally holds at a fresh coordinator with an empty channel. -/
theorem counted_init (nodeId : NodeId) (serverPool : List NodeId) :
    (init nodeId serverPool).Counted :=
  ⟨Network.votesCounted_init nodeId serverPool, by simp [init]⟩

/-- A member's message keeps the `Commit`s in the channel unopened. -/
theorem Counted.serverState {chan : Channels} {state : ServerStateMessage} {server : Server}
    {effects : List Effect} {owed : List Owed} (counted : chan.Counted)
    (handled : chan.net.server.handle (.fromServers state) = .ok (server, effects))
    (tally : Network.VotesCounted ⟨server, deliver chan.net.sessions effects, owed ++ owedBy effects⟩) :
    Counted ⟨⟨server, deliver chan.net.sessions effects, owed ++ owedBy effects⟩, chan.inbox⟩ := by
  refine ⟨tally, fun target txId queued => ?_⟩
  obtain ⟨broadcast, unopened, stopped, once⟩ := counted.queued target txId queued
  exact ⟨broadcast, Server.get?_commitStatus_of_fromServers handled unopened,
    by rw [forwardingOf_deliver_of_quiet (Server.handleServerState_frame handled).2]; exact stopped,
    once⟩

/-- A new connection's id has no `Commit` in the channel. -/
theorem Counted.accept {chan : Channels} {server : Server} {effects : List Effect}
    (counted : chan.Counted) (handled : chan.net.server.handle .accept = .ok (server, effects))
    (tally : Network.VotesCounted
      ⟨server, deliver chan.net.sessions effects, chan.net.owed ++ owedBy effects⟩) :
    Counted ⟨⟨server, deliver chan.net.sessions effects, chan.net.owed ++ owedBy effects⟩,
      chan.inbox⟩ := by
  cases handled
  refine ⟨tally, fun target txId queued => ?_⟩
  obtain ⟨broadcast, unopened, stopped, once⟩ := counted.queued target txId queued
  have other : txId ≠ chan.net.server.getHandle.1 := fun same =>
    (counted.counted.issued txId (by rw [stopped]; rfl)).ne (by rw [same]; rfl)
  exact ⟨broadcast, by simpa using unopened, by simpa [forwardingOf_deliver, other] using stopped,
    once⟩

/-- A session's `Commit` enters the channel as its only one, as the session stops forwarding; any
other send leaves the `Commit`s in the channel as they were. -/
theorem Counted.send {chan : Channels} {state : ClientState} {phase after : SessionPhase}
    (counted : chan.Counted) (found : chan.net.sessions.get? state.txId = some phase)
    (sent : phase.send state = some after) :
    Counted ⟨{ chan.net with sessions := chan.net.sessions.insert state.txId after },
      chan.inbox ++ [state]⟩ := by
  refine ⟨counted.counted.post found sent, fun target txId queued => ?_⟩
  by_cases isState : ClientState.forward target txId .commit = state
  · subst isState
    simp only [ClientState.txId] at found
    obtain ⟨forwarding, rfl, stopped⟩ := SessionPhase.send_commit sent
    have waiting : ClientState.forward .broadcast txId .commit ∉ chan.inbox := fun old => by
      simpa [forwardingOf, found, forwarding] using (counted.queued _ _ old).2.2.1
    have unopened : chan.net.server.commitStatus.get? txId = none :=
      Option.not_isSome_iff_eq_none.1 fun opened => by
        simpa [forwardingOf, found, forwarding] using counted.counted.committing txId opened
    exact ⟨rfl, unopened, by simp [ClientState.txId, stopped],
      by simp [List.count_eq_zero.2 waiting]⟩
  · have old : ClientState.forward target txId .commit ∈ chan.inbox := by
      simpa [isState] using queued
    obtain ⟨broadcast, unopened, stopped, once⟩ := counted.queued target txId old
    refine ⟨broadcast, unopened, ?_, by simp [List.count_singleton, once, Ne.symm isState]⟩
    rw [forwardingOf_insert]
    split_ifs with same
    · subst same
      have before : phase.forwarding = false := by simpa [forwardingOf, found] using stopped
      cases still : after.forwarding
      · rfl
      · simp [SessionPhase.forwarding_of_send sent still] at before
    · exact stopped

/-- Taking a session's `Commit` opens its entry with every member owing a vote; taking any other
message leaves the entries and the votes as they were. -/
theorem Counted.receive {chan : Channels} {state : ClientState} {rest : List ClientState}
    {server : Server} {effects : List Effect} (counted : chan.Counted)
    (queued : chan.inbox = state :: rest)
    (handled : chan.net.server.handle (.fromClients state) = .ok (server, effects)) :
    Counted ⟨⟨server, deliver chan.net.sessions effects, chan.net.owed ++ owedBy effects⟩,
      rest⟩ := by
  have kept : ∀ other ∈ rest, other ∈ chan.inbox := fun other waiting =>
    queued ▸ List.mem_cons_of_mem _ waiting
  have later : ∀ target txId, ClientState.forward target txId .commit ≠ state →
      ClientState.forward target txId .commit ∈ rest →
      rest.count (.forward target txId .commit) = 1 := fun target txId other waiting => by
    have once := (counted.queued target txId (kept _ waiting)).2.2.2
    rwa [queued, List.count_cons_of_ne other] at once
  cases state with
  | finished clientId =>
    cases handled
    refine ⟨counted.counted.congr rfl rfl rfl (fun _ => rfl) fun _ => by simp [owedBy],
      fun target txId waiting => ?_⟩
    obtain ⟨broadcast, unopened, stopped, -⟩ := counted.queued target txId (kept _ waiting)
    exact ⟨broadcast, unopened, stopped, later target txId (by simp) waiting⟩
  | forward target txId request =>
    obtain ⟨rfl, members, toPool, rfl⟩ := Server.handleClientState_forward handled
    have unmoved : ∀ other, forwardingOf (deliver chan.net.sessions
        (members.map fun member => .toMember member (.request txId request))) other =
        forwardingOf chan.net.sessions other := fun other => forwardingOf_deliver_forward _ _ _ _ _
    by_cases commit : request = .commit
    · subst commit
      obtain ⟨rfl, unopened, stopped, once⟩ :=
        counted.queued target txId (queued ▸ List.mem_cons_self _ _)
      cases toPool rfl
      rw [if_pos ⟨rfl, rfl⟩]
      refine ⟨⟨fun other count status opened => ?_, fun other absent => ?_,
        fun other opened => ?_, fun other started => ?_⟩, fun target' other waiting => ?_⟩
      · simp only [BTreeMap.get?_insert] at opened
        split_ifs at opened with same
        · cases opened
          subst same
          simp [votesOwed_forward, counted.counted.settled _ unopened]
        · simp [votesOwed_forward, Ne.symm same, counted.counted.tally other count status opened]
      · simp only [BTreeMap.get?_insert] at absent
        split_ifs at absent with same
        simp [votesOwed_forward, Ne.symm same, counted.counted.settled other absent]
      · rw [unmoved]
        by_cases same : other = txId
        · rw [same, stopped]
        · exact counted.counted.committing other (by simpa [same] using opened)
      · exact counted.counted.issued other (by rwa [unmoved] at started)
      · obtain ⟨rfl, unopened', stopped', -⟩ := counted.queued target' other (kept _ waiting)
        have distinct : other ≠ txId := by
          rintro rfl
          have present : 0 < rest.count (.forward .broadcast other .commit) :=
            List.count_pos_iff.2 waiting
          rw [queued, List.count_cons_self] at once
          omega
        exact ⟨rfl, by simp [distinct, unopened'], by rw [unmoved]; exact stopped',
          later _ _ (by simp [distinct]) waiting⟩
    · rw [if_neg fun broadcastCommit => commit broadcastCommit.2]
      refine ⟨counted.counted.congr rfl rfl rfl unmoved fun other => by
        simp [votesOwed_forward, commit], fun target' other waiting => ?_⟩
      obtain ⟨broadcast, unopened, stopped, -⟩ := counted.queued target' other (kept _ waiting)
      exact ⟨broadcast, unopened, by rw [unmoved]; exact stopped,
        later _ _ (fun same => commit (ClientState.forward.inj same).2.2.symm) waiting⟩

/-- Every event that does not stop the coordinator keeps the tally, while `id_gen` has room for a
new connection's id. -/
theorem Counted.step {chan next : Channels} {event : ChannelEvent} (counted : chan.Counted)
    (room : event = .accept → chan.net.server.idGen.counter.toNat + 1 < 2 ^ 64)
    (stepped : chan.step event = some (.ok next)) : next.Counted := by
  rcases step_cases stepped with ⟨rfl, handledWith⟩ | ⟨state, phase, after, -, found, sent, rfl⟩ |
    ⟨state, rest, -, queued, handledWith⟩ | ⟨owed, outcome, reply, rfl, -, -, handledWith⟩ |
    ⟨memberId, msg, rfl, -, -, handledWith⟩
  · have tally := counted.counted.step (fun _ => room rfl) (net_step stepped rfl).1
    obtain ⟨server, effects, handled, -, rfl⟩ := handleWith_eq_ok handledWith
    exact counted.accept handled tally
  · exact counted.send found sent
  · obtain ⟨server, effects, handled, -, rfl⟩ := handleWith_eq_ok handledWith
    exact counted.receive queued handled
  all_goals
    have tally := counted.counted.step (by rintro ⟨⟩) (net_step stepped rfl).1
    obtain ⟨server, effects, handled, -, rfl⟩ := handleWith_eq_ok handledWith
    exact counted.serverState handled tally

/-- The handlers keep the pool, and only a new connection draws an id. -/
theorem frame_step {chan next : Channels} {event : ChannelEvent}
    (stepped : chan.step event = some (.ok next)) :
    next.net.server.serverPool = chan.net.server.serverPool ∧
      next.net.server.idGen =
        if event = .accept then chan.net.server.idGen.next.2 else chan.net.server.idGen := by
  rcases step_cases stepped with ⟨rfl, -⟩ | ⟨state, phase, after, rfl, -, -, rfl⟩ |
    ⟨state, rest, rfl, -, handledWith⟩ | ⟨owed, outcome, reply, rfl, -⟩ | ⟨memberId, msg, rfl, -⟩
  · simpa using Network.frame_step (net_step stepped rfl).1
  · exact ⟨rfl, by simp⟩
  · obtain ⟨server, effects, handled, -, rfl⟩ := handleWith_eq_ok handledWith
    rw [if_neg (by simp)]
    cases state with
    | finished clientId =>
      cases handled
      exact ⟨rfl, rfl⟩
    | forward target txId request =>
      obtain ⟨rfl, -⟩ := Server.handleClientState_forward handled
      constructor <;> split_ifs <;> rfl
  all_goals simpa using Network.frame_step (net_step stepped rfl).1

/-- Every run the sessions, the channel and the members allow keeps the client table and the
tally, while `id_gen` has room for every connection's id; and the pool stays the one the
coordinator started with. -/
theorem matched_counted_run {chan next : Channels} {events : List ChannelEvent}
    (matched : chan.Matched) (counted : chan.Counted)
    (room : chan.net.server.idGen.counter.toNat + events.count .accept < 2 ^ 64)
    (ran : chan.run events = some (.ok next)) :
    next.Matched ∧ next.Counted ∧ next.net.server.serverPool = chan.net.server.serverPool := by
  induction events generalizing chan with
  | nil =>
    cases ran
    exact ⟨matched, counted, rfl⟩
  | cons event events ih =>
    obtain ⟨middle, stepped, ran⟩ := run_cons_eq_ok ran
    obtain ⟨pool, drawn⟩ := frame_step stepped
    simp only [List.count_cons, beq_iff_eq] at room
    obtain ⟨fits, fresh⟩ := Network.room_after drawn room
    have more := ih (matched.step counted.counted stepped) (counted.step fresh stepped) fits ran
    exact ⟨more.1, more.2.1, more.2.2.trans pool⟩

/-- A coordinator reached from a fresh one, while fewer than `2^64 - 1` clients have connected,
keeps its client table and its tally against the channel, over the pool it started with. -/
theorem matched_counted_of_reached {nodeId : NodeId} {serverPool : List NodeId}
    {events : List ChannelEvent} {chan : Channels} (fewer : events.count .accept + 1 < 2 ^ 64)
    (reached : (init nodeId serverPool).run events = some (.ok chan)) :
    chan.Matched ∧ chan.Counted ∧ chan.net.server.serverPool = serverPool :=
  matched_counted_run (matched_init nodeId serverPool) (counted_init nodeId serverPool)
    (by simp [init, Network.init, Server.start, TransactionIdGenerator.new]; omega) reached

end Channels

/-! ## Answers to sessions that have closed -/

/-- An answer a member owes is for a session, whose handle is there while the session is live or
its `Finished` waits in the channel. -/
theorem Channels.Matched.session_of_owed {chan : Channels} (matched : chan.Matched) {owed : Owed}
    (pending : owed ∈ chan.net.owed) :
    ∃ phase, chan.net.sessions.get? owed.txId = some phase ∧
      (chan.net.server.clients.contains owed.txId = true ↔
        phase.live = true ∨ ClientState.finished owed.txId ∈ chan.inbox) := by
  obtain ⟨phase, session⟩ := Option.isSome_iff_exists.1
    (by simpa [liveness] using matched.owners owed pending)
  exact ⟨phase, session, by simpa [liveness, session] using matched.handles owed.txId⟩

/-- In every run from a fresh coordinator, while fewer than `2^64 - 1` clients have connected, a
member's `Response` to a request it owes stops the coordinator exactly when the transaction's
session has sent `Finished`: with `exit(1)` while the `Finished` waits in the channel, since the
send to the session fails, and at `pass_to_client`'s `unwrap` once the coordinator has taken it.
Otherwise the response reaches the session. -/
theorem response_stops_coordinator_iff_finished (nodeId : NodeId) (serverPool : List NodeId)
    (events : List ChannelEvent) (chan : Channels) (fewer : events.count .accept + 1 < 2 ^ 64)
    (reached : (Channels.init nodeId serverPool).run events = some (.ok chan))
    (owed : Owed) (pending : owed ∈ chan.net.owed) (outcome : ShardOutcome)
    (response : ClientResponse)
    (replied : remoteReply owed.txId owed.request outcome = some (.response owed.txId response)) :
    chan.step (.answer owed outcome) =
      if chan.net.sessions.get? owed.txId = some .finished then
        some (.error (if ClientState.finished owed.txId ∈ chan.inbox then .exit else .panic))
      else some (.ok ⟨{ chan.net with
        sessions := deliver chan.net.sessions [.toClient owed.txId response]
        owed := chan.net.owed.erase owed }, chan.inbox⟩) := by
  obtain ⟨matched, -, -⟩ := Channels.matched_counted_of_reached fewer reached
  obtain ⟨phase, session, handles⟩ := matched.session_of_owed pending
  simp only [Channels.step, if_pos pending, replied, Option.map_some', Channels.handleWith,
    Server.handle, Server.handleServerState, session, Option.some.injEq]
  by_cases finished : phase = .finished
  · subst finished
    by_cases closing : ClientState.finished owed.txId ∈ chan.inbox
    · rw [Server.passToClient_of_contains (handles.2 (.inr closing))]
      simp [Except.map, Except.bind, Effect.reaches, session, closing]
    · rw [Server.passToClient_of_not_contains (by simpa [SessionPhase.live, closing] using handles)]
      simp [Except.map, Except.bind, closing]
  · rw [Server.passToClient_of_contains
      (handles.2 (.inl (by simpa [SessionPhase.live] using finished)))]
    simp [Except.map, Except.bind, Effect.reaches, session, finished, owedBy]

/-- A client that goes away: its session broadcasts `Abort`, the coordinator takes it, and the
session sends `Finished`. Member `B`'s answer to the `Abort` comes before the coordinator takes the
`Finished`, and the send to the closed session stops the coordinator with `exit(1)`. -/
theorem abort_answer_exits_while_finished_queued :
    ∃ chan, (Channels.init 'A' ['A', 'B']).run [.accept,
        .send (.forward .broadcast ⟨1, 'A'⟩ .abort), .receive, .send (.finished ⟨1, 'A'⟩)] =
        some (.ok chan) ∧
      (⟨'B', ⟨1, 'A'⟩, .abort⟩ : Owed) ∈ chan.net.owed ∧
      chan.step (.answer ⟨'B', ⟨1, 'A'⟩, .abort⟩ (.ok 0)) = some (.error .exit) ∧
      chan.step (.answer ⟨'B', ⟨1, 'A'⟩, .abort⟩ (.ok 0)) =
        if chan.net.sessions.get? ⟨1, 'A'⟩ = some .finished then
          some (.error (if ClientState.finished ⟨1, 'A'⟩ ∈ chan.inbox then .exit else .panic))
        else some (.ok ⟨{ chan.net with
          sessions := deliver chan.net.sessions [.toClient ⟨1, 'A'⟩ .aborted]
          owed := chan.net.owed.erase ⟨'B', ⟨1, 'A'⟩, .abort⟩ }, chan.inbox⟩) :=
  ⟨_, rfl, by decide, rfl, response_stops_coordinator_iff_finished 'A' ['A', 'B'] [.accept,
    .send (.forward .broadcast ⟨1, 'A'⟩ .abort), .receive, .send (.finished ⟨1, 'A'⟩)] _
    (by decide) rfl _ (by decide) _ _ rfl⟩

/-- In every run from a fresh coordinator, while fewer than `2^64 - 1` clients have connected, a
member's answer to a `Commit` it owes stops the coordinator exactly when it is the transaction's
last vote and the session has sent `Finished`: with `exit(1)` while the `Finished` waits in the
channel, and at `pass_to_client`'s `unwrap` once the coordinator has taken it. -/
theorem vote_answer_stops_coordinator_iff_finished (nodeId : NodeId) (serverPool : List NodeId)
    (events : List ChannelEvent) (chan : Channels) (fewer : events.count .accept + 1 < 2 ^ 64)
    (reached : (Channels.init nodeId serverPool).run events = some (.ok chan))
    (owed : Owed) (pending : owed ∈ chan.net.owed) (isVote : owed.request = .commit)
    (outcome : ShardOutcome) :
    (votesOwed chan.net.owed owed.txId = 1 → chan.net.sessions.get? owed.txId = some .finished →
      chan.step (.answer owed outcome) =
        some (.error (if ClientState.finished owed.txId ∈ chan.inbox then .exit else .panic))) ∧
    (¬(votesOwed chan.net.owed owed.txId = 1 ∧
        chan.net.sessions.get? owed.txId = some .finished) →
      ∃ next, chan.step (.answer owed outcome) = some (.ok next)) := by
  obtain ⟨matched, counted, -⟩ := Channels.matched_counted_of_reached fewer reached
  obtain ⟨count, currStatus, found, tally⟩ := counted.counted.entry_of_owed pending isVote
  obtain ⟨status, replied⟩ : ∃ status, remoteReply owed.txId owed.request outcome =
      some (.twoPhaseCommitStatus owed.txId status) := by
    rw [isVote]
    cases outcome <;> exact ⟨_, rfl⟩
  obtain ⟨phase, session, handles⟩ := matched.session_of_owed pending
  simp only [Channels.step, if_pos pending, replied, Option.map_some', Channels.handleWith,
    Server.handle, Server.handleServerState, Server.handleTwoPhaseCommit, found, session,
    Option.some.injEq]
  generalize (if status = .cannotCommit then status else currStatus) = verdict
  by_cases last : count + 1 = chan.net.server.serverPool.length
  · have one : votesOwed chan.net.owed owed.txId = 1 := by omega
    rw [if_pos last]
    by_cases finished : phase = .finished
    · subst finished
      by_cases closing : ClientState.finished owed.txId ∈ chan.inbox
      · have registered := handles.2 (.inr closing)
        cases verdict <;> simp [Server.passToClient, registered, closing, one, Except.map,
          Except.bind, Effect.reaches, session]
      · have gone : chan.net.server.clients.contains owed.txId = false := by
          simpa [SessionPhase.live, closing] using handles
        cases verdict <;> simp [Server.passToClient, gone, closing, one, Except.map, Except.bind]
    · have registered := handles.2 (.inl (by simpa [SessionPhase.live] using finished))
      cases verdict <;> simp [Server.passToClient, registered, finished, Except.map, Except.bind,
        Effect.reaches, session, Server.broadcast, Function.comp_def]
  · have many : votesOwed chan.net.owed owed.txId ≠ 1 := by omega
    rw [if_neg last]
    simp [many, Except.map, Except.bind]

/-- A client that goes away while its `Commit` is being voted on: `A` votes, the session
broadcasts `Abort` and sends `Finished`, and `B`'s vote, the last one, comes before the
coordinator takes either. The verdict cannot reach the closed session, and the coordinator exits. -/
theorem last_vote_exits_while_finished_queued :
    ∃ chan, (Channels.init 'A' ['A', 'B']).run [.accept,
        .send (.forward .broadcast ⟨1, 'A'⟩ .commit), .receive,
        .answer ⟨'A', ⟨1, 'A'⟩, .commit⟩ (.ok 0), .send (.forward .broadcast ⟨1, 'A'⟩ .abort),
        .send (.finished ⟨1, 'A'⟩)] = some (.ok chan) ∧
      (⟨'B', ⟨1, 'A'⟩, .commit⟩ : Owed) ∈ chan.net.owed ∧
      chan.step (.answer ⟨'B', ⟨1, 'A'⟩, .commit⟩ (.ok 0)) = some (.error .exit) ∧
      (votesOwed chan.net.owed ⟨1, 'A'⟩ = 1 → chan.net.sessions.get? ⟨1, 'A'⟩ = some .finished →
        chan.step (.answer ⟨'B', ⟨1, 'A'⟩, .commit⟩ (.ok 0)) =
          some (.error (if ClientState.finished ⟨1, 'A'⟩ ∈ chan.inbox then .exit else .panic))) ∧
      (¬(votesOwed chan.net.owed ⟨1, 'A'⟩ = 1 ∧
          chan.net.sessions.get? ⟨1, 'A'⟩ = some .finished) →
        ∃ next, chan.step (.answer ⟨'B', ⟨1, 'A'⟩, .commit⟩ (.ok 0)) = some (.ok next)) :=
  ⟨_, rfl, by decide, rfl, vote_answer_stops_coordinator_iff_finished 'A' ['A', 'B'] [.accept,
    .send (.forward .broadcast ⟨1, 'A'⟩ .commit), .receive,
    .answer ⟨'A', ⟨1, 'A'⟩, .commit⟩ (.ok 0), .send (.forward .broadcast ⟨1, 'A'⟩ .abort),
    .send (.finished ⟨1, 'A'⟩)] _ (by decide) rfl ⟨'B', ⟨1, 'A'⟩, .commit⟩ (by decide) rfl
    (.ok 0)⟩

end TxServer
