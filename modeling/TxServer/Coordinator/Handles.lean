import TxServer.Coordinator.Network

/-!
# Client handles and sessions

In every run the sessions and the members allow from a fresh coordinator, the client table
holds exactly the transactions whose session has not sent `Finished`, and every answer a
member owes is for a transaction that has a session. While `id_gen` has not wrapped, every
connection has a session of its own (`Votes`). `Channels` carries the table over to the
coordinator with its channel from the sessions, where it decides what a member's answer to a
finished session does.
-/

namespace TxServer

namespace SessionPhase

/-- A session that has not sent `Finished`. -/
def live (phase : SessionPhase) : Bool := phase != .finished

@[simp] theorem live_receive (phase : SessionPhase) (response : ClientResponse) :
    (phase.receive response).live = phase.live := by
  cases phase <;> cases response <;> rfl

/-- Only a live session sends. -/
theorem live_of_send {phase next : SessionPhase} {state : ClientState}
    (sent : phase.send state = some next) : phase.live = true := by
  cases phase <;> simp_all [send, live]

/-- A session that sends `Finished` has finished. -/
theorem send_finished {phase next : SessionPhase} {clientId : TransactionId}
    (sent : phase.send (.finished clientId) = some next) : next = .finished := by
  cases phase <;> simp_all [send]

/-- A session stays live while it forwards. -/
theorem live_of_send_forward {phase next : SessionPhase} {target : ForwardTarget}
    {txId : TransactionId} {request : ClientRequest}
    (sent : phase.send (.forward target txId request) = some next) : next.live = true := by
  cases phase <;> cases target <;> cases request <;> simp [send] at sent <;> subst sent <;> rfl

end SessionPhase

/-- Whether the session of `txId` is live, if it has one. -/
def liveness (sessions : BTreeMap TransactionId SessionPhase) (txId : TransactionId) :
    Option Bool :=
  (sessions.get? txId).map SessionPhase.live

@[simp] theorem liveness_new (txId : TransactionId) : liveness BTreeMap.new txId = none := rfl

@[simp] theorem liveness_insert (sessions : BTreeMap TransactionId SessionPhase)
    (key txId : TransactionId) (phase : SessionPhase) :
    liveness (sessions.insert key phase) txId =
      if txId = key then some phase.live else liveness sessions txId := by
  simp only [liveness, BTreeMap.get?_insert]
  split_ifs <;> rfl

/-- What `view` sees of the sessions after the coordinator's sends reach them: a new
connection starts an active session, and a response changes nothing `view` sees. -/
theorem view_deliver {β : Type} (view : SessionPhase → β)
    (unmoved : ∀ phase response, view (phase.receive response) = view phase)
    (sessions : BTreeMap TransactionId SessionPhase) (effects : List Effect)
    (txId : TransactionId) :
    ((deliver sessions effects).get? txId).map view =
      if Effect.spawnClient txId ∈ effects then some (view .active)
      else (sessions.get? txId).map view := by
  induction effects generalizing sessions with
  | nil => simp [deliver]
  | cons effect effects ih =>
    cases effect with
    | spawnClient spawned =>
      rw [deliver, ih]
      by_cases same : txId = spawned <;> simp [same]
    | toClient client response =>
      rw [deliver, ih]
      cases found : sessions.get? client with
      | none => simp
      | some phase =>
        by_cases same : txId = client
        · simp [same, found, unmoved]
        · simp [same]
    | _ => exact (ih sessions).trans (by simp)

/-- A new connection starts a live session, and a response neither starts nor finishes
one. -/
theorem liveness_deliver (sessions : BTreeMap TransactionId SessionPhase) (effects : List Effect)
    (txId : TransactionId) :
    liveness (deliver sessions effects) txId =
      if Effect.spawnClient txId ∈ effects then some true else liveness sessions txId :=
  view_deliver SessionPhase.live SessionPhase.live_receive sessions effects txId

/-- A session, once started, is never dropped. -/
theorem isSome_liveness_deliver {sessions : BTreeMap TransactionId SessionPhase}
    {txId : TransactionId} (started : (liveness sessions txId).isSome) (effects : List Effect) :
    (liveness (deliver sessions effects) txId).isSome := by
  rw [liveness_deliver]
  split_ifs
  exacts [rfl, started]

/-- Without a new connection, the sends start no session and drop none. -/
theorem len_deliver {effects : List Effect} (unspawned : ∀ txId, Effect.spawnClient txId ∉ effects)
    (sessions : BTreeMap TransactionId SessionPhase) :
    (deliver sessions effects).len = sessions.len := by
  induction effects generalizing sessions with
  | nil => rfl
  | cons effect effects ih =>
    have later : ∀ txId, Effect.spawnClient txId ∉ effects := fun txId spawned =>
      unspawned txId (List.mem_cons_of_mem _ spawned)
    cases effect with
    | spawnClient txId => exact absurd (List.mem_cons_self _ _) (unspawned txId)
    | toClient client response =>
      rw [deliver, ih later]
      cases found : sessions.get? client with
      | none => rfl
      | some phase => exact BTreeMap.len_insert_of_containsKey _ (by simp [BTreeMap.containsKey, found])
    | _ => exact ih later sessions

/-- A send that neither starts a session nor leaves a member owing an answer. -/
def Effect.quiet : Effect → Bool
  | .toMember _ (.request _ _) => false
  | .spawnClient _ => false
  | _ => true

/-- Quiet sends start no session and finish none. -/
theorem liveness_deliver_of_quiet {effects : List Effect} (quiet : effects.all Effect.quiet)
    (sessions : BTreeMap TransactionId SessionPhase) (txId : TransactionId) :
    liveness (deliver sessions effects) txId = liveness sessions txId := by
  rw [liveness_deliver, if_neg]
  intro spawned
  simpa [Effect.quiet] using List.all_eq_true.1 quiet _ spawned

/-- Quiet sends leave the members owing nothing. -/
theorem owedBy_of_quiet {effects : List Effect} (quiet : effects.all Effect.quiet) :
    owedBy effects = [] := by
  refine List.filterMap_eq_nil_iff.2 fun effect sent => ?_
  have := List.all_eq_true.1 quiet effect sent
  split <;> simp_all [Effect.quiet]

/-- A forward of one request to some members leaves each of them owing its answer. -/
theorem owedBy_forward (members : List NodeId) (txId : TransactionId) (request : ClientRequest) :
    owedBy (members.map fun member => .toMember member (.request txId request)) =
      members.map fun member => ⟨member, txId, request⟩ := by
  rw [owedBy, List.filterMap_map]
  exact congrFun (List.filterMap_eq_map fun member => (⟨member, txId, request⟩ : Owed)) members

namespace Server

@[simp] theorem getHandle_clients (self : Server) : self.getHandle.2.clients = self.clients := rfl

/-- A vote counts itself in its transaction's entry, which the last vote drops. It changes
nothing else of the server, and neither spawns a session nor forwards a request. -/
theorem handleTwoPhaseCommit_frame {self next : Server} {txId : TransactionId}
    {status : CommitStatus} {effects : List Effect}
    (handled : self.handleTwoPhaseCommit txId status = .ok (next, effects)) :
    (∃ count currStatus verdict, self.commitStatus.get? txId = some (count, currStatus) ∧
      next = { self with commitStatus :=
        if count + 1 = self.serverPool.length then self.commitStatus.remove txId
        else self.commitStatus.insert txId (count + 1, verdict) }) ∧
    effects.all Effect.quiet := by
  cases found : self.commitStatus.get? txId with
  | none => simp [handleTwoPhaseCommit, found] at handled
  | some entry =>
    obtain ⟨count, currStatus⟩ := entry
    simp only [handleTwoPhaseCommit, found] at handled
    generalize (if status = .cannotCommit then status else currStatus) = verdict at handled
    split_ifs at handled with last
    · cases verdict <;> unfold passToClient at handled <;> split_ifs at handled <;>
        cases handled <;>
        exact ⟨⟨count, currStatus, .readyToCommit, rfl, by rw [if_pos last]⟩,
          by simp [broadcast, Effect.quiet]⟩
    · cases handled
      exact ⟨⟨count, currStatus, verdict, rfl, by rw [if_neg last]⟩, rfl⟩

/-- A member's message changes nothing of the server but `commit_status`, and neither spawns
a session nor forwards a request. -/
theorem handleServerState_frame {self next : Server} {state : ServerStateMessage}
    {effects : List Effect} (handled : self.handle (.fromServers state) = .ok (next, effects)) :
    next = { self with commitStatus := next.commitStatus } ∧ effects.all Effect.quiet := by
  simp only [handle, handleServerState] at handled
  split at handled
  · unfold handleRemoteRequest at handled
    split_ifs at handled <;> cases handled
    exact ⟨rfl, rfl⟩
  · unfold passToClient at handled
    split_ifs at handled <;> cases handled
    exact ⟨rfl, rfl⟩
  · obtain ⟨⟨-, -, -, -, rfl⟩, quiet⟩ := handleTwoPhaseCommit_frame handled
    exact ⟨rfl, quiet⟩
  · cases handled
    exact ⟨rfl, rfl⟩
  · cases handled

/-- A session's forward sends its request to the key's owner or to the whole pool; a `Commit`
broadcast also opens the transaction's entry with no votes. -/
theorem handleClientState_forward {self next : Server} {target : ForwardTarget}
    {txId : TransactionId} {request : ClientRequest} {effects : List Effect}
    (handled : self.handleClientState (.forward target txId request) = .ok (next, effects)) :
    next = (if target = .broadcast ∧ request = .commit then
        { self with commitStatus := self.commitStatus.insert txId (0, .readyToCommit) }
      else self) ∧
    ∃ members : List NodeId, (target = .broadcast → members = self.serverPool) ∧
      effects = members.map fun member => .toMember member (.request txId request) := by
  cases target with
  | broadcast =>
    cases handled
    by_cases commit : request = .commit <;> simp [commit, broadcast]
  | node nodeId =>
    simp only [handleClientState, passMessage] at handled
    split_ifs at handled <;> cases handled
    exact ⟨by simp, [nodeId], by simp, rfl⟩

end Server

namespace Network

/-- A handling that does not stop the coordinator is the handler's result, delivered. -/
theorem handleWith_eq_ok {net next : Network} {event : Event}
    {sessions : BTreeMap TransactionId SessionPhase} {owed : List Owed}
    (handled : net.handleWith event sessions owed = .ok next) :
    ∃ server effects, net.server.handle event = .ok (server, effects) ∧
      next = ⟨server, deliver sessions effects, owed ++ owedBy effects⟩ := by
  unfold handleWith at handled
  cases handledBy : net.server.handle event with
  | error halt => simp [handledBy, Except.map] at handled
  | ok result =>
    simp only [handledBy, Except.map, Except.ok.injEq] at handled
    exact ⟨result.1, result.2, rfl, handled.symm⟩

/-- What one allowed input does: the handler it runs, on the sessions and owed answers the
input leaves. -/
theorem step_cases {net next : Network} {event : NetEvent}
    (stepped : net.step event = some (.ok next)) :
    (event = .accept ∧ net.handleWith .accept net.sessions net.owed = .ok next) ∨
    (∃ state phase after, event = .session state ∧ net.sessions.get? state.txId = some phase ∧
      phase.send state = some after ∧
      net.handleWith (.fromClients state) (net.sessions.insert state.txId after) net.owed =
        .ok next) ∨
    (∃ owed outcome reply, event = .answer owed outcome ∧ owed ∈ net.owed ∧
      remoteReply owed.txId owed.request outcome = some reply ∧
      net.handleWith (.fromServers ⟨owed.memberId, .message reply⟩) net.sessions
        (net.owed.erase owed) = .ok next) ∨
    (∃ memberId msg, event = .remote memberId msg ∧
      ((∃ txId request, msg = .request txId request) ∨ ∃ txId, msg = .doCommit txId) ∧
      net.handleWith (.fromServers ⟨memberId, .message msg⟩) net.sessions net.owed = .ok next) := by
  cases event with
  | accept => exact .inl ⟨rfl, Option.some.inj stepped⟩
  | session state =>
    simp only [step, Option.bind_eq_some] at stepped
    obtain ⟨phase, found, after, sent, stepped⟩ := stepped
    split_ifs at stepped
    exact .inr (.inl ⟨state, phase, after, rfl, found, sent, Option.some.inj stepped⟩)
  | answer owed outcome =>
    simp only [step] at stepped
    split_ifs at stepped with pending
    obtain ⟨reply, replied, stepped⟩ := Option.map_eq_some'.1 stepped
    exact .inr (.inr (.inl ⟨owed, outcome, reply, rfl, pending, replied, stepped⟩))
  | remote memberId msg =>
    cases msg <;> simp only [step, Option.ite_none_right_eq_some, Option.some.injEq,
      reduceCtorEq] at stepped
    · exact .inr (.inr (.inr ⟨memberId, _, rfl, .inl ⟨_, _, rfl⟩, stepped.2⟩))
    · exact .inr (.inr (.inr ⟨memberId, _, rfl, .inr ⟨_, rfl⟩, stepped.2⟩))

/-- A run that ends well takes its first step well. -/
theorem run_cons_eq_ok {net next : Network} {event : NetEvent} {events : List NetEvent}
    (ran : net.run (event :: events) = some (.ok next)) :
    ∃ middle, net.step event = some (.ok middle) ∧ middle.run events = some (.ok next) := by
  simp only [run, Option.bind_eq_some] at ran
  obtain ⟨result, stepped, ran⟩ := ran
  cases result with
  | ok middle => exact ⟨middle, stepped, ran⟩
  | error halt => cases ran

/-- The coordinator's client table matches the sessions, and the members owe answers only for
transactions that have a session. -/
structure Matched (net : Network) : Prop where
  /-- A transaction has a client handle exactly when its session is live. -/
  handles : ∀ txId, net.server.clients.contains txId = true ↔ liveness net.sessions txId = some true
  /-- Every answer a member owes is for a transaction with a session. -/
  owners : ∀ owed ∈ net.owed, (liveness net.sessions owed.txId).isSome

/-- A fresh coordinator has no handle, no session and nothing owed. -/
theorem matched_init (nodeId : NodeId) (serverPool : List NodeId) :
    (init nodeId serverPool).Matched :=
  ⟨fun txId => by simp [init, Server.start], by simp [init]⟩

/-- A member's message keeps the client table matched with the sessions, whichever answers
the members still owe after it. -/
theorem Matched.serverState {net : Network} {state : ServerStateMessage} {server : Server}
    {effects : List Effect} {owed : List Owed} (matched : net.Matched)
    (handled : net.server.handle (.fromServers state) = .ok (server, effects))
    (answered : ∀ other ∈ owed, other ∈ net.owed) :
    Matched ⟨server, deliver net.sessions effects, owed ++ owedBy effects⟩ := by
  obtain ⟨frame, quiet⟩ := Server.handleServerState_frame handled
  have kept : server.clients = net.server.clients := by rw [frame]
  refine ⟨fun txId => ?_, fun other owing => ?_⟩
  · simpa [liveness_deliver_of_quiet quiet, kept] using matched.handles txId
  · rw [owedBy_of_quiet quiet, List.append_nil] at owing
    rw [liveness_deliver_of_quiet quiet]
    exact matched.owners other (answered other owing)

/-- A new connection gets a handle and a live session. -/
theorem Matched.accept {net : Network} {server : Server} {effects : List Effect}
    (matched : net.Matched) (handled : net.server.handle .accept = .ok (server, effects)) :
    Matched ⟨server, deliver net.sessions effects, net.owed ++ owedBy effects⟩ := by
  cases handled
  refine ⟨fun txId => ?_, fun owed pending => ?_⟩
  · by_cases fresh : txId = net.server.getHandle.1
    · simp [liveness_deliver, fresh]
    · simpa [liveness_deliver, fresh] using matched.handles txId
  · simp only [owedBy, List.filterMap_cons, List.filterMap_nil, List.append_nil] at pending
    exact isSome_liveness_deliver (matched.owners owed pending) _

/-- A session's `Finished` drops its handle as the session finishes. -/
theorem Matched.finish {net : Network} {clientId : TransactionId} {server : Server}
    {effects : List Effect} (matched : net.Matched)
    (handled : net.server.handle (.fromClients (.finished clientId)) = .ok (server, effects)) :
    Matched ⟨server, deliver (net.sessions.insert clientId .finished) effects,
      net.owed ++ owedBy effects⟩ := by
  cases handled
  refine ⟨fun txId => ?_, fun owed pending => ?_⟩
  · by_cases same : txId = clientId
    · simp [same, deliver, SessionPhase.live]
    · simpa [same, deliver] using matched.handles txId
  · simp only [owedBy, List.filterMap_nil, List.append_nil] at pending
    simp only [deliver, liveness_insert]
    split_ifs
    exacts [rfl, matched.owners owed pending]

/-- A live session's forward keeps it live, and the members it reaches owe answers for
it. -/
theorem Matched.forward {net : Network} {target : ForwardTarget} {txId : TransactionId}
    {request : ClientRequest} {phase next : SessionPhase} {server : Server}
    {effects : List Effect} (matched : net.Matched) (found : net.sessions.get? txId = some phase)
    (sent : phase.send (.forward target txId request) = some next)
    (handled : net.server.handle (.fromClients (.forward target txId request)) =
      .ok (server, effects)) :
    Matched ⟨server, deliver (net.sessions.insert txId next) effects,
      net.owed ++ owedBy effects⟩ := by
  obtain ⟨rfl, members, -, rfl⟩ := Server.handleClientState_forward handled
  have live : phase.live = true := SessionPhase.live_of_send sent
  have stays : next.live = true := SessionPhase.live_of_send_forward sent
  have forwarded : ∀ other, liveness (deliver (net.sessions.insert txId next)
      (members.map fun member => .toMember member (.request txId request))) other =
      if other = txId then some next.live else liveness net.sessions other := by
    intro other
    rw [liveness_deliver, if_neg (by simp), liveness_insert]
  refine ⟨fun other => ?_, fun owed pending => ?_⟩
  · rw [forwarded, apply_ite Server.clients, ite_self, matched.handles]
    split_ifs with same
    · subst same
      simp [liveness, found, live, stays]
    · rfl
  · rw [forwarded]
    split_ifs with same
    · rfl
    · rw [owedBy_forward, List.mem_append, List.mem_map] at pending
      rcases pending with old | ⟨member, -, rfl⟩
      · exact matched.owners owed old
      · exact absurd rfl same

/-- Every input the two sides allow keeps the client table matched with the sessions. -/
theorem Matched.step {net next : Network} {event : NetEvent} (matched : net.Matched)
    (stepped : net.step event = some (.ok next)) : next.Matched := by
  rcases step_cases stepped with ⟨-, handledWith⟩ |
    ⟨state, phase, after, -, found, sent, handledWith⟩ |
    ⟨owed, outcome, reply, -, -, -, handledWith⟩ | ⟨memberId, msg, -, -, handledWith⟩ <;>
    obtain ⟨server, effects, handled, rfl⟩ := handleWith_eq_ok handledWith
  · exact matched.accept handled
  · cases state with
    | finished clientId =>
      cases SessionPhase.send_finished sent
      exact matched.finish handled
    | forward target txId request => exact matched.forward found sent handled
  · exact matched.serverState handled fun other => List.mem_of_mem_erase
  · exact matched.serverState handled fun _ => id

/-- So does every run the two sides allow. -/
theorem Matched.run {net next : Network} {events : List NetEvent} (matched : net.Matched)
    (ran : net.run events = some (.ok next)) : next.Matched := by
  induction events generalizing net with
  | nil => cases ran; exact matched
  | cons event events ih =>
    obtain ⟨middle, stepped, ran⟩ := run_cons_eq_ok ran
    exact ih (matched.step stepped) ran

end Network

end TxServer
