import TxServer.Coordinator.Handles

/-!
# The vote tally over every run

`handle_two_phase_commit` takes its transaction's entry of `commit_status` with an `unwrap`,
counts the vote, and drops the entry on the last one. The entry is opened by the session's
`Commit` broadcast, which leaves every member of the pool owing one vote. In every run the
sessions and the members allow from a fresh coordinator, while `id_gen` has not wrapped, an
entry has counted exactly the votes received for its transaction and the members owe the
rest, and no vote is owed for a transaction without an entry. So no vote meets the `unwrap`
without an entry, and none is counted past the size of the pool.

The bound on `id_gen` is needed: a wrapped counter issues an id again, and a second session
with that id can open a second round over the first one's entry.
-/

namespace TxServer

/-- The votes still owed for `txId`: the `Commit` requests of `txId` members have not
answered. -/
def votesOwed (owed : List Owed) (txId : TransactionId) : Nat :=
  owed.countP fun pending => pending.txId = txId ∧ pending.request = .commit

@[simp] theorem votesOwed_append (owed more : List Owed) (txId : TransactionId) :
    votesOwed (owed ++ more) txId = votesOwed owed txId + votesOwed more txId :=
  List.countP_append _ _ _

/-- An answer settles one vote when it answers a `Commit` of `txId`. -/
theorem votesOwed_erase {owed : List Owed} {answered : Owed} (pending : answered ∈ owed)
    (txId : TransactionId) :
    votesOwed owed txId = votesOwed (owed.erase answered) txId +
      if answered.txId = txId ∧ answered.request = .commit then 1 else 0 := by
  rw [votesOwed, (List.perm_cons_erase pending).countP_eq, List.countP_cons]
  simp [votesOwed]

/-- A `Commit` forward leaves each member it reaches owing a vote; other forwards owe none. -/
theorem votesOwed_forward (members : List NodeId) (txId other : TransactionId)
    (request : ClientRequest) :
    votesOwed (owedBy (members.map fun member => .toMember member (.request txId request)))
        other =
      if txId = other ∧ request = .commit then members.length else 0 := by
  rw [owedBy_forward, votesOwed, List.countP_map]
  split_ifs with vote
  · exact List.countP_eq_length.2 fun _ _ => by simpa using vote
  · exact List.countP_eq_zero.2 fun _ _ => by simpa using vote

/-- Quiet sends leave no vote owed. -/
theorem votesOwed_of_quiet {effects : List Effect} (quiet : effects.all Effect.quiet)
    (txId : TransactionId) : votesOwed (owedBy effects) txId = 0 := by
  rw [owedBy_of_quiet quiet]
  rfl

namespace SessionPhase

/-- A session that has sent neither `Commit` nor `Abort`. -/
def forwarding (phase : SessionPhase) : Bool := phase == .active

@[simp] theorem forwarding_receive (phase : SessionPhase) (response : ClientResponse) :
    (phase.receive response).forwarding = phase.forwarding := by
  cases phase <;> cases response <;> rfl

/-- Only a forwarding session sends `Commit`, to the whole pool, and then it stops
forwarding. -/
theorem send_commit {phase next : SessionPhase} {target : ForwardTarget} {txId : TransactionId}
    (sent : phase.send (.forward target txId .commit) = some next) :
    phase.forwarding = true ∧ target = .broadcast ∧ next.forwarding = false := by
  cases phase <;> cases target <;> simp [send] at sent
  subst sent
  exact ⟨rfl, rfl, rfl⟩

/-- A session that no longer forwards never forwards again. -/
theorem forwarding_of_send {phase next : SessionPhase} {state : ClientState}
    (sent : phase.send state = some next) (still : next.forwarding = true) :
    phase.forwarding = true := by
  rcases state with ⟨_ | _, _, _ | _ | _ | _⟩ | _ <;> cases phase <;> simp [send] at sent <;>
    subst sent <;> first | rfl | cases still

end SessionPhase

/-- Whether the session of `txId` still forwards, if it has one. -/
def forwardingOf (sessions : BTreeMap TransactionId SessionPhase) (txId : TransactionId) :
    Option Bool :=
  (sessions.get? txId).map SessionPhase.forwarding

@[simp] theorem forwardingOf_insert (sessions : BTreeMap TransactionId SessionPhase)
    (key txId : TransactionId) (phase : SessionPhase) :
    forwardingOf (sessions.insert key phase) txId =
      if txId = key then some phase.forwarding else forwardingOf sessions txId := by
  simp only [forwardingOf, BTreeMap.get?_insert]
  split_ifs <;> rfl

/-- A new connection starts a forwarding session, and a response changes no session's forwarding. -/
theorem forwardingOf_deliver (sessions : BTreeMap TransactionId SessionPhase)
    (effects : List Effect) (txId : TransactionId) :
    forwardingOf (deliver sessions effects) txId =
      if Effect.spawnClient txId ∈ effects then some true else forwardingOf sessions txId :=
  view_deliver SessionPhase.forwarding SessionPhase.forwarding_receive sessions effects txId

/-- Quiet sends change no session's forwarding. -/
theorem forwardingOf_deliver_of_quiet {effects : List Effect} (quiet : effects.all Effect.quiet)
    (sessions : BTreeMap TransactionId SessionPhase) (txId : TransactionId) :
    forwardingOf (deliver sessions effects) txId = forwardingOf sessions txId := by
  rw [forwardingOf_deliver, if_neg]
  intro spawned
  simpa [Effect.quiet] using List.all_eq_true.1 quiet _ spawned

/-- A forward reaches no session. -/
theorem forwardingOf_deliver_forward (sessions : BTreeMap TransactionId SessionPhase)
    (members : List NodeId) (txId other : TransactionId) (request : ClientRequest) :
    forwardingOf (deliver sessions
        (members.map fun member => .toMember member (.request txId request))) other =
      forwardingOf sessions other := by
  rw [forwardingOf_deliver, if_neg (by simp)]

@[simp] theorem Server.getHandle_commitStatus (self : Server) :
    self.getHandle.2.commitStatus = self.commitStatus := rfl

/-- A message that is not a vote changes nothing of the server. -/
theorem Server.handleServerState_of_not_vote {self next : Server} {state : ServerStateMessage}
    {effects : List Effect}
    (notVote : ∀ txId status, state.msg ≠ .message (.twoPhaseCommitStatus txId status))
    (handled : self.handle (.fromServers state) = .ok (next, effects)) : next = self := by
  simp only [handle, handleServerState] at handled
  split at handled
  · unfold handleRemoteRequest at handled
    split_ifs at handled <;> cases handled
    rfl
  · unfold passToClient at handled
    split_ifs at handled <;> cases handled
    rfl
  · exact absurd ‹_› (notVote _ _)
  · cases handled
    rfl
  · cases handled

namespace Network

/-- The coordinator's entries of `commit_status` against the votes its members owe and the
sessions that opened them. -/
structure VotesCounted (net : Network) : Prop where
  /-- An entry has counted the votes received; the members owe the rest. -/
  tally : ∀ txId count status, net.server.commitStatus.get? txId = some (count, status) →
    count + votesOwed net.owed txId = net.server.serverPool.length
  /-- No vote is owed for a transaction without an entry. -/
  settled : ∀ txId, net.server.commitStatus.get? txId = none → votesOwed net.owed txId = 0
  /-- An entry's session has sent `Commit`. -/
  committing : ∀ txId, (net.server.commitStatus.get? txId).isSome →
    forwardingOf net.sessions txId = some false
  /-- Every session's id was issued before the id `id_gen` issues next. -/
  issued : ∀ txId, (forwardingOf net.sessions txId).isSome →
    txId.counter.toNat < net.server.idGen.counter.toNat

/-- The tally holds at a fresh coordinator. -/
theorem votesCounted_init (nodeId : NodeId) (serverPool : List NodeId) :
    (init nodeId serverPool).VotesCounted :=
  ⟨by simp [init, Server.start], fun _ _ => rfl, by simp [init, Server.start],
    by simp [init, forwardingOf]⟩

/-- A session's new phase keeps every session's id issued. -/
theorem VotesCounted.issued_insert {net : Network} {txId : TransactionId} {phase : SessionPhase}
    (counted : net.VotesCounted) (found : net.sessions.get? txId = some phase)
    (next : SessionPhase) (other : TransactionId)
    (present : (forwardingOf (net.sessions.insert txId next) other).isSome) :
    other.counter.toNat < net.server.idGen.counter.toNat := by
  rw [forwardingOf_insert] at present
  split_ifs at present with same
  · subst same
    exact counted.issued other (by simp [forwardingOf, found])
  · exact counted.issued other present

/-- A server state with no new entry and no new vote owed, and sends that reach no session,
keep the tally. -/
theorem VotesCounted.unchanged {net : Network} {effects : List Effect} {owed : List Owed}
    (counted : net.VotesCounted) (quiet : effects.all Effect.quiet)
    (same : ∀ txId, votesOwed owed txId = votesOwed net.owed txId) :
    VotesCounted ⟨net.server, deliver net.sessions effects, owed ++ owedBy effects⟩ := by
  refine ⟨fun txId count status found => ?_, fun txId absent => ?_, fun txId opened => ?_,
    fun txId started => ?_⟩
  · simpa [same, votesOwed_of_quiet quiet] using counted.tally txId count status found
  · simpa [same, votesOwed_of_quiet quiet] using counted.settled txId absent
  · simpa [forwardingOf_deliver_of_quiet quiet] using counted.committing txId opened
  · exact counted.issued txId (by simpa [forwardingOf_deliver_of_quiet quiet] using started)

/-- A new connection's id has no session, so no entry and no vote owed. -/
theorem VotesCounted.accept {net : Network} {server : Server} {effects : List Effect}
    (counted : net.VotesCounted) (room : net.server.idGen.counter.toNat + 1 < 2 ^ 64)
    (handled : net.server.handle .accept = .ok (server, effects)) :
    VotesCounted ⟨server, deliver net.sessions effects, net.owed ++ owedBy effects⟩ := by
  cases handled
  have advanced := TransactionIdGenerator.next_counter net.server.idGen room
  have fresh : forwardingOf net.sessions net.server.getHandle.1 = none :=
    Option.not_isSome_iff_eq_none.1 fun started => (counted.issued _ started).ne rfl
  have unopened : net.server.commitStatus.get? net.server.getHandle.1 = none :=
    Option.not_isSome_iff_eq_none.1 fun opened => by
      simpa [fresh] using counted.committing _ opened
  have noneOwed : owedBy [.spawnClient net.server.getHandle.1] = [] := rfl
  refine ⟨fun txId count status found => ?_, fun txId absent => ?_, fun txId opened => ?_,
    fun txId started => ?_⟩
  · simpa [noneOwed] using counted.tally txId count status found
  · simpa [noneOwed] using counted.settled txId absent
  · have other : txId ≠ net.server.getHandle.1 := fun same => by
      simp [same, unopened] at opened
    simpa [forwardingOf_deliver, other] using counted.committing txId opened
  · show txId.counter.toNat < net.server.idGen.next.2.counter.toNat
    rw [advanced]
    by_cases same : txId = net.server.getHandle.1
    · subst same
      exact Nat.lt_succ_self _
    · have old := counted.issued txId (by simpa [forwardingOf_deliver, same] using started)
      omega

/-- A session's `Finished` leaves every entry and every vote as they were. -/
theorem VotesCounted.finish {net : Network} {clientId : TransactionId} {phase : SessionPhase}
    {server : Server} {effects : List Effect} (counted : net.VotesCounted)
    (found : net.sessions.get? clientId = some phase)
    (handled : net.server.handle (.fromClients (.finished clientId)) = .ok (server, effects)) :
    VotesCounted ⟨server, deliver (net.sessions.insert clientId .finished) effects,
      net.owed ++ owedBy effects⟩ := by
  cases handled
  have noneOwed : owedBy [] = [] := rfl
  refine ⟨fun txId count status found => ?_, fun txId absent => ?_, fun txId opened => ?_,
    fun txId started => ?_⟩
  · simpa [noneOwed] using counted.tally txId count status found
  · simpa [noneOwed] using counted.settled txId absent
  · have before := counted.committing txId opened
    simp only [deliver, forwardingOf_insert]
    split_ifs
    exacts [rfl, before]
  · exact counted.issued_insert found .finished txId started

/-- A `Commit` opens its transaction's entry with every member owing a vote; any other forward
leaves the entries and the votes as they were. -/
theorem VotesCounted.forward {net : Network} {target : ForwardTarget} {txId : TransactionId}
    {request : ClientRequest} {phase next : SessionPhase} {server : Server}
    {effects : List Effect} (counted : net.VotesCounted)
    (found : net.sessions.get? txId = some phase)
    (sent : phase.send (.forward target txId request) = some next)
    (handled : net.server.handle (.fromClients (.forward target txId request)) =
      .ok (server, effects)) :
    VotesCounted ⟨server, deliver (net.sessions.insert txId next) effects,
      net.owed ++ owedBy effects⟩ := by
  obtain ⟨rfl, members, toPool, rfl⟩ := Server.handleClientState_forward handled
  have reached : ∀ other, forwardingOf (deliver (net.sessions.insert txId next)
      (members.map fun member => .toMember member (.request txId request))) other =
      if other = txId then some next.forwarding else forwardingOf net.sessions other :=
    fun other => by rw [forwardingOf_deliver_forward, forwardingOf_insert]
  have issued : ∀ other, (forwardingOf (deliver (net.sessions.insert txId next)
      (members.map fun member => .toMember member (.request txId request))) other).isSome →
      other.counter.toNat < net.server.idGen.counter.toNat := fun other present =>
    counted.issued_insert found next other (by rwa [forwardingOf_deliver_forward] at present)
  by_cases commit : request = .commit
  · subst commit
    obtain ⟨wasForwarding, rfl, stopped⟩ := SessionPhase.send_commit sent
    cases toPool rfl
    have unopened : net.server.commitStatus.get? txId = none :=
      Option.not_isSome_iff_eq_none.1 fun opened => by
        simpa [forwardingOf, found, wasForwarding] using counted.committing txId opened
    rw [if_pos ⟨rfl, rfl⟩]
    refine ⟨fun other count status opened => ?_, fun other absent => ?_, fun other opened => ?_,
      issued⟩
    · simp only [BTreeMap.get?_insert] at opened
      split_ifs at opened with same
      · cases opened
        subst same
        simp [votesOwed_forward, counted.settled _ unopened]
      · simp [votesOwed_forward, Ne.symm same, counted.tally other count status opened]
    · simp only [BTreeMap.get?_insert] at absent
      split_ifs at absent with same
      simp [votesOwed_forward, Ne.symm same, counted.settled other absent]
    · rw [reached]
      split_ifs with same
      · rw [stopped]
      · exact counted.committing other (by simpa [same] using opened)
  · rw [if_neg fun broadcastCommit => commit broadcastCommit.2]
    refine ⟨fun other count status opened => ?_, fun other absent => ?_, fun other opened => ?_,
      issued⟩
    · simpa [votesOwed_forward, commit] using counted.tally other count status opened
    · simpa [votesOwed_forward, commit] using counted.settled other absent
    · rw [reached]
      split_ifs with same
      · subst same
        have before : phase.forwarding = false := by
          simpa [forwardingOf, found] using counted.committing other opened
        cases after : next.forwarding
        · rfl
        · simp [SessionPhase.forwarding_of_send sent after] at before
      · exact counted.committing other opened

/-- A vote is counted in its entry and is no longer owed; the last one drops the entry. -/
theorem VotesCounted.vote {net : Network} {answered : Owed} {status : CommitStatus}
    {server : Server} {effects : List Effect} (counted : net.VotesCounted)
    (pending : answered ∈ net.owed) (isVote : answered.request = .commit)
    (handled : net.server.handleTwoPhaseCommit answered.txId status = .ok (server, effects)) :
    VotesCounted ⟨server, deliver net.sessions effects,
      net.owed.erase answered ++ owedBy effects⟩ := by
  obtain ⟨⟨count, currStatus, verdict, found, rfl⟩, quiet⟩ :=
    Server.handleTwoPhaseCommit_frame handled
  have counting := counted.tally _ count currStatus found
  have entry : ∀ other, (if count + 1 = net.server.serverPool.length then
      net.server.commitStatus.remove answered.txId
      else net.server.commitStatus.insert answered.txId (count + 1, verdict)).get? other =
      if other = answered.txId then
        (if count + 1 = net.server.serverPool.length then none else some (count + 1, verdict))
      else net.server.commitStatus.get? other := fun other => by
    split_ifs <;> simp [*]
  have votesAfter : ∀ other, votesOwed (net.owed.erase answered ++ owedBy effects) other +
      (if other = answered.txId then 1 else 0) = votesOwed net.owed other := fun other => by
    simpa [votesOwed_of_quiet quiet, isVote, eq_comm] using (votesOwed_erase pending other).symm
  refine ⟨fun other count' status' opened => ?_, fun other absent => ?_, fun other opened => ?_,
    fun other present => ?_⟩
  · show count' + votesOwed (net.owed.erase answered ++ owedBy effects) other =
      net.server.serverPool.length
    have after := votesAfter other
    rw [entry] at opened
    by_cases same : other = answered.txId
    · subst same
      by_cases last : count + 1 = net.server.serverPool.length <;>
        simp [last] at opened after ⊢
      obtain ⟨rfl, -⟩ := opened
      omega
    · rw [if_neg same] at opened after
      have before := counted.tally other count' status' opened
      omega
  · show votesOwed (net.owed.erase answered ++ owedBy effects) other = 0
    have after := votesAfter other
    rw [entry] at absent
    by_cases same : other = answered.txId
    · subst same
      by_cases last : count + 1 = net.server.serverPool.length <;>
        simp [last] at absent after ⊢
      omega
    · rw [if_neg same] at absent after
      have before := counted.settled other absent
      omega
  · rw [forwardingOf_deliver_of_quiet quiet]
    by_cases same : other = answered.txId
    · subst same
      exact counted.committing _ (by simp [found])
    · rw [entry, if_neg same] at opened
      exact counted.committing other opened
  · exact counted.issued other (by simpa [forwardingOf_deliver_of_quiet quiet] using present)

/-- The handlers keep the pool, and only a new connection draws an id. -/
theorem frame_step {net next : Network} {event : NetEvent}
    (stepped : net.step event = some (.ok next)) :
    next.server.serverPool = net.server.serverPool ∧
      next.server.idGen = if event = .accept then net.server.idGen.next.2 else net.server.idGen := by
  rcases step_cases stepped with ⟨rfl, handledWith⟩ |
    ⟨state, phase, after, rfl, -, -, handledWith⟩ |
    ⟨owed, outcome, reply, rfl, -, -, handledWith⟩ | ⟨memberId, msg, rfl, -, handledWith⟩ <;>
    obtain ⟨server, effects, handled, rfl⟩ := handleWith_eq_ok handledWith
  · cases handled
    exact ⟨rfl, rfl⟩
  all_goals rw [if_neg (by simp)]
  · cases state with
    | finished clientId =>
      cases handled
      exact ⟨rfl, rfl⟩
    | forward target txId request =>
      obtain ⟨rfl, -⟩ := Server.handleClientState_forward handled
      constructor <;> split_ifs <;> rfl
  all_goals
    rw [(Server.handleServerState_frame handled).1]
    exact ⟨rfl, rfl⟩

/-- Every input the two sides allow keeps the tally, while `id_gen` has room for a new
connection's id. -/
theorem VotesCounted.step {net next : Network} {event : NetEvent} (counted : net.VotesCounted)
    (room : event = .accept → net.server.idGen.counter.toNat + 1 < 2 ^ 64)
    (stepped : net.step event = some (.ok next)) : next.VotesCounted := by
  rcases step_cases stepped with ⟨rfl, handledWith⟩ |
    ⟨state, phase, after, -, found, sent, handledWith⟩ |
    ⟨owed, outcome, reply, -, pending, replied, handledWith⟩ |
    ⟨memberId, msg, -, shape, handledWith⟩ <;>
    obtain ⟨server, effects, handled, rfl⟩ := handleWith_eq_ok handledWith
  · exact counted.accept (room rfl) handled
  · cases state with
    | finished clientId =>
      cases SessionPhase.send_finished sent
      exact counted.finish found handled
    | forward target txId request => exact counted.forward found sent handled
  · by_cases isVote : owed.request = .commit
    · obtain ⟨status, rfl⟩ : ∃ status, reply = .twoPhaseCommitStatus owed.txId status := by
        rw [isVote] at replied
        cases outcome <;> simp only [remoteReply, Option.some.injEq] at replied <;>
          exact ⟨_, replied.symm⟩
      exact counted.vote pending isVote handled
    · have notVote : ∀ txId status, reply ≠ .twoPhaseCommitStatus txId status := by
        rintro txId status rfl
        cases request : owed.request <;> cases outcome <;>
          simp [remoteReply, request] at replied isVote
      cases Server.handleServerState_of_not_vote (by simpa using notVote) handled
      refine counted.unchanged (Server.handleServerState_frame handled).2 fun other => ?_
      simpa [isVote] using (votesOwed_erase pending other).symm
  · have notVote : ∀ txId status, msg ≠ .twoPhaseCommitStatus txId status := by
      rcases shape with ⟨_, _, rfl⟩ | ⟨_, rfl⟩ <;> simp
    cases Server.handleServerState_of_not_vote (by simpa using notVote) handled
    exact counted.unchanged (Server.handleServerState_frame handled).2 fun _ => rfl

/-- A new connection starts a session under a fresh id, and no other input starts one or drops
one. -/
theorem VotesCounted.len_step {net next : Network} {event : NetEvent} (counted : net.VotesCounted)
    (stepped : net.step event = some (.ok next)) :
    next.sessions.len = net.sessions.len + if event = .accept then 1 else 0 := by
  rcases step_cases stepped with ⟨rfl, handledWith⟩ |
    ⟨state, phase, after, rfl, found, -, handledWith⟩ |
    ⟨owed, outcome, reply, rfl, -, -, handledWith⟩ | ⟨memberId, msg, rfl, -, handledWith⟩ <;>
    obtain ⟨server, effects, handled, rfl⟩ := handleWith_eq_ok handledWith
  · cases handled
    rw [if_pos rfl]
    refine BTreeMap.len_insert _ (Bool.eq_false_iff.2 fun held => ?_)
    obtain ⟨phase, found⟩ := BTreeMap.containsKey_iff.1 held
    exact (counted.issued net.server.getHandle.1 (by simp [forwardingOf, found])).ne rfl
  all_goals rw [if_neg (by simp), Nat.add_zero]
  · have unspawned : ∀ txId, Effect.spawnClient txId ∉ effects := by
      cases state with
      | finished clientId =>
        cases handled
        simp
      | forward target txId request =>
        obtain ⟨-, members, -, rfl⟩ := Server.handleClientState_forward handled
        simp
    rw [len_deliver unspawned, BTreeMap.len_insert_of_containsKey _
      (by simp [BTreeMap.containsKey, found])]
  all_goals
    refine len_deliver (fun txId spawned => ?_) _
    simpa [Effect.quiet] using
      List.all_eq_true.1 (Server.handleServerState_frame handled).2 _ spawned

/-- Room in `id_gen` for an input's id and every later connection's leaves room, after the
input, for the later ones. -/
theorem room_after {gen drawn : TransactionIdGenerator} {accepted : Prop} [Decidable accepted]
    {later : Nat} (drawnEq : drawn = if accepted then gen.next.2 else gen)
    (room : gen.counter.toNat + (later + if accepted then 1 else 0) < 2 ^ 64) :
    drawn.counter.toNat + later < 2 ^ 64 ∧ (accepted → gen.counter.toNat + 1 < 2 ^ 64) := by
  subst drawnEq
  by_cases drawsId : accepted
  · simp only [if_pos drawsId] at room ⊢
    rw [TransactionIdGenerator.next_counter _ (by omega)]
    exact ⟨by omega, fun _ => by omega⟩
  · simp only [if_neg drawsId] at room ⊢
    exact ⟨by omega, fun drawn => absurd drawn drawsId⟩

/-- So does every run the two sides allow, while `id_gen` has room for every connection's
id; the pool stays the one the coordinator started with, and each connection adds a session. -/
theorem VotesCounted.run {net next : Network} {events : List NetEvent}
    (counted : net.VotesCounted)
    (room : net.server.idGen.counter.toNat + events.count .accept < 2 ^ 64)
    (ran : net.run events = some (.ok next)) :
    next.VotesCounted ∧ next.server.serverPool = net.server.serverPool ∧
      next.sessions.len = net.sessions.len + events.count .accept := by
  induction events generalizing net with
  | nil =>
    cases ran
    exact ⟨counted, rfl, rfl⟩
  | cons event events ih =>
    obtain ⟨middle, stepped, ran⟩ := run_cons_eq_ok ran
    obtain ⟨pool, drawn⟩ := frame_step stepped
    simp only [List.count_cons, beq_iff_eq] at room ⊢
    obtain ⟨fits, fresh⟩ := room_after drawn room
    have more := ih (counted.step fresh stepped) fits ran
    refine ⟨more.1, more.2.1.trans pool, ?_⟩
    rw [more.2.2, counted.len_step stepped]
    omega

/-- An owed vote finds its entry, which has counted the other votes received. -/
theorem VotesCounted.entry_of_owed {net : Network} {owed : Owed} (counted : net.VotesCounted)
    (pending : owed ∈ net.owed) (isVote : owed.request = .commit) :
    ∃ count status, net.server.commitStatus.get? owed.txId = some (count, status) ∧
      count + votesOwed net.owed owed.txId = net.server.serverPool.length := by
  have owing : 0 < votesOwed net.owed owed.txId :=
    List.countP_pos_iff.2 ⟨owed, pending, by simp [isVote]⟩
  cases found : net.server.commitStatus.get? owed.txId with
  | none => exact absurd (counted.settled _ found) owing.ne'
  | some entry => exact ⟨entry.1, entry.2, rfl, counted.tally _ _ _ found⟩

end Network

end TxServer
