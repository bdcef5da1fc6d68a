import TxServer.Coordinator.Server

/-!
# Two-phase commit at the coordinator

A session's `Commit` is broadcast to every member of the pool, and the coordinator counts
the members' votes in `commit_status`. Over any interleaving of the votes of any number of
transactions, the entry of a transaction holds the number of its votes so far and the
verdict they give. On the last vote the coordinator sends the verdict to the client,
broadcasts `DoCommit` after `CommitOk`, and drops the entry. What the coordinator holds and
sends for a transaction depends on that transaction's votes only.

The round follows the spec's concurrency model: a session forwards `Commit` at most once,
and each member answers each `Commit` broadcast with one vote, after it.
-/

namespace TxServer

/-- An input of two-phase commit at a coordinator: a session forwards `Commit`, or a
member's vote arrives. -/
inductive RoundEvent where
  | commit (txId : TransactionId)
  | vote (memberId : NodeId) (txId : TransactionId) (status : CommitStatus)
  deriving DecidableEq, Repr

namespace RoundEvent

/-- The coordinator event that delivers it. -/
def toEvent : RoundEvent → Event
  | .commit txId => .fromClients (.forward .broadcast txId .commit)
  | .vote memberId txId status =>
    .fromServers ⟨memberId, .message (.twoPhaseCommitStatus txId status)⟩

/-- The transaction whose `Commit` it forwards. -/
def committed? : RoundEvent → Option TransactionId
  | .commit txId => some txId
  | .vote .. => none

/-- The member and the vote it delivers on `txId`. -/
def ballot? (txId : TransactionId) : RoundEvent → Option (NodeId × CommitStatus)
  | .commit _ => none
  | .vote memberId voted status => if voted = txId then some (memberId, status) else none

end RoundEvent

/-- The transactions whose `Commit` a round forwards. -/
def commitsOf (events : List RoundEvent) : List TransactionId :=
  events.filterMap RoundEvent.committed?

/-- The votes a round delivers on `txId`, with their members. -/
def ballotsOf (txId : TransactionId) (events : List RoundEvent) : List (NodeId × CommitStatus) :=
  events.filterMap (RoundEvent.ballot? txId)

/-- The verdict of some votes: `ReadyToCommit` exactly when every vote is. -/
def verdict (ballots : List (NodeId × CommitStatus)) : CommitStatus :=
  if ballots.all fun ballot => ballot.2 = .readyToCommit then .readyToCommit else .cannotCommit

/-- A send that decides `txId`: a response to its client, or `DoCommit` of it. -/
def Effect.decides (txId : TransactionId) : Effect → Bool
  | .toClient client _ => client == txId
  | .toMember _ (.doCommit committed) => committed == txId
  | _ => false

/-- Every vote comes after the `Commit` of its transaction, the ones in `started` having
come before the round. -/
def votesAfter (started : List TransactionId) : List RoundEvent → Bool
  | [] => true
  | .commit txId :: rest => votesAfter (txId :: started) rest
  | .vote _ txId _ :: rest => decide (txId ∈ started) && votesAfter started rest

/-- Modelled from the spec: the round follows two-phase commit. Each session forwards
`Commit` at most once, and each member of the pool answers each `Commit` broadcast with one
vote, after it. -/
structure FollowsRound (members : List NodeId) (events : List RoundEvent) : Prop where
  commitOnce : (commitsOf events).Nodup
  voteAfterCommit : votesAfter [] events = true
  voteOnce : ∀ txId ∈ commitsOf events, ((ballotsOf txId events).map Prod.fst).Nodup
  voterMember : ∀ txId ∈ commitsOf events, ∀ ballot ∈ ballotsOf txId events, ballot.1 ∈ members

instance (members : List NodeId) (events : List RoundEvent) :
    Decidable (FollowsRound members events) :=
  decidable_of_iff ((commitsOf events).Nodup ∧ votesAfter [] events = true ∧
      (∀ txId ∈ commitsOf events, ((ballotsOf txId events).map Prod.fst).Nodup) ∧
      ∀ txId ∈ commitsOf events, ∀ ballot ∈ ballotsOf txId events, ballot.1 ∈ members)
    ⟨fun ⟨a, b, c, d⟩ => ⟨a, b, c, d⟩, fun ⟨a, b, c, d⟩ => ⟨a, b, c, d⟩⟩

/-! ## The events of a round -/

@[simp] theorem commitsOf_nil : commitsOf [] = [] := rfl

@[simp] theorem commitsOf_cons_commit (txId : TransactionId) (events : List RoundEvent) :
    commitsOf (.commit txId :: events) = txId :: commitsOf events := rfl

@[simp] theorem commitsOf_cons_vote (memberId : NodeId) (txId : TransactionId)
    (status : CommitStatus) (events : List RoundEvent) :
    commitsOf (.vote memberId txId status :: events) = commitsOf events := rfl

@[simp] theorem commitsOf_append (events more : List RoundEvent) :
    commitsOf (events ++ more) = commitsOf events ++ commitsOf more :=
  List.filterMap_append _ _ _

@[simp] theorem commitsOf_commit (txId : TransactionId) : commitsOf [.commit txId] = [txId] :=
  rfl

@[simp] theorem commitsOf_vote (memberId : NodeId) (txId : TransactionId)
    (status : CommitStatus) : commitsOf [.vote memberId txId status] = [] := rfl

@[simp] theorem ballotsOf_append (txId : TransactionId) (events more : List RoundEvent) :
    ballotsOf txId (events ++ more) = ballotsOf txId events ++ ballotsOf txId more :=
  List.filterMap_append _ _ _

@[simp] theorem ballotsOf_commit (txId committed : TransactionId) :
    ballotsOf txId [.commit committed] = [] := rfl

@[simp] theorem ballotsOf_vote (txId : TransactionId) (memberId : NodeId) (voted : TransactionId)
    (status : CommitStatus) :
    ballotsOf txId [.vote memberId voted status] =
      if voted = txId then [(memberId, status)] else [] := by
  by_cases same : voted = txId <;> simp [ballotsOf, RoundEvent.ballot?, same]

/-- A vote adds a `CannotCommit` to the verdict, as `handle_two_phase_commit` latches it. -/
theorem verdict_append (ballots : List (NodeId × CommitStatus)) (memberId : NodeId)
    (status : CommitStatus) :
    verdict (ballots ++ [(memberId, status)]) =
      if status = .cannotCommit then status else verdict ballots := by
  unfold verdict
  rw [List.all_append]
  cases status
  · simp only [List.all_cons, List.all_nil, decide_True, Bool.and_true]
    simp
  · simp

/-- A prefix of a round has its votes after their commits too. -/
theorem votesAfter_of_append {started : List TransactionId} {events more : List RoundEvent}
    (after : votesAfter started (events ++ more) = true) : votesAfter started events = true := by
  induction events generalizing started with
  | nil => rfl
  | cons event events ih =>
    cases event with
    | commit txId => exact ih after
    | vote memberId txId status =>
      simp only [List.cons_append, votesAfter, Bool.and_eq_true] at after ⊢
      exact ⟨after.1, ih after.2⟩

/-- A vote on a transaction comes after its `Commit`. -/
theorem votesAfter_vote {started : List TransactionId} {events : List RoundEvent}
    {memberId : NodeId} {txId : TransactionId} {status : CommitStatus}
    (after : votesAfter started (events ++ [.vote memberId txId status]) = true) :
    txId ∈ started ∨ txId ∈ commitsOf events := by
  induction events generalizing started with
  | nil => simpa [votesAfter] using after
  | cons event events ih =>
    cases event with
    | commit committed =>
      rcases ih after with earlier | later
      · rcases List.mem_cons.1 earlier with rfl | earlier
        · exact .inr (List.mem_cons_self _ _)
        · exact .inl earlier
      · exact .inr (List.mem_cons_of_mem committed later)
    | vote _ _ _ =>
      simp only [List.cons_append, votesAfter, Bool.and_eq_true] at after
      exact ih after.2

/-- No vote on a transaction whose `Commit` has not come. -/
theorem ballotsOf_of_votesAfter {started : List TransactionId} {events : List RoundEvent}
    (after : votesAfter started events = true) {txId : TransactionId}
    (before : txId ∉ started) (idle : txId ∉ commitsOf events) : ballotsOf txId events = [] := by
  induction events generalizing started with
  | nil => rfl
  | cons event events ih =>
    cases event with
    | commit committed =>
      have distinct : committed ≠ txId := fun same => idle (same ▸ List.mem_cons_self _ _)
      exact ih after (by simp [before, Ne.symm distinct])
        fun mem => idle (List.mem_cons_of_mem committed mem)
    | vote memberId voted status =>
      simp only [votesAfter, Bool.and_eq_true, decide_eq_true_eq] at after
      have distinct : voted ≠ txId := fun same => before (same ▸ after.1)
      simpa [ballotsOf, RoundEvent.ballot?, distinct] using ih after.2 before idle

namespace FollowsRound

variable {members : List NodeId} {events more : List RoundEvent}

/-- A prefix of a round that follows two-phase commit follows it too. -/
theorem of_append (round : FollowsRound members (events ++ more)) :
    FollowsRound members events where
  commitOnce := (List.nodup_append.1 (by simpa using round.commitOnce)).1
  voteAfterCommit := votesAfter_of_append round.voteAfterCommit
  voteOnce txId started := by
    have once := round.voteOnce txId (by simp [started])
    rw [ballotsOf_append, List.map_append] at once
    exact (List.nodup_append.1 once).1
  voterMember txId started ballot cast :=
    round.voterMember txId (by simp [started]) ballot (by simp [cast])

/-- A transaction with no `Commit` in the round has no votes in it. -/
theorem ballotsOf_eq_nil (round : FollowsRound members events) {txId : TransactionId}
    (idle : txId ∉ commitsOf events) : ballotsOf txId events = [] :=
  ballotsOf_of_votesAfter round.voteAfterCommit (List.not_mem_nil txId) idle

/-- A transaction gets at most one vote per member. -/
theorem ballotsOf_length_le (round : FollowsRound members events) (txId : TransactionId) :
    (ballotsOf txId events).length ≤ members.length := by
  by_cases started : txId ∈ commitsOf events
  · have cast : (ballotsOf txId events).map Prod.fst ⊆ members := fun memberId voted => by
      obtain ⟨ballot, mem, rfl⟩ := List.mem_map.1 voted
      exact round.voterMember txId started ballot mem
    simpa using ((round.voteOnce txId started).subperm cast).length_le
  · simp [round.ballotsOf_eq_nil started]

end FollowsRound

/-! ## The tally -/

/-- The entry `commit_status` holds for `txId` after the round `events` from `self`: the
one it held until the `Commit`, then the count and verdict of the votes so far, and none
after the last vote. -/
def tallied (self : Server) (events : List RoundEvent) (txId : TransactionId) :
    Option (Nat × CommitStatus) :=
  if txId ∈ commitsOf events then
    if (ballotsOf txId events).length = self.serverPool.length then none
    else some ((ballotsOf txId events).length, verdict (ballotsOf txId events))
  else self.commitStatus.get? txId

/-- The sends deciding `txId` in the round `events` from `self`: none until the last vote,
then its verdict. -/
def announced (self : Server) (events : List RoundEvent) (txId : TransactionId) :
    List Effect :=
  if txId ∈ commitsOf events ∧ (ballotsOf txId events).length = self.serverPool.length then
    self.announce txId (verdict (ballotsOf txId events))
  else []

/-- The coordinator after the round `events` from `initial`, with the sends it made. -/
structure Tallies (initial : Server) (events : List RoundEvent) (last : Server)
    (effects : List Effect) : Prop where
  serverPool : last.serverPool = initial.serverPool
  clients : last.clients = initial.clients
  entries : ∀ txId, last.commitStatus.get? txId = tallied initial events txId
  decisions : ∀ txId, effects.filter (Effect.decides txId) = announced initial events txId

/-- A transaction's entry and sends depend only on its `Commit` and its votes. -/
theorem tallied_congr (self : Server) (events' events : List RoundEvent) (txId : TransactionId)
    (commits : txId ∈ commitsOf events' ↔ txId ∈ commitsOf events)
    (ballots : ballotsOf txId events' = ballotsOf txId events) :
    tallied self events' txId = tallied self events txId ∧
      announced self events' txId = announced self events txId := by
  simp [tallied, announced, commits, ballots]

/-- The sends of a verdict depend only on the pool. -/
theorem announce_congr {self other : Server} (pool : self.serverPool = other.serverPool)
    (txId : TransactionId) (status : CommitStatus) :
    self.announce txId status = other.announce txId status := by
  cases status <;> simp [Server.announce, Server.broadcast, pool]

/-- The sends of a verdict decide only its own transaction. -/
theorem filter_announce (self : Server) (txId other : TransactionId) (status : CommitStatus) :
    (self.announce txId status).filter (Effect.decides other) =
      if txId = other then self.announce txId status else [] := by
  by_cases same : txId = other
  · subst same
    cases status <;> simp [Server.announce, Server.broadcast, Effect.decides, List.filter_map,
      Function.comp_def]
  · cases status <;> simp [Server.announce, Server.broadcast, Effect.decides, List.filter_map,
      Function.comp_def, same]

/-- A forwarded request decides no transaction. -/
theorem filter_broadcast_request (self : Server) (txId other : TransactionId)
    (request : ClientRequest) :
    (self.broadcast (.request txId request)).filter (Effect.decides other) = [] := by
  simp [Server.broadcast, Effect.decides, List.filter_map, Function.comp_def]

section Step

variable {self mid : Server} {events : List RoundEvent} {effects : List Effect}

/-- A step that touches only the entry of `txId` and sends only what decides `txId` keeps
the tally of every other transaction, so only the tally of `txId` is left to check. -/
theorem Tallies.focus {next : Server} {events' : List RoundEvent} {more : List Effect}
    (tallies : Tallies self events mid effects) (txId : TransactionId)
    (pool : next.serverPool = mid.serverPool) (clients : next.clients = mid.clients)
    (untouched : ∀ other, txId ≠ other → next.commitStatus.get? other = mid.commitStatus.get? other)
    (focused : ∀ other, txId ≠ other → more.filter (Effect.decides other) = [])
    (unaffected : ∀ other, txId ≠ other → (other ∈ commitsOf events' ↔ other ∈ commitsOf events) ∧
      ballotsOf other events' = ballotsOf other events)
    (entry : next.commitStatus.get? txId = tallied self events' txId)
    (decision : effects.filter (Effect.decides txId) ++ more.filter (Effect.decides txId) =
      announced self events' txId) :
    Tallies self events' next (effects ++ more) := by
  refine ⟨pool.trans tallies.serverPool, clients.trans tallies.clients, fun other => ?_,
    fun other => ?_⟩
  · by_cases same : txId = other
    · exact same ▸ entry
    · rw [untouched other same, tallies.entries]
      exact (tallied_congr self events' events other (unaffected other same).1
        (unaffected other same).2).1.symm
  · rw [List.filter_append]
    by_cases same : txId = other
    · exact same ▸ decision
    · rw [focused other same, tallies.decisions, List.append_nil]
      exact (tallied_congr self events' events other (unaffected other same).1
        (unaffected other same).2).2.symm

/-- Handling a `Commit` extends the tally of the round by it. -/
theorem tallies_commit (members : 0 < self.serverPool.length)
    (tallies : Tallies self events mid effects) (txId : TransactionId)
    (round : FollowsRound self.serverPool (events ++ [.commit txId])) :
    ∃ next more, mid.handle (RoundEvent.commit txId).toEvent = .ok (next, more) ∧
      Tallies self (events ++ [.commit txId]) next (effects ++ more) := by
  have fresh : txId ∉ commitsOf events := by
    have once := round.commitOnce
    simp only [commitsOf_append, commitsOf_commit] at once
    exact fun mem => (List.nodup_append.1 once).2.2 mem (List.mem_singleton_self txId)
  have unvoted := round.of_append.ballotsOf_eq_nil fresh
  refine ⟨_, _, Server.handleClientState_commit mid txId, tallies.focus txId rfl rfl
    (fun other same => by simp [Ne.symm same]) (fun other _ => filter_broadcast_request ..)
    (fun other same => ⟨by simp [Ne.symm same], by simp⟩) ?_ ?_⟩
  · simp [tallied, unvoted, verdict, Nat.pos_iff_ne_zero.1 members |>.symm]
  · simp [tallies.decisions, filter_broadcast_request, announced, fresh, unvoted,
      Nat.pos_iff_ne_zero.1 members |>.symm]

/-- Handling a vote for a transaction with a handle extends the tally of the round by it. -/
theorem tallies_vote (tallies : Tallies self events mid effects) (memberId : NodeId)
    (txId : TransactionId) (status : CommitStatus)
    (round : FollowsRound self.serverPool (events ++ [.vote memberId txId status]))
    (registered : self.clients.contains txId = true) :
    ∃ next more, mid.handle (RoundEvent.vote memberId txId status).toEvent = .ok (next, more) ∧
      Tallies self (events ++ [.vote memberId txId status]) next (effects ++ more) := by
  have started : txId ∈ commitsOf events := by
    simpa using votesAfter_vote round.voteAfterCommit
  have bounded := round.ballotsOf_length_le txId
  simp only [ballotsOf_append, ballotsOf_vote, if_pos, List.length_append,
    List.length_singleton] at bounded
  have pending : (ballotsOf txId events).length ≠ self.serverPool.length := by omega
  have found : mid.commitStatus.get? txId =
      some ((ballotsOf txId events).length, verdict (ballotsOf txId events)) := by
    simp [tallies.entries, tallied, started, pending]
  have unaffected : ∀ other, txId ≠ other →
      (other ∈ commitsOf (events ++ [.vote memberId txId status]) ↔ other ∈ commitsOf events) ∧
      ballotsOf other (events ++ [.vote memberId txId status]) = ballotsOf other events :=
    fun other same => ⟨by simp, by simp [same]⟩
  show ∃ next more, mid.handleTwoPhaseCommit txId status = .ok (next, more) ∧ _
  rw [Server.handleTwoPhaseCommit_of_get? found (tallies.clients ▸ registered),
    ← verdict_append _ memberId]
  split_ifs with last <;> rw [tallies.serverPool] at last
  · refine ⟨_, _, rfl, tallies.focus txId rfl rfl (fun other same => by simp [Ne.symm same])
      (fun other same => by rw [filter_announce, if_neg same]) unaffected
      (by simp [tallied, started, last]) ?_⟩
    rw [tallies.decisions, filter_announce, if_pos rfl]
    simp [announced, started, last, pending, announce_congr tallies.serverPool]
  · exact ⟨_, _, rfl, tallies.focus txId rfl rfl (fun other same => by simp [Ne.symm same])
      (fun _ _ => rfl) unaffected (by simp [tallied, started, last])
      (by simp [tallies.decisions, announced, started, last, pending])⟩

end Step

/-- So does `serve` over the rest of a round that follows two-phase commit. -/
theorem tallies_serve {self : Server} (members : 0 < self.serverPool.length)
    (rest : List RoundEvent) :
    ∀ {events : List RoundEvent} {mid : Server} {effects : List Effect},
      Tallies self events mid effects → FollowsRound self.serverPool (events ++ rest) →
      (∀ txId ∈ commitsOf (events ++ rest), self.clients.contains txId = true) →
      ∃ last more, mid.serve (rest.map RoundEvent.toEvent) = .ok (last, more) ∧
        Tallies self (events ++ rest) last (effects ++ more) := by
  induction rest with
  | nil => intro events mid effects tallies _ _; exact ⟨mid, [], rfl, by simpa using tallies⟩
  | cons event rest ih =>
    intro events mid effects tallies round registered
    have split : events ++ event :: rest = (events ++ [event]) ++ rest := by simp
    rw [split] at round registered ⊢
    obtain ⟨next, more, handled, tallies'⟩ : ∃ next more, mid.handle event.toEvent =
        .ok (next, more) ∧ Tallies self (events ++ [event]) next (effects ++ more) := by
      cases event with
      | commit txId => exact tallies_commit members tallies txId round.of_append
      | vote memberId txId status =>
        have started : txId ∈ commitsOf events := by
          simpa using votesAfter_vote round.of_append.voteAfterCommit
        exact tallies_vote tallies memberId txId status round.of_append
          (registered txId (by simp [started]))
    obtain ⟨last, more', served, final⟩ := ih tallies' round registered
    refine ⟨last, more ++ more', ?_, by simpa [List.append_assoc] using final⟩
    rw [List.map_cons, Server.serve_cons_of_ok handled, served]
    rfl

/-- Two-phase commit aggregation. Take a pool of at least one member and any round of
`Commit` forwards and votes, in any interleaving, in which each session forwards `Commit`
at most once and each member answers each `Commit` with one vote, after it; every
committing transaction has a client. Then the coordinator never halts, and for each
committing transaction: it gets at most one vote per member; while votes are missing its
entry holds their count and verdict, and nothing decides it; once all votes are in, the
entry is gone and exactly the verdict was sent: `CommitOk` followed by the `DoCommit`
broadcast when every vote is `ReadyToCommit`, `Aborted` alone otherwise. A transaction
that does not commit in the round keeps its entry, and nothing decides it. -/
theorem votes_decide_commit (self : Server) (events : List RoundEvent)
    (members : 0 < self.serverPool.length) (round : FollowsRound self.serverPool events)
    (registered : ∀ txId ∈ commitsOf events, self.clients.contains txId = true) :
    ∃ last effects, self.serve (events.map RoundEvent.toEvent) = .ok (last, effects) ∧
      (∀ txId ∈ commitsOf events,
        (ballotsOf txId events).length ≤ self.serverPool.length ∧
        ((ballotsOf txId events).length < self.serverPool.length →
          last.commitStatus.get? txId =
            some ((ballotsOf txId events).length, verdict (ballotsOf txId events)) ∧
          effects.filter (Effect.decides txId) = []) ∧
        ((ballotsOf txId events).length = self.serverPool.length →
          last.commitStatus.get? txId = none ∧
          effects.filter (Effect.decides txId) =
            self.announce txId (verdict (ballotsOf txId events)))) ∧
      ∀ txId ∉ commitsOf events, last.commitStatus.get? txId = self.commitStatus.get? txId ∧
        effects.filter (Effect.decides txId) = [] := by
  have start : Tallies self [] self [] :=
    ⟨rfl, rfl, fun txId => by simp [tallied], fun txId => by simp [announced]⟩
  obtain ⟨last, effects, served, tallies⟩ :=
    tallies_serve members events start (by simpa using round) (by simpa using registered)
  simp only [List.nil_append] at tallies
  refine ⟨last, effects, by simpa using served, fun txId started => ?_, fun txId idle => ?_⟩
  · refine ⟨round.ballotsOf_length_le txId, fun missing => ?_, fun complete => ?_⟩
    · simp [tallies.entries, tallies.decisions, tallied, announced, started, missing.ne]
    · simp [tallies.entries, tallies.decisions, tallied, announced, started, complete]
  · simp [tallies.entries, tallies.decisions, tallied, announced, idle]

/-- Two transactions commit at once on a pool of two; the older gets two `ReadyToCommit`
votes and is committed, the younger is still waiting for its second vote. -/
theorem interleaved_rounds_decide_separately :
    0 < ({ Server.start 'A' ['A', 'B'] with
        clients := (BTreeSet.new.insert ⟨1, 'A'⟩).insert ⟨2, 'A'⟩ } : Server).serverPool.length ∧
      FollowsRound ['A', 'B'] [.commit ⟨1, 'A'⟩, .commit ⟨2, 'A'⟩,
        .vote 'B' ⟨1, 'A'⟩ .readyToCommit, .vote 'A' ⟨2, 'A'⟩ .cannotCommit,
        .vote 'A' ⟨1, 'A'⟩ .readyToCommit] ∧
      ∃ last effects, ({ Server.start 'A' ['A', 'B'] with
          clients := (BTreeSet.new.insert ⟨1, 'A'⟩).insert ⟨2, 'A'⟩ } : Server).serve
          ([.commit ⟨1, 'A'⟩, .commit ⟨2, 'A'⟩, .vote 'B' ⟨1, 'A'⟩ .readyToCommit,
            .vote 'A' ⟨2, 'A'⟩ .cannotCommit, .vote 'A' ⟨1, 'A'⟩ .readyToCommit].map
            RoundEvent.toEvent) = .ok (last, effects) ∧
        effects.filter (Effect.decides ⟨1, 'A'⟩) = [.toClient ⟨1, 'A'⟩ .commitOk,
          .toMember 'A' (.doCommit ⟨1, 'A'⟩), .toMember 'B' (.doCommit ⟨1, 'A'⟩)] := by
  refine ⟨by decide, by decide, ?_⟩
  obtain ⟨last, effects, served, each, -⟩ := votes_decide_commit
    { Server.start 'A' ['A', 'B'] with clients := (BTreeSet.new.insert ⟨1, 'A'⟩).insert ⟨2, 'A'⟩ }
    [.commit ⟨1, 'A'⟩, .commit ⟨2, 'A'⟩, .vote 'B' ⟨1, 'A'⟩ .readyToCommit,
      .vote 'A' ⟨2, 'A'⟩ .cannotCommit, .vote 'A' ⟨1, 'A'⟩ .readyToCommit]
    (by decide) (by decide) (by decide)
  exact ⟨last, effects, served, ((each ⟨1, 'A'⟩ (by decide)).2.2 (by decide)).2.trans (by decide)⟩

end TxServer
