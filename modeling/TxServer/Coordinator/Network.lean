import TxServer.Coordinator.Server

/-!
# The coordinator among its sessions and members

The coordinator's inputs come from two sides. Its client sessions follow the session
protocol of the spec: a session forwards reads and writes to the key's owner, then
`Commit` or `Abort` as a broadcast; after an `Aborted` verdict, or when the client goes
away, it broadcasts `Abort`; last it sends `Finished`. The members of the pool answer each
request the coordinator forwards them exactly once, with the reply the task of
`handle_remote_request` sends, and they send requests of their own sessions and `DoCommit`.

A network holds the coordinator, the phase of each session and the requests the members
still owe. `Network.step` delivers one input the two sides allow and runs the
coordinator's handler on it. A `Finished` does not wait for the members' answers to the
`Abort` before it, so an answer can reach `pass_to_client` after the handle is gone.

Here the coordinator takes a session's message in the step the session sends it, and every
send reaches its session. `Channels` puts the sessions' channel in between, where a send to a
session that has finished fails.
-/

namespace TxServer

/-- Modelled from the spec: how far a client session has got; the session,
`coordinator::client`, is not among the repository's files. -/
inductive SessionPhase where
  /-- Forwarding reads and writes. -/
  | active
  /-- Forwarded `Commit`, waiting for the verdict. -/
  | committing
  /-- Received `CommitOk`. -/
  | committed
  /-- Broadcast `Abort`: after an `Aborted` verdict, an abort by the client, or a
  disconnect. -/
  | aborting
  /-- Sent `Finished`. -/
  | finished
  deriving DecidableEq, Repr

namespace SessionPhase

/-- Modelled from the spec: the phase after the session sends `state`, when it may send it. -/
def send : SessionPhase → ClientState → Option SessionPhase
  | .active, .forward (.node _) _ (.readBalance _) => some .active
  | .active, .forward (.node _) _ (.writeBalance _ _) => some .active
  | .active, .forward .broadcast _ .commit => some .committing
  | .active, .forward .broadcast _ .abort => some .aborting
  | .committing, .forward .broadcast _ .abort => some .aborting
  | .committed, .finished _ => some .finished
  | .aborting, .finished _ => some .finished
  | _, _ => none

/-- Modelled from the spec: the phase after the session receives `response`. -/
def receive : SessionPhase → ClientResponse → SessionPhase
  | .committing, .commitOk => .committed
  | phase, _ => phase

end SessionPhase

/-- The transaction a session's message is about. -/
def ClientState.txId : ClientState → TransactionId
  | .forward _ txId _ => txId
  | .finished clientId => clientId

/-- Modelled from the spec: a session forwards a read or a write to the owner of the key, a
node of the configuration and so a member of the pool. -/
def ClientState.withinPool (members : List NodeId) : ClientState → Bool
  | .forward (.node nodeId) _ _ => decide (nodeId ∈ members)
  | _ => true

/-- A request the coordinator forwarded to a member, which the member still has to
answer. -/
structure Owed where
  /-- The member that has to answer. -/
  memberId : NodeId
  /-- The transaction of the request. -/
  txId : TransactionId
  /-- The request. -/
  request : ClientRequest
  deriving DecidableEq, Repr

/-- The requests a handler's sends leave the members owing. -/
def owedBy (effects : List Effect) : List Owed :=
  effects.filterMap fun
    | .toMember target (.request txId request) => some ⟨target, txId, request⟩
    | _ => none

/-- The sessions after the coordinator's sends reach them: a new connection starts a session,
and a session receives the responses sent to it. -/
def deliver (sessions : BTreeMap TransactionId SessionPhase) :
    List Effect → BTreeMap TransactionId SessionPhase
  | [] => sessions
  | .spawnClient txId :: rest => deliver (sessions.insert txId .active) rest
  | .toClient txId response :: rest =>
    deliver ((sessions.get? txId).elim sessions fun phase =>
      sessions.insert txId (phase.receive response)) rest
  | _ :: rest => deliver sessions rest

/-- The coordinator with its client sessions and the answers its members owe. -/
structure Network where
  /-- The coordinator. -/
  server : Server
  /-- The phase of the session of each transaction accepted so far. -/
  sessions : BTreeMap TransactionId SessionPhase
  /-- The forwarded requests not answered yet. -/
  owed : List Owed

/-- An input the coordinator's environment delivers. -/
inductive NetEvent where
  /-- A client connects. -/
  | accept
  /-- A session sends a message. -/
  | session (state : ClientState)
  /-- A member answers a forwarded request, from what its shard returned. -/
  | answer (owed : Owed) (outcome : ShardOutcome)
  /-- A member sends a request of one of its own sessions, or `DoCommit`. -/
  | remote (memberId : NodeId) (msg : Forwarded)
  deriving DecidableEq, Repr

namespace Network

/-- A coordinator whose pool has just connected, with no session yet. -/
def init (nodeId : NodeId) (serverPool : List NodeId) : Network :=
  ⟨Server.start nodeId serverPool, BTreeMap.new, []⟩

/-- The coordinator handles `event`; its sends reach the sessions, and the members owe the
requests it forwards. -/
def handleWith (net : Network) (event : Event) (sessions : BTreeMap TransactionId SessionPhase)
    (owed : List Owed) : Except Halt Network :=
  (net.server.handle event).map fun (server, effects) =>
    ⟨server, deliver sessions effects, owed ++ owedBy effects⟩

/-- One input, when the session protocol and the members' answers allow it (`none`
otherwise), and what the coordinator makes of it. -/
def step (net : Network) : NetEvent → Option (Except Halt Network)
  | .accept => some (net.handleWith .accept net.sessions net.owed)
  | .session state =>
    (net.sessions.get? state.txId).bind fun phase =>
      (phase.send state).bind fun next =>
        if state.withinPool net.server.serverPool then
          some (net.handleWith (.fromClients state) (net.sessions.insert state.txId next) net.owed)
        else none
  | .answer owed outcome =>
    if owed ∈ net.owed then
      (remoteReply owed.txId owed.request outcome).map fun reply =>
        net.handleWith (.fromServers ⟨owed.memberId, .message reply⟩) net.sessions
          (net.owed.erase owed)
    else none
  | .remote memberId msg =>
    match msg with
    | .request .. | .doCommit _ =>
      if memberId ∈ net.server.serverPool then
        some (net.handleWith (.fromServers ⟨memberId, .message msg⟩) net.sessions net.owed)
      else none
    | _ => none

/-- A sequence of inputs: `none` when one is not allowed, the halt that stopped the
coordinator, or the network after them all. -/
def run (net : Network) : List NetEvent → Option (Except Halt Network)
  | [] => some (.ok net)
  | event :: events => (net.step event).bind fun
    | .ok next => next.run events
    | .error halt => some (.error halt)

end Network

/-- A client that goes away stops its coordinator. Its session broadcasts `Abort` and sends
`Finished`, as the session protocol has it, and the coordinator drops the client's handle.
Member `B` then answers the `Abort` with `Response(tx, Aborted)`, and `handle_server_state`
passes it on with `pass_to_client`, whose `unwrap` panics. -/
theorem abort_answer_after_finished_panics :
    ∃ net, (Network.init 'A' ['A', 'B']).run [.accept,
        .session (.forward .broadcast ⟨1, 'A'⟩ .abort), .session (.finished ⟨1, 'A'⟩)] =
        some (.ok net) ∧
      (⟨'B', ⟨1, 'A'⟩, .abort⟩ : Owed) ∈ net.owed ∧
      net.server.clients.contains ⟨1, 'A'⟩ = false ∧
      remoteReply ⟨1, 'A'⟩ .abort (.ok 0) = some (.response ⟨1, 'A'⟩ .aborted) ∧
      net.server.handle (.fromServers ⟨'B', .message (.response ⟨1, 'A'⟩ .aborted)⟩) =
        .error .panic ∧
      net.step (.answer ⟨'B', ⟨1, 'A'⟩, .abort⟩ (.ok 0)) = some (.error .panic) :=
  ⟨_, rfl, by decide, by decide, rfl, rfl, rfl⟩

end TxServer
