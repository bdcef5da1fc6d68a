import TxServer.TransactionId
import TxServer.Collections

/-!
# The coordinator

`coordinator::Server` runs one task per node. Its loop takes one event at a time: a new
client connection, a message from a local client session, or a message from a member of
the server pool. Each handler is a function of the server state returning the next state
with the sends and spawns it makes. A handler that reaches an `unwrap` of `None` panics,
and one that calls `std::process::exit` exits: both stop the loop, as `Halt`.

The messages are declared in `coordinator::protocol`, `tx_common` and the pool's `server`
module, none of which is among the repository's files; they follow the spec's wire
protocols. A handler returns its sends; whether they get through is decided by the
coordinator's environment. `Network` delivers every send. `Channels` adds the sessions'
channel and the session that has sent `Finished` and dropped its receiver, so a send to it
fails and takes the `exit` branch that follows it. Sends to members are taken to get
through: the model has no disconnected peer.
-/

namespace TxServer

/-- Modelled from the spec: `ClientRequest`, the requests of the client wire protocol. -/
inductive ClientRequest where
  | readBalance (accountId : String)
  | writeBalance (accountId : String) (diff : Int)
  | commit
  | abort
  deriving DecidableEq, Repr

/-- Modelled from the spec: `ClientResponse`, the responses of the client wire protocol. -/
inductive ClientResponse where
  | ok
  | value (accountId : String) (balance : Int)
  | commitOk
  | aborted
  | abortedNotFound
  deriving DecidableEq, Repr

/-- Modelled from the spec: `CommitStatus`, a shard's vote in two-phase commit. -/
inductive CommitStatus where
  | readyToCommit
  | cannotCommit
  deriving DecidableEq, Repr

/-- Modelled from the spec: `ForwardTarget`, where a session sends a request. -/
inductive ForwardTarget where
  | broadcast
  | node (nodeId : NodeId)
  deriving DecidableEq, Repr

/-- Modelled from the spec: `ClientState`, what a session sends its coordinator. -/
inductive ClientState where
  | forward (target : ForwardTarget) (txId : TransactionId) (request : ClientRequest)
  | finished (clientId : TransactionId)
  deriving DecidableEq, Repr

/-- Modelled from the spec: `Forwarded`, the messages between coordinators. -/
inductive Forwarded where
  | request (txId : TransactionId) (request : ClientRequest)
  | response (txId : TransactionId) (response : ClientResponse)
  | twoPhaseCommitStatus (txId : TransactionId) (status : CommitStatus)
  | doCommit (txId : TransactionId)
  deriving DecidableEq, Repr

/-- Modelled from the spec: `ServerStateMessageType`, what the pool delivers from a member. -/
inductive ServerStateMessageType where
  | message (msg : Forwarded)
  | disconnected
  deriving DecidableEq, Repr

/-- Modelled from the spec: `ServerStateMessage`, a delivery from the member `memberId`. -/
structure ServerStateMessage where
  /-- The member that sent it. -/
  memberId : NodeId
  /-- What it sent. -/
  msg : ServerStateMessageType
  deriving DecidableEq, Repr

/-- A send or a spawn made by a handler. -/
inductive Effect where
  /-- A message on a member's channel. -/
  | toMember (target : NodeId) (msg : Forwarded)
  /-- A response on a session's channel, `ClientHandle::forward_snd`. -/
  | toClient (txId : TransactionId) (response : ClientResponse)
  /-- The task `handle_remote_request` spawns to run a request on the local shard. -/
  | remoteRequest (senderId : NodeId) (txId : TransactionId) (request : ClientRequest)
  /-- The task `handle_server_state` spawns to apply `DoCommit` to the local shard. -/
  | localCommit (txId : TransactionId)
  /-- The session task `serve` spawns for a new connection. -/
  | spawnClient (txId : TransactionId)
  deriving DecidableEq, Repr

/-- Why the coordinator's loop stops. -/
inductive Halt where
  /-- An `unwrap` of `None`. -/
  | panic
  /-- `std::process::exit(1)`. -/
  | exit
  deriving DecidableEq, Repr

/-- `Server`, with the fields its handlers read and write. A client handle is the sending
end of the session's channel, and a send on it is `Effect.toClient`, so `clients` keeps
the keys of the table. -/
structure Server where
  /-- `node_id`. -/
  nodeId : NodeId
  /-- The ids of the members of `server_pool`. -/
  serverPool : List NodeId
  /-- The transactions with a client handle, the keys of `clients`. -/
  clients : BTreeSet TransactionId
  /-- `id_gen`. -/
  idGen : TransactionIdGenerator
  /-- `commit_status`: for a transaction in two-phase commit, the votes received so far and
  the verdict they give. -/
  commitStatus : BTreeMap TransactionId (Nat × CommitStatus)

/-- One turn of `serve`'s loop: the branch `select!` takes. -/
inductive Event where
  | accept
  | fromClients (state : ClientState)
  | fromServers (state : ServerStateMessage)
  deriving DecidableEq, Repr

/-- What the local shard returned to the task `handle_remote_request` spawns; the shard
store, `sharding::Shard`, is not among the repository's files. -/
inductive ShardOutcome where
  /-- `Ok`, with the balance a read returned. -/
  | ok (value : Int)
  /-- `Err(Abort::ObjectNotFound)`. -/
  | objectNotFound
  /-- Any other `Err`. -/
  | failed
  deriving DecidableEq, Repr

/-- The reply the task of `handle_remote_request` sends back, from what the shard returned;
`none` when the task panics at `shard.abort(&tx_id).await.unwrap()` and sends nothing. -/
def remoteReply (txId : TransactionId) : ClientRequest → ShardOutcome → Option Forwarded
  | .writeBalance _ _, .ok _ => some (.response txId .ok)
  | .writeBalance _ _, .objectNotFound => some (.response txId .abortedNotFound)
  | .writeBalance _ _, .failed => some (.response txId .aborted)
  | .readBalance accountId, .ok value => some (.response txId (.value accountId value))
  | .readBalance _, .objectNotFound => some (.response txId .abortedNotFound)
  | .readBalance _, .failed => some (.response txId .aborted)
  | .commit, .ok _ => some (.twoPhaseCommitStatus txId .readyToCommit)
  | .commit, _ => some (.twoPhaseCommitStatus txId .cannotCommit)
  | .abort, .ok _ => some (.response txId .aborted)
  | .abort, _ => none

namespace Server

/-- `Server::start`, once the pool is connected: no clients and no commit in progress. -/
def start (nodeId : NodeId) (serverPool : List NodeId) : Server where
  nodeId := nodeId
  serverPool := serverPool
  clients := BTreeSet.new
  idGen := TransactionIdGenerator.new nodeId
  commitStatus := BTreeMap.new

/-- `pass_message`: a send to a member, after `server_pool.get(&target).unwrap()`. -/
def passMessage (self : Server) (target : NodeId) (msg : Forwarded) : Except Halt (List Effect) :=
  if target ∈ self.serverPool then .ok [.toMember target msg] else .error .panic

/-- `pass_to_client`: a send to a session, after `clients.get(&tx_id).unwrap()`. -/
def passToClient (self : Server) (txId : TransactionId) (msg : ClientResponse) :
    Except Halt (List Effect) :=
  if self.clients.contains txId then .ok [.toClient txId msg] else .error .panic

/-- `broadcast`: a send to every member of the pool. -/
def broadcast (self : Server) (msg : Forwarded) : List Effect :=
  self.serverPool.map fun target => .toMember target msg

/-- `get_handle`: the session's transaction id, the next one of `id_gen`. -/
def getHandle (self : Server) : TransactionId × Server :=
  (self.idGen.next.1, { self with idGen := self.idGen.next.2 })

/-- `handle_client_state`. -/
def handleClientState (self : Server) : ClientState → Except Halt (Server × List Effect)
  | .finished clientId => .ok ({ self with clients := self.clients.remove clientId }, [])
  | .forward .broadcast txId req =>
    let next := if req = .commit then
        { self with commitStatus := self.commitStatus.insert txId (0, .readyToCommit) }
      else self
    .ok (next, next.broadcast (.request txId req))
  | .forward (.node nodeId) txId req =>
    (self.passMessage nodeId (.request txId req)).map fun sent => (self, sent)

/-- `handle_remote_request`: the reply channel of the sender, after
`get_server_send(sender_id)`'s `unwrap`, and the task that runs the request. -/
def handleRemoteRequest (self : Server) (senderId : NodeId) (txId : TransactionId)
    (request : ClientRequest) : Except Halt (List Effect) :=
  if senderId ∈ self.serverPool then .ok [.remoteRequest senderId txId request]
  else .error .panic

/-- `handle_two_phase_commit`: count the vote and latch `CannotCommit`; on the last vote
send the verdict to the client, broadcast `DoCommit` after `CommitOk`, and drop the entry. -/
def handleTwoPhaseCommit (self : Server) (txId : TransactionId) (commitStatus : CommitStatus) :
    Except Halt (Server × List Effect) :=
  match self.commitStatus.get? txId with
  | none => .error .panic
  | some (count, currStatus) =>
    let count := count + 1
    let currStatus := if commitStatus = .cannotCommit then commitStatus else currStatus
    if count = self.serverPool.length then
      let done := { self with commitStatus := self.commitStatus.remove txId }
      match currStatus with
      | .readyToCommit => (self.passToClient txId .commitOk).map fun sent =>
          (done, sent ++ self.broadcast (.doCommit txId))
      | .cannotCommit => (self.passToClient txId .aborted).map fun sent => (done, sent)
    else
      .ok ({ self with commitStatus := self.commitStatus.insert txId (count, currStatus) }, [])

/-- `handle_server_state`. -/
def handleServerState (self : Server) (state : ServerStateMessage) :
    Except Halt (Server × List Effect) :=
  match state.msg with
  | .message (.request txId request) =>
    (self.handleRemoteRequest state.memberId txId request).map fun spawned => (self, spawned)
  | .message (.response txId resp) =>
    (self.passToClient txId resp).map fun sent => (self, sent)
  | .message (.twoPhaseCommitStatus txId commitStatus) =>
    self.handleTwoPhaseCommit txId commitStatus
  | .message (.doCommit txId) => .ok (self, [.localCommit txId])
  | .disconnected => .error .exit

/-- The body of `serve`'s loop for one event. A new connection gets a handle and a session
task. -/
def handle (self : Server) : Event → Except Halt (Server × List Effect)
  | .accept =>
    .ok ({ self.getHandle.2 with clients := self.getHandle.2.clients.insert self.getHandle.1 },
      [.spawnClient self.getHandle.1])
  | .fromClients state => self.handleClientState state
  | .fromServers state => self.handleServerState state

/-- `serve` over a sequence of events: the final state and every effect in order, or the
halt that stopped the loop. -/
def serve (self : Server) : List Event → Except Halt (Server × List Effect)
  | [] => .ok (self, [])
  | event :: events => do
    let (next, effects) ← self.handle event
    let (last, more) ← next.serve events
    pure (last, effects ++ more)

/-! ## What each handler does -/

@[simp] theorem start_serverPool (nodeId : NodeId) (serverPool : List NodeId) :
    (start nodeId serverPool).serverPool = serverPool := rfl

@[simp] theorem passToClient_of_contains {self : Server} {txId : TransactionId}
    (registered : self.clients.contains txId = true) (msg : ClientResponse) :
    self.passToClient txId msg = .ok [.toClient txId msg] := by
  simp [passToClient, registered]

@[simp] theorem passToClient_of_not_contains {self : Server} {txId : TransactionId}
    (gone : self.clients.contains txId = false) (msg : ClientResponse) :
    self.passToClient txId msg = .error .panic := by
  simp [passToClient, gone]

/-- What the coordinator sends on the last vote for `txId`: the verdict to the client, and
after `CommitOk` the `DoCommit` broadcast. -/
def announce (self : Server) (txId : TransactionId) : CommitStatus → List Effect
  | .readyToCommit => .toClient txId .commitOk :: self.broadcast (.doCommit txId)
  | .cannotCommit => [.toClient txId .aborted]

/-- A session's `Commit` opens the transaction's entry with no votes and is broadcast. -/
theorem handleClientState_commit (self : Server) (txId : TransactionId) :
    self.handleClientState (.forward .broadcast txId .commit) =
      .ok ({ self with commitStatus := self.commitStatus.insert txId (0, .readyToCommit) },
        self.broadcast (.request txId .commit)) := by
  simp [handleClientState, broadcast]

/-- A vote on a transaction in two-phase commit whose client is registered is counted; the
last vote sends the verdict and drops the entry. -/
theorem handleTwoPhaseCommit_of_get? {self : Server} {txId : TransactionId} {count : Nat}
    {currStatus : CommitStatus}
    (found : self.commitStatus.get? txId = some (count, currStatus))
    (registered : self.clients.contains txId = true) (commitStatus : CommitStatus) :
    self.handleTwoPhaseCommit txId commitStatus =
      if count + 1 = self.serverPool.length then
        .ok ({ self with commitStatus := self.commitStatus.remove txId },
          self.announce txId (if commitStatus = .cannotCommit then commitStatus else currStatus))
      else
        .ok ({ self with
          commitStatus := self.commitStatus.insert txId
            (count + 1, if commitStatus = .cannotCommit then commitStatus else currStatus) },
          []) := by
  simp only [handleTwoPhaseCommit, found]
  generalize (if commitStatus = .cannotCommit then commitStatus else currStatus) = verdict
  split_ifs
  · cases verdict <;> simp [announce, registered, Except.map]
  · rfl

/-- A vote on a transaction with no entry in `commit_status` panics at its `unwrap`. -/
theorem handleTwoPhaseCommit_of_get?_none {self : Server} {txId : TransactionId}
    (absent : self.commitStatus.get? txId = none) (commitStatus : CommitStatus) :
    self.handleTwoPhaseCommit txId commitStatus = .error .panic := by
  simp [handleTwoPhaseCommit, absent]

/-- `serve` goes on after an event its handler handles. -/
theorem serve_cons_of_ok {self next : Server} {event : Event} {effects : List Effect}
    (handled : self.handle event = .ok (next, effects)) (events : List Event) :
    self.serve (event :: events) =
      (next.serve events).map fun (last, more) => (last, effects ++ more) := by
  simp only [serve, handled, bind, Except.bind]
  cases next.serve events <;> rfl

/-- `serve` stops at an event whose handler halts. -/
theorem serve_cons_of_error {self : Server} {event : Event} {halt : Halt}
    (halted : self.handle event = .error halt) (events : List Event) :
    self.serve (event :: events) = .error halt := by
  simp only [serve, halted, bind, Except.bind]

end Server

end TxServer
