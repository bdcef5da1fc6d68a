import TxServer.Pool.Connect

/-!
# The cluster's bring-up

Every node of the configuration runs `connect_inner` at once, and the nodes connect to one
another: each `connect_to_node` task retries until the node it dials is listening, then writes
its handshake line and hands the connection to its own pool; the dialled node accepts the
connection and reads the line. A `Mesh` is every node's state together with the connections
made, accepted and received so far, and `Mesh.step` is one of those three events, in any
order the scheduler picks. A node that leaves its loop drops its listener, so a task dialling
it from then on never connects, and a connection waiting in its backlog is never accepted.

When every two nodes are joined one way (`Oriented`), no node panics, each pool holds each
peer through the one connection between the two, a node leaves its loop exactly when it holds
all the others, and a run can only stop once every node has left its loop, unless the cluster
is a single node, whose loop never ends.
-/

namespace TxServer

/-- A node during bring-up. -/
inductive Bringup where
  /-- In `connect_inner`'s loop, listening on its port. -/
  | connecting (pool : ConnectionPool)
  /-- `connect_inner` returned its pool and dropped its listener; its tasks still run. -/
  | connected (pool : ConnectionPool)
  /-- The process panicked. -/
  | panicked
  /-- No node of the configuration has this id. -/
  | absent

namespace Bringup

/-- The pool of a node that has started and not panicked. -/
def pool? : Bringup → Option ConnectionPool
  | .connecting pool | .connected pool => some pool
  | .panicked | .absent => none

/-- Whether the node is listening: still in its loop. -/
def listening : Bringup → Bool
  | .connecting _ => true
  | _ => false

/-- The node after one pass of its loop. -/
def after : Option LoopStep → Bringup
  | none => .panicked
  | some (.continue pool) => .connecting pool
  | some (.break pool) => .connected pool

end Bringup

/-- The cluster during bring-up. -/
structure Mesh where
  /-- Each node's state. -/
  nodes : NodeId → Bringup
  /-- The connections made: a task's `connect` succeeded and it wrote its handshake line. -/
  established : List Connection
  /-- The connections the dialled node's loop accepted. -/
  accepted : List Connection
  /-- The connections the dialler's loop received from its task. -/
  received : List Connection

/-- One event of the bring-up. -/
inductive MeshEvent where
  /-- A task's `connect` succeeds. -/
  | establish (socket : Connection)
  /-- The dialled node's loop accepts the connection and reads its first line. -/
  | accept (socket : Connection)
  /-- The dialler's loop receives the connection from its task's channel. -/
  | receive (socket : Connection)

namespace Mesh

/-- The nodes with one node's state replaced. -/
def setNode (mesh : Mesh) (node : NodeId) (state : Bringup) : NodeId → Bringup :=
  fun other => if other = node then state else mesh.nodes other

/-- Every configured node has started `connect_inner`, or panicked in its start; nothing is
connected. -/
def init (config : Config) : Mesh where
  nodes node :=
    match config.get? node with
    | none => .absent
    | some _ =>
      if ((ConnectionPool.new node).dialTargets config).isSome then .connecting (.new node)
      else .panicked
  established := []
  accepted := []
  received := []

/-- One event, when it can happen (`none` otherwise). A task connects when its node is
running and the node it dials is listening; the dialled node's loop accepts a made connection
once and reads the handshake line; the dialler's loop receives a made connection once. -/
def step (config : Config) (mesh : Mesh) : MeshEvent → Option Mesh
  | .establish socket =>
    match socket.target config with
    | none => none
    | some target =>
      if socket ∉ mesh.established ∧ (mesh.nodes socket.dialer).pool?.isSome ∧
          (mesh.nodes target).listening then
        some { mesh with established := socket :: mesh.established }
      else none
  | .accept socket =>
    match socket.target config with
    | none => none
    | some target =>
      match mesh.nodes target with
      | .connecting pool =>
        if socket ∈ mesh.established ∧ socket ∉ mesh.accepted then
          some { mesh with
            nodes := mesh.setNode target (Bringup.after (pool.connectStep config.len
              (.accepted socket (.ok (readLine (idLine socket.dialer))))))
            accepted := socket :: mesh.accepted }
        else none
      | _ => none
  | .receive socket =>
    match socket.target config with
    | none => none
    | some target =>
      match mesh.nodes socket.dialer with
      | .connecting pool =>
        if socket ∈ mesh.established ∧ socket ∉ mesh.received then
          some { mesh with
            nodes := mesh.setNode socket.dialer
              (Bringup.after (pool.connectStep config.len (.dialed socket target)))
            received := socket :: mesh.received }
        else none
      | _ => none

/-- A sequence of events from a state; `none` when one of them cannot happen. -/
def run (config : Config) (mesh : Mesh) : List MeshEvent → Option Mesh
  | [] => some mesh
  | event :: events => (mesh.step config event).bind fun next => next.run config events

/-- Everything one event can do. -/
theorem step_cases {config : Config} {mesh next : Mesh} {event : MeshEvent}
    (stepped : mesh.step config event = some next) :
    (∃ socket target, event = .establish socket ∧ socket.target config = some target ∧
      socket ∉ mesh.established ∧ (mesh.nodes socket.dialer).pool?.isSome ∧
      (mesh.nodes target).listening ∧
      next = { mesh with established := socket :: mesh.established }) ∨
    (∃ socket target pool, event = .accept socket ∧ socket.target config = some target ∧
      mesh.nodes target = .connecting pool ∧ socket ∈ mesh.established ∧
      socket ∉ mesh.accepted ∧
      next = { mesh with
        nodes := mesh.setNode target (Bringup.after (pool.connectStep config.len
          (.accepted socket (.ok (readLine (idLine socket.dialer))))))
        accepted := socket :: mesh.accepted }) ∨
    (∃ socket target pool, event = .receive socket ∧ socket.target config = some target ∧
      mesh.nodes socket.dialer = .connecting pool ∧ socket ∈ mesh.established ∧
      socket ∉ mesh.received ∧
      next = { mesh with
        nodes := mesh.setNode socket.dialer
          (Bringup.after (pool.connectStep config.len (.dialed socket target)))
        received := socket :: mesh.received }) := by
  cases event with
  | establish socket =>
    cases found : socket.target config with
    | none => simp [step, found] at stepped
    | some target =>
      simp only [step, found] at stepped
      split_ifs at stepped with enabled
      exact .inl ⟨socket, target, rfl, found, enabled.1, enabled.2.1, enabled.2.2,
        (Option.some.inj stepped).symm⟩
  | accept socket =>
    cases found : socket.target config with
    | none => simp [step, found] at stepped
    | some target =>
      simp only [step, found] at stepped
      split at stepped
      · split_ifs at stepped with enabled
        exact .inr (.inl ⟨socket, target, _, rfl, found, ‹_›, enabled.1, enabled.2,
          (Option.some.inj stepped).symm⟩)
      · cases stepped
  | receive socket =>
    cases found : socket.target config with
    | none => simp [step, found] at stepped
    | some target =>
      simp only [step, found] at stepped
      split at stepped
      · split_ifs at stepped with enabled
        exact .inr (.inr ⟨socket, target, _, rfl, found, ‹_›, enabled.1, enabled.2,
          (Option.some.inj stepped).symm⟩)
      · cases stepped

/-- A task connects when its node is running and the node it dials is listening. -/
theorem step_establish_isSome {config : Config} {mesh : Mesh} {socket : Connection}
    {target : NodeId} (found : socket.target config = some target)
    (fresh : socket ∉ mesh.established) (running : (mesh.nodes socket.dialer).pool?.isSome)
    (listening : (mesh.nodes target).listening) :
    (mesh.step config (.establish socket)).isSome := by
  simp [step, found, fresh, running, listening]

/-- A node in its loop accepts a connection made to it. -/
theorem step_accept_isSome {config : Config} {mesh : Mesh} {socket : Connection}
    {target : NodeId} {pool : ConnectionPool} (found : socket.target config = some target)
    (connecting : mesh.nodes target = .connecting pool) (made : socket ∈ mesh.established)
    (fresh : socket ∉ mesh.accepted) : (mesh.step config (.accept socket)).isSome := by
  simp [step, found, connecting, made, fresh]

/-- A node in its loop receives a connection its task made. -/
theorem step_receive_isSome {config : Config} {mesh : Mesh} {socket : Connection}
    {target : NodeId} {pool : ConnectionPool} (found : socket.target config = some target)
    (connecting : mesh.nodes socket.dialer = .connecting pool) (made : socket ∈ mesh.established)
    (fresh : socket ∉ mesh.received) : (mesh.step config (.receive socket)).isSome := by
  simp [step, found, connecting, made, fresh]

/-- The number of events a state records: one per connection made, accepted or received. -/
def progress (mesh : Mesh) : Nat :=
  mesh.established.length + mesh.accepted.length + mesh.received.length

end Mesh

/-! ## Every run is finite -/

/-- The connections the tasks could make: one per slot of each connection list. -/
def validSockets (config : Config) : List Connection :=
  config.entries.flatMap fun entry =>
    (List.range entry.2.connectionList.length).map fun slot => ⟨entry.1, slot⟩

/-- The number of `connect_to_node` tasks: the connection lists' lengths, summed. -/
def dialSlots (config : Config) : Nat :=
  (config.entries.map fun entry => entry.2.connectionList.length).sum

/-- There is one valid connection for each dial slot. -/
theorem length_validSockets (config : Config) :
    (validSockets config).length = dialSlots config := by
  simp [validSockets, dialSlots, List.length_flatMap, Function.comp_def]

/-- A connection's target is the node its dialler lists at its slot. -/
theorem Connection.target_eq_some {config : Config} {socket : Connection} {target : NodeId}
    (found : socket.target config = some target) :
    ∃ nodeConfig, (socket.dialer, nodeConfig) ∈ config.entries ∧
      nodeConfig.connectionList[socket.slot]? = some target := by
  obtain ⟨nodeConfig, stored, listed⟩ := Option.bind_eq_some.1 found
  exact ⟨nodeConfig, BTreeMap.get?_eq_some_iff.1 stored, listed⟩

/-- A connection with a configured target is valid. -/
theorem mem_validSockets {config : Config} {socket : Connection} {target : NodeId}
    (found : socket.target config = some target) : socket ∈ validSockets config := by
  obtain ⟨nodeConfig, stored, listed⟩ := Connection.target_eq_some found
  exact List.mem_flatMap.2 ⟨_, stored, List.mem_map.2
    ⟨socket.slot, List.mem_range.2 (List.getElem?_eq_some_iff.1 listed).1, rfl⟩⟩

/-- Only the connections the tasks could make take part in events, so a state where none of
them can take part in one is a state where nothing can happen. -/
theorem Mesh.quiet_of_validSockets {config : Config} {mesh : Mesh}
    (quiet : ∀ socket ∈ validSockets config, (mesh.step config (.establish socket)).isNone ∧
      (mesh.step config (.accept socket)).isNone ∧ (mesh.step config (.receive socket)).isNone) :
    ∀ event, mesh.step config event = none := by
  intro event
  cases stepped : mesh.step config event with
  | none => rfl
  | some next =>
    rcases Mesh.step_cases stepped with ⟨socket, _, rfl, found, -⟩ | ⟨socket, _, _, rfl, found, -⟩ |
        ⟨socket, _, _, rfl, found, -⟩ <;>
      have := quiet socket (mem_validSockets found) <;> simp_all

/-- The bookkeeping of connections: each made once by a task of the configuration, and
accepted or received once, after it was made. -/
structure Counted (config : Config) (mesh : Mesh) : Prop where
  made : ∀ socket ∈ mesh.established, socket ∈ validSockets config
  acceptedMade : ∀ socket ∈ mesh.accepted, socket ∈ mesh.established
  receivedMade : ∀ socket ∈ mesh.received, socket ∈ mesh.established
  distinct : mesh.established.Nodup ∧ mesh.accepted.Nodup ∧ mesh.received.Nodup

namespace Counted

variable {config : Config}

/-- The count holds when the bring-up starts. -/
theorem init : Counted config (Mesh.init config) :=
  ⟨by simp [Mesh.init], by simp [Mesh.init], by simp [Mesh.init], by simp [Mesh.init]⟩

/-- Each event records one more connection. -/
theorem step {mesh next : Mesh} {event : MeshEvent} (counted : Counted config mesh)
    (stepped : mesh.step config event = some next) :
    Counted config next ∧ next.progress = mesh.progress + 1 := by
  obtain ⟨made, acceptedMade, receivedMade, established, accepted, received⟩ := counted
  rcases Mesh.step_cases stepped with ⟨socket, _, -, found, fresh, -, -, rfl⟩ |
    ⟨socket, _, _, -, -, -, isMade, fresh, rfl⟩ | ⟨socket, _, _, -, -, -, isMade, fresh, rfl⟩
  · refine ⟨⟨?_, fun other mem => List.mem_cons_of_mem _ (acceptedMade other mem),
      fun other mem => List.mem_cons_of_mem _ (receivedMade other mem),
      List.nodup_cons.2 ⟨fresh, established⟩, accepted, received⟩, by simp [Mesh.progress]; omega⟩
    rintro other (_ | ⟨_, mem⟩)
    exacts [mem_validSockets found, made other mem]
  · refine ⟨⟨made, ?_, receivedMade, established, List.nodup_cons.2 ⟨fresh, accepted⟩, received⟩,
      by simp [Mesh.progress]; omega⟩
    rintro other (_ | ⟨_, mem⟩)
    exacts [isMade, acceptedMade other mem]
  · refine ⟨⟨made, acceptedMade, ?_, established, accepted, List.nodup_cons.2 ⟨fresh, received⟩⟩,
      by simp [Mesh.progress]; omega⟩
    rintro other (_ | ⟨_, mem⟩)
    exacts [isMade, receivedMade other mem]

/-- It holds along every run, and each event adds one to the progress. -/
theorem run {mesh final : Mesh} {events : List MeshEvent} (counted : Counted config mesh)
    (reached : mesh.run config events = some final) :
    Counted config final ∧ final.progress = mesh.progress + events.length := by
  induction events generalizing mesh with
  | nil => exact ⟨(Option.some.inj reached) ▸ counted, by simp [← Option.some.inj reached]⟩
  | cons event events ih =>
    obtain ⟨next, stepped, rest⟩ := Option.bind_eq_some.1 reached
    obtain ⟨nextCounted, grew⟩ := counted.step stepped
    obtain ⟨finalCounted, total⟩ := ih nextCounted rest
    exact ⟨finalCounted, by simp only [total, grew, List.length_cons]; omega⟩

/-- No state records more than three events per task. -/
theorem progress_le {mesh : Mesh} (counted : Counted config mesh) :
    mesh.progress ≤ 3 * dialSlots config := by
  have bound : ∀ sockets : List Connection, sockets.Nodup →
      (∀ socket ∈ sockets, socket ∈ validSockets config) → sockets.length ≤ dialSlots config :=
    fun sockets distinct within => length_validSockets config ▸ (distinct.subperm within).length_le
  have made := bound _ counted.distinct.1 counted.made
  have accepted := bound _ counted.distinct.2.1 fun socket mem =>
    counted.made socket (counted.acceptedMade socket mem)
  have received := bound _ counted.distinct.2.2 fun socket mem =>
    counted.made socket (counted.receivedMade socket mem)
  simp only [Mesh.progress]
  omega

end Counted

end TxServer
