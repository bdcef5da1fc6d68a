import TxServer.Pool.Links

/-!
# Bring-up over every interleaving

`Wired` is the invariant of the cluster's bring-up under an `Oriented` configuration: each
configured node is running and its group holds exactly the links it has taken in, counted
where its loop's test puts them; every other id stays absent. An accept and a receive each
give one node one new link, to a peer it did not hold, so `Bringup.Ok.admit` carries the node
through; an established connection changes no node.

From `Wired` follow the safety of every reachable state (`bringup_links_every_pair`) and,
with `Counted`, the completion of every run that cannot go on (`bringup_completes`).
-/

namespace TxServer

namespace Mesh

variable {config : Config}

/-- `node` holds `socket` as its link to `peer`: it accepted the connection `peer` dialled to
it, or received from its own task the connection it dialled to `peer`. -/
def TakenIn (config : Config) (mesh : Mesh) (node peer : NodeId) (socket : Connection) : Prop :=
  (socket.dialer = peer ∧ socket.target config = some node ∧ socket ∈ mesh.accepted) ∨
    (socket.dialer = node ∧ socket.target config = some peer ∧ socket ∈ mesh.received)

/-- A connection a node has taken in joins it to the peer it is stored under. -/
theorem TakenIn.joins {mesh : Mesh} {node peer : NodeId} {socket : Connection}
    (taken : mesh.TakenIn config node peer socket) : Joins config socket node peer := by
  rcases taken with ⟨dialer, found, -⟩ | ⟨dialer, found, -⟩
  exacts [.inr ⟨dialer, found⟩, .inl ⟨dialer, found⟩]

/-- A link two nodes have both taken in was accepted by one and received by the other. -/
theorem TakenIn.both {mesh : Mesh} {node peer : NodeId} {socket : Connection}
    (taken : mesh.TakenIn config node peer socket) (takenToo : mesh.TakenIn config peer node socket)
    (distinct : node ≠ peer) : socket ∈ mesh.accepted ∧ socket ∈ mesh.received := by
  rcases taken with ⟨dialer, -, accepted⟩ | ⟨dialer, -, received⟩ <;>
    rcases takenToo with ⟨dialer', -, accepted'⟩ | ⟨dialer', -, received'⟩
  · exact (distinct (dialer'.symm.trans dialer)).elim
  · exact ⟨accepted, received'⟩
  · exact ⟨accepted', received⟩
  · exact (distinct (dialer.symm.trans dialer')).elim

/-- What a node has taken in after an accept: the accepted connection, or what it had. -/
theorem takenIn_accept {mesh : Mesh} {nodes : NodeId → Bringup} {socket link : Connection}
    {node peer : NodeId} :
    TakenIn config { mesh with nodes := nodes, accepted := socket :: mesh.accepted } node peer
        link ↔
      mesh.TakenIn config node peer link ∨
        (link = socket ∧ link.dialer = peer ∧ link.target config = some node) := by
  simp only [TakenIn, List.mem_cons]
  tauto

/-- What a node has taken in after a receive: the received connection, or what it had. -/
theorem takenIn_receive {mesh : Mesh} {nodes : NodeId → Bringup} {socket link : Connection}
    {node peer : NodeId} :
    TakenIn config { mesh with nodes := nodes, received := socket :: mesh.received } node peer
        link ↔
      mesh.TakenIn config node peer link ∨
        (link = socket ∧ link.dialer = node ∧ link.target config = some peer) := by
  simp only [TakenIn, List.mem_cons]
  tauto

/-- An accept gives no link to a node other than the one accepting. -/
theorem takenIn_accept_of_ne {mesh : Mesh} {nodes : NodeId → Bringup} {socket : Connection}
    {node target : NodeId} (found : socket.target config = some target) (other : node ≠ target) :
    TakenIn config { mesh with nodes := nodes, accepted := socket :: mesh.accepted } node =
      mesh.TakenIn config node := by
  funext peer link
  refine propext (takenIn_accept.trans (or_iff_left ?_))
  rintro ⟨rfl, -, found'⟩
  exact other (Option.some.inj (found'.symm.trans found))

/-- A receive gives no link to a node other than the dialler. -/
theorem takenIn_receive_of_ne {mesh : Mesh} {nodes : NodeId → Bringup} {socket : Connection}
    {node : NodeId} (other : node ≠ socket.dialer) :
    TakenIn config { mesh with nodes := nodes, received := socket :: mesh.received } node =
      mesh.TakenIn config node := by
  funext peer link
  refine propext (takenIn_receive.trans (or_iff_left ?_))
  rintro ⟨rfl, named, -⟩
  exact other named.symm

end Mesh

/-- The invariant of bring-up: every configured node is running, holds exactly the links it
has taken in and counts them where its loop's test puts it; every other id is absent. -/
structure Wired (config : Config) (mesh : Mesh) : Prop where
  /-- The configured nodes. -/
  configured : ∀ node, config.containsKey node = true →
    (mesh.nodes node).Ok config.len (mesh.TakenIn config node)
  /-- The other ids. -/
  unconfigured : ∀ node, config.containsKey node = false → mesh.nodes node = .absent

namespace Wired

variable {config : Config} (oriented : Oriented config)
include oriented

/-- A group's members are other configured nodes. -/
theorem mem_others_of_holds {mesh : Mesh} {node : NodeId} {pool : ConnectionPool}
    (holds : pool.Holds (mesh.TakenIn config node)) {peer : NodeId}
    (held : pool.group.containsKey peer = true) : peer ∈ config.keys.erase node := by
  obtain ⟨member, found⟩ := BTreeMap.containsKey_iff.1 held
  obtain ⟨-, configured, distinct⟩ := oriented.joins_configured ((holds _ _).1 found).2.joins
  exact Oriented.mem_others.2 ⟨distinct, configured⟩

/-- A node out of its loop holds every other configured node. -/
theorem connected_holds {mesh : Mesh} {node : NodeId} {pool : ConnectionPool}
    (configured : config.containsKey node = true)
    (ok : Bringup.Ok config.len (mesh.TakenIn config node) (.connected pool)) {peer : NodeId}
    (configuredPeer : config.containsKey peer = true) (distinct : peer ≠ node) :
    pool.group.containsKey peer = true := by
  obtain ⟨holds, -, full⟩ := ok
  have others := Oriented.length_others configured
  exact (BTreeMap.len_le_of_subset fun key => mem_others_of_holds oriented holds).2
    ((BTreeMap.nodup_keys config).erase node) (by omega) peer
    (Oriented.mem_others.2 ⟨distinct, configuredPeer⟩)

/-- The bring-up starts wired. -/
theorem init : Wired config (Mesh.init config) := by
  constructor
  · intro node configured
    obtain ⟨nodeConfig, stored⟩ := BTreeMap.containsKey_iff.1 configured
    simp only [Mesh.init, stored, oriented.dialTargets_isSome configured, if_true]
    refine ⟨fun peer member => ?_, .inl rfl⟩
    simp [ConnectionPool.new, Mesh.TakenIn]
  · intro node unconfigured
    simp [Mesh.init, BTreeMap.containsKey, Option.isSome_iff_ne_none] at unconfigured ⊢
    simp [unconfigured]

/-- Every event keeps the invariant. -/
theorem step {mesh next : Mesh} {event : MeshEvent} (wired : Wired config mesh)
    (stepped : mesh.step config event = some next) : Wired config next := by
  rcases Mesh.step_cases stepped with ⟨socket, target, -, found, -, -, -, rfl⟩ |
    ⟨socket, target, pool, -, found, connecting, -, fresh, rfl⟩ |
    ⟨socket, target, pool, -, found, connecting, -, fresh, rfl⟩
  · exact ⟨wired.configured, wired.unconfigured⟩
  · obtain ⟨configuredDialer, configuredTarget, distinct⟩ := oriented.target_configured found
    have joins : Joins config socket target socket.dialer := .inr ⟨rfl, found⟩
    refine ⟨fun node configured => ?_, fun node unconfigured => ?_⟩
    · dsimp only [Mesh.setNode]
      by_cases here : node = target
      · subst here
        rw [if_pos rfl, pool.connectStep_accepted_idLine _ _
          (oriented.printable_of_configured configuredDialer)]
        have ok := wired.configured node configured
        rw [connecting] at ok
        refine ok.admit (fun peer link => ?_)
          (fun link taken => oriented.joins_unique taken.joins joins) ?_
          (Oriented.length_others configured) fun peer link taken => ?_
        · rw [Mesh.takenIn_accept]
          constructor
          · rintro (old | ⟨rfl, named, -⟩)
            exacts [.inl old, .inr ⟨rfl, named.symm⟩]
          · rintro (old | ⟨rfl, rfl⟩)
            exacts [.inl old, .inr ⟨rfl, rfl, found⟩]
        · rintro (⟨-, -, accepted⟩ | ⟨self, -⟩)
          exacts [fresh accepted, distinct self.symm]
        · obtain ⟨-, configuredPeer, other⟩ := oriented.joins_configured taken.joins
          exact Oriented.mem_others.2 ⟨other, configuredPeer⟩
      · rw [if_neg here, Mesh.takenIn_accept_of_ne found here]
        exact wired.configured node configured
    · have other : node ≠ target := fun same => by simp [same, configuredTarget] at unconfigured
      simp only [Mesh.setNode, if_neg other]
      exact wired.unconfigured node unconfigured
  · obtain ⟨configuredDialer, configuredTarget, distinct⟩ := oriented.target_configured found
    have joins : Joins config socket socket.dialer target := .inl ⟨rfl, found⟩
    refine ⟨fun node configured => ?_, fun node unconfigured => ?_⟩
    · dsimp only [Mesh.setNode]
      by_cases here : node = socket.dialer
      · subst here
        rw [if_pos rfl]
        have ok := wired.configured _ configured
        rw [connecting] at ok
        refine ok.admit (fun peer link => ?_)
          (fun link taken => oriented.joins_unique taken.joins joins) ?_
          (Oriented.length_others configured) fun peer link taken => ?_
        · rw [Mesh.takenIn_receive]
          constructor
          · rintro (old | ⟨rfl, -, named⟩)
            exacts [.inl old, .inr ⟨rfl, Option.some.inj (named.symm.trans found)⟩]
          · rintro (old | ⟨rfl, rfl⟩)
            exacts [.inl old, .inr ⟨rfl, rfl, found⟩]
        · rintro (⟨self, -⟩ | ⟨-, -, received⟩)
          exacts [distinct self.symm, fresh received]
        · obtain ⟨-, configuredPeer, other⟩ := oriented.joins_configured taken.joins
          exact Oriented.mem_others.2 ⟨other, configuredPeer⟩
      · rw [if_neg here, Mesh.takenIn_receive_of_ne here]
        exact wired.configured node configured
    · have other : node ≠ socket.dialer := fun same => by
        simp [same, configuredDialer] at unconfigured
      simp only [Mesh.setNode, if_neg other]
      exact wired.unconfigured node unconfigured

/-- Every run of the bring-up stays wired. -/
theorem run {mesh final : Mesh} {events : List MeshEvent} (wired : Wired config mesh)
    (reached : mesh.run config events = some final) : Wired config final := by
  induction events generalizing mesh with
  | nil => exact Option.some.inj reached ▸ wired
  | cons event events ih =>
    obtain ⟨next, stepped, rest⟩ := Option.bind_eq_some.1 reached
    exact ih (wired.step oriented stepped) rest

omit oriented in
/-- Only configured ids run. -/
theorem containsKey_of_running {mesh : Mesh} (wired : Wired config mesh) {node : NodeId}
    (running : (mesh.nodes node).pool?.isSome) : config.containsKey node = true := by
  cases configured : config.containsKey node
  · simp [wired.unconfigured node configured, Bringup.pool?] at running
  · rfl

omit oriented in
/-- A configured node is running, its group holding exactly the links it has taken in. -/
theorem pool_of_configured {mesh : Mesh} (wired : Wired config mesh) {node : NodeId}
    (configured : config.containsKey node = true) :
    ∃ pool, (mesh.nodes node).pool? = some pool ∧ pool.Holds (mesh.TakenIn config node) := by
  have ok := wired.configured node configured
  cases state : mesh.nodes node with
  | connecting pool => rw [state] at ok; exact ⟨pool, rfl, ok.1⟩
  | connected pool => rw [state] at ok; exact ⟨pool, rfl, ok.1⟩
  | panicked => rw [state] at ok; exact (ok : False).elim
  | absent => rw [state] at ok; exact (ok : False).elim

omit oriented in
/-- A node still in its loop that holds every other configured node is the only node: its loop
tests the size of its group after each admission. -/
theorem alone_of_holds_all {mesh : Mesh} (wired : Wired config mesh) {node : NodeId}
    {pool : ConnectionPool} (connecting : mesh.nodes node = .connecting pool)
    (holdsAll : ∀ peer, config.containsKey peer = true → peer ≠ node →
      pool.group.containsKey peer = true) : config.len = 1 := by
  have configured := wired.containsKey_of_running (by rw [connecting]; rfl)
  have ok := wired.configured node configured
  rw [connecting] at ok
  obtain ⟨-, short⟩ := ok
  have all := BTreeMap.length_le_len_of_subset ((BTreeMap.nodup_keys config).erase node)
    fun peer mem => holdsAll peer (Oriented.mem_others.1 mem).2 (Oriented.mem_others.1 mem).1
  have others := Oriented.length_others configured
  omega

/-- Where no event can happen, a node still in its loop holds every other configured node: a
connection to a peer it lacked could still be made, accepted or received. -/
theorem quiet_holds {mesh : Mesh} (counted : Counted config mesh) (wired : Wired config mesh)
    (quiet : ∀ event, mesh.step config event = none) {node : NodeId} {pool : ConnectionPool}
    (configured : config.containsKey node = true) (connecting : mesh.nodes node = .connecting pool)
    {peer : NodeId} (configuredPeer : config.containsKey peer = true) (distinct : peer ≠ node) :
    pool.group.containsKey peer = true := by
  have stuck : ∀ event, (mesh.step config event).isSome = true → False := fun event enabled => by
    simp [quiet event] at enabled
  have holds : pool.Holds (mesh.TakenIn config node) := by
    have ok := wired.configured node configured
    rw [connecting] at ok
    exact ok.1
  have holding : ∀ socket, mesh.TakenIn config node peer socket →
      pool.group.containsKey peer = true := fun socket taken =>
    BTreeMap.containsKey_iff.2 ⟨_, (holds peer ⟨peer, socket⟩).2 ⟨rfl, taken⟩⟩
  obtain ⟨socket, joins⟩ := oriented.exists_joins configured configuredPeer (Ne.symm distinct)
  rcases joins with ⟨dialer, found⟩ | ⟨dialer, found⟩
  · -- the node dials the peer
    by_cases received : socket ∈ mesh.received
    · exact holding socket (.inr ⟨dialer, found, received⟩)
    by_cases made : socket ∈ mesh.established
    · exact (stuck _ (Mesh.step_receive_isSome found (dialer ▸ connecting) made received)).elim
    have peerOk := wired.configured peer configuredPeer
    cases peerState : mesh.nodes peer with
    | connecting peerPool =>
      exact (stuck _ (Mesh.step_establish_isSome found made (by rw [dialer, connecting]; rfl)
        (by rw [peerState]; rfl))).elim
    | connected peerPool =>
      -- the peer left its loop holding the node, through the one connection between them
      rw [peerState] at peerOk
      obtain ⟨member, got⟩ := BTreeMap.containsKey_iff.1
        (connected_holds oriented configuredPeer peerOk configured (Ne.symm distinct))
      obtain ⟨-, taken⟩ := (peerOk.1 node member).1 got
      rw [oriented.joins_unique taken.joins (.inr ⟨dialer, found⟩)] at taken
      rcases taken with ⟨-, -, accepted⟩ | ⟨self, -⟩
      · exact (made (counted.acceptedMade socket accepted)).elim
      · exact (distinct (self.symm.trans dialer)).elim
    | panicked => rw [peerState] at peerOk; exact (peerOk : False).elim
    | absent => rw [peerState] at peerOk; exact (peerOk : False).elim
  · -- the peer dials the node
    by_cases accepted : socket ∈ mesh.accepted
    · exact holding socket (.inl ⟨dialer, found, accepted⟩)
    by_cases made : socket ∈ mesh.established
    · exact (stuck _ (Mesh.step_accept_isSome found connecting made accepted)).elim
    obtain ⟨peerPool, peerRunning, -⟩ := wired.pool_of_configured configuredPeer
    exact (stuck _ (Mesh.step_establish_isSome found made (by rw [dialer, peerRunning]; rfl)
      (by rw [connecting]; rfl))).elim

end Wired

/-- In every run of the bring-up under an oriented configuration, whatever the order of its
events: no configured node panics; a node's group holds only other configured nodes, each under
its own id on the connection between the two that the node has taken in; a node still in its
loop lacks some other node, unless it is the only node; a node out of its loop holds every
other node; and two nodes out of their loops hold the same connection for each other, one
having accepted it and the other received it. -/
theorem bringup_links_every_pair (config : Config) (oriented : Oriented config)
    (events : List MeshEvent) (mesh : Mesh)
    (reached : (Mesh.init config).run config events = some mesh) :
    (∀ node, config.containsKey node = true → ∃ pool, (mesh.nodes node).pool? = some pool ∧
      ∀ peer member, pool.group.get? peer = some member →
        member.memberId = peer ∧ peer ≠ node ∧ config.containsKey peer = true ∧
          mesh.TakenIn config node peer member.connection) ∧
    (∀ node pool, mesh.nodes node = .connecting pool → config.len = 1 ∨
      ∃ peer, config.containsKey peer = true ∧ peer ≠ node ∧
        pool.group.containsKey peer = false) ∧
    (∀ node pool, mesh.nodes node = .connected pool →
      ∀ peer, config.containsKey peer = true → peer ≠ node → pool.group.containsKey peer = true) ∧
    (∀ node peer pool peerPool, node ≠ peer → mesh.nodes node = .connected pool →
      mesh.nodes peer = .connected peerPool → ∃ socket,
        pool.group.get? peer = some ⟨peer, socket⟩ ∧ peerPool.group.get? node = some ⟨node, socket⟩ ∧
        socket ∈ mesh.accepted ∧ socket ∈ mesh.received) := by
  have wired := (Wired.init oriented).run oriented reached
  have okOf : ∀ {node state}, mesh.nodes node = state → state.pool?.isSome →
      config.containsKey node = true ∧ state.Ok config.len (mesh.TakenIn config node) :=
    fun {node _} state running =>
      have configured := wired.containsKey_of_running (by rw [state]; exact running)
      ⟨configured, state ▸ wired.configured node configured⟩
  refine ⟨fun node configured => ?_, fun node pool connecting => ?_,
    fun node pool connected => ?_, fun node peer pool peerPool distinct connected connectedToo => ?_⟩
  · obtain ⟨pool, running, holds⟩ := wired.pool_of_configured configured
    refine ⟨pool, running, fun peer member found => ?_⟩
    obtain ⟨named, taken⟩ := (holds peer member).1 found
    obtain ⟨-, configuredPeer, distinct⟩ := oriented.joins_configured taken.joins
    exact ⟨named, distinct, configuredPeer, taken⟩
  · by_contra! complete
    exact complete.1 (wired.alone_of_holds_all connecting fun peer configuredPeer distinct => by
      simpa using complete.2 peer configuredPeer distinct)
  · obtain ⟨configured, ok⟩ := okOf connected rfl
    exact fun peer => Wired.connected_holds oriented configured ok
  · obtain ⟨configured, ok⟩ := okOf connected rfl
    obtain ⟨configuredPeer, okPeer⟩ := okOf connectedToo rfl
    obtain ⟨⟨id, link⟩, got⟩ := BTreeMap.containsKey_iff.1
      (Wired.connected_holds oriented configured ok configuredPeer (Ne.symm distinct))
    obtain ⟨⟨id', link'⟩, got'⟩ := BTreeMap.containsKey_iff.1
      (Wired.connected_holds oriented configuredPeer okPeer configured distinct)
    obtain ⟨named, taken⟩ := (ok.1 peer _).1 got
    obtain ⟨named', taken'⟩ := (okPeer.1 node _).1 got'
    obtain rfl : link = link' := oriented.joins_unique taken.joins.symm taken'.joins
    dsimp only at named named' taken taken'
    subst named named'
    exact ⟨link, got, got', taken.both taken' distinct⟩

/-- Three nodes: `A` dials `B` and `C`, and `B` dials `C`. -/
def threeNodes : Config :=
  ((BTreeMap.new.insert 'A' ⟨['B', 'C']⟩).insert 'B' ⟨['C']⟩).insert 'C' ⟨[]⟩

/-- A bring-up of `threeNodes`: every connection made, then accepted, then received. -/
def threeNodesBringup : List MeshEvent :=
  [.establish ⟨'A', 0⟩, .establish ⟨'A', 1⟩, .establish ⟨'B', 0⟩,
    .accept ⟨'A', 0⟩, .accept ⟨'A', 1⟩, .accept ⟨'B', 0⟩,
    .receive ⟨'A', 0⟩, .receive ⟨'A', 1⟩, .receive ⟨'B', 0⟩]

/-- That bring-up runs, and once `A` and `C` are out of their loops they hold one connection
for each other. -/
theorem three_nodes_linked :
    ∃ mesh, (Mesh.init threeNodes).run threeNodes threeNodesBringup = some mesh ∧
      ∀ poolA poolC, mesh.nodes 'A' = .connected poolA → mesh.nodes 'C' = .connected poolC →
        ∃ socket, poolA.group.get? 'C' = some ⟨'C', socket⟩ ∧
          poolC.group.get? 'A' = some ⟨'A', socket⟩ := by
  obtain ⟨mesh, reached⟩ := Option.isSome_iff_exists.1
    (by decide : ((Mesh.init threeNodes).run threeNodes threeNodesBringup).isSome)
  refine ⟨mesh, reached, fun poolA poolC fromA fromC => ?_⟩
  obtain ⟨socket, gotA, gotC, -⟩ := (bringup_links_every_pair threeNodes (by decide)
    threeNodesBringup mesh reached).2.2.2 'A' 'C' poolA poolC (by decide) fromA fromC
  exact ⟨socket, gotA, gotC⟩

/-- Under an oriented configuration every run of the bring-up is finite, at most three events
per task, and a run that cannot go on has every node out of its loop, unless the configuration
has a single node, whose loop never ends: `connect_inner` tests the size of its group only
after an admission, and a lone node admits no one. -/
theorem bringup_completes (config : Config) (oriented : Oriented config)
    (events : List MeshEvent) (mesh : Mesh)
    (reached : (Mesh.init config).run config events = some mesh) :
    events.length ≤ 3 * dialSlots config ∧
      ((∀ event, mesh.step config event = none) →
        ((∀ node, config.containsKey node = true → ∃ pool, mesh.nodes node = .connected pool) ↔
          config.len ≠ 1)) := by
  obtain ⟨counted, progressed⟩ := Counted.init.run reached
  have wired := (Wired.init oriented).run oriented reached
  refine ⟨?_, fun quiet => ⟨fun connected single => ?_, fun several node configured => ?_⟩⟩
  · have bound := counted.progress_le
    have start : (Mesh.init config).progress = 0 := rfl
    omega
  · obtain ⟨entry, only⟩ := List.length_eq_one.1 single
    have configured : config.containsKey entry.1 = true :=
      BTreeMap.containsKey_of_mem (only ▸ List.mem_singleton_self entry)
    obtain ⟨pool, state⟩ := connected entry.1 configured
    have ok := wired.configured entry.1 configured
    rw [state] at ok
    obtain ⟨-, admitted, full⟩ := ok
    omega
  · have ok := wired.configured node configured
    cases state : mesh.nodes node with
    | connected pool => exact ⟨pool, rfl⟩
    | connecting pool =>
      exact (several (wired.alone_of_holds_all state fun peer configuredPeer distinct =>
        wired.quiet_holds oriented counted quiet configured state configuredPeer distinct)).elim
    | panicked => rw [state] at ok; exact (ok : False).elim
    | absent => rw [state] at ok; exact (ok : False).elim

/-- That bring-up leaves no event possible, and every node out of its loop. -/
theorem three_nodes_bringup_completes :
    ∃ mesh, (Mesh.init threeNodes).run threeNodes threeNodesBringup = some mesh ∧
      ∀ node, threeNodes.containsKey node = true → ∃ pool, mesh.nodes node = .connected pool := by
  obtain ⟨mesh, reached⟩ := Option.isSome_iff_exists.1
    (by decide : ((Mesh.init threeNodes).run threeNodes threeNodesBringup).isSome)
  have quiet : ((Mesh.init threeNodes).run threeNodes threeNodesBringup).all fun mesh =>
      decide (∀ socket ∈ validSockets threeNodes,
        (mesh.step threeNodes (.establish socket)).isNone ∧
        (mesh.step threeNodes (.accept socket)).isNone ∧
        (mesh.step threeNodes (.receive socket)).isNone) := by decide
  rw [reached, Option.all_some, decide_eq_true_iff] at quiet
  exact ⟨mesh, reached, ((bringup_completes threeNodes (by decide) threeNodesBringup mesh
    reached).2 (Mesh.quiet_of_validSockets quiet)).2 (by decide)⟩

end TxServer
