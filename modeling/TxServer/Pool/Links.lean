import TxServer.Pool.Mesh

/-!
# Every two nodes linked once

A configuration is `Oriented` when every connection list names configured nodes other than
its own, each once, when of every two nodes exactly one lists the other, and when no node id is
whitespace. Then there is exactly one connection a task can make between two nodes
(`Oriented.joins_unique`), and the bring-up keeps `Wired`: every configured node is running,
its group holds, under each peer, the one connection it has taken in from that peer, and its
count of members is where its loop's test puts it. From that invariant, a node leaves its loop
holding every other node, two nodes out of their loops hold the same connection for each
other, and a run that cannot go on has every node out of its loop.
-/

namespace TxServer

/-- Every connection list names configured nodes other than its own, each once; of every two
nodes exactly one lists the other; and no node id is whitespace. -/
structure Oriented (config : Config) : Prop where
  /-- Each list names configured nodes, not its own node, without repeats. -/
  listed : ∀ entry ∈ config.entries, entry.2.connectionList.Nodup ∧
    ∀ node ∈ entry.2.connectionList, config.containsKey node = true ∧ node ≠ entry.1
  /-- Of two nodes, exactly one lists the other. -/
  oneWay : ∀ first ∈ config.entries, ∀ second ∈ config.entries, first.1 ≠ second.1 →
    (second.1 ∈ first.2.connectionList ↔ first.1 ∉ second.2.connectionList)
  /-- No id is whitespace, which the acceptor's `trim` would strip from the handshake. -/
  printable : ∀ entry ∈ config.entries, isWhitespace entry.1 = false

instance (config : Config) : Decidable (Oriented config) :=
  decidable_of_iff ((∀ entry ∈ config.entries, entry.2.connectionList.Nodup ∧
      ∀ node ∈ entry.2.connectionList, config.containsKey node = true ∧ node ≠ entry.1) ∧
    (∀ first ∈ config.entries, ∀ second ∈ config.entries, first.1 ≠ second.1 →
      (second.1 ∈ first.2.connectionList ↔ first.1 ∉ second.2.connectionList)) ∧
    ∀ entry ∈ config.entries, isWhitespace entry.1 = false)
    ⟨fun ⟨listed, oneWay, printable⟩ => ⟨listed, oneWay, printable⟩,
      fun ⟨listed, oneWay, printable⟩ => ⟨listed, oneWay, printable⟩⟩

/-- `socket` connects `node` and `peer`, dialled by either. -/
def Joins (config : Config) (socket : Connection) (node peer : NodeId) : Prop :=
  (socket.dialer = node ∧ socket.target config = some peer) ∨
    (socket.dialer = peer ∧ socket.target config = some node)

/-- A connection joins its two ends either way round. -/
theorem Joins.symm {config : Config} {socket : Connection} {node peer : NodeId}
    (joins : Joins config socket node peer) : Joins config socket peer node :=
  Or.symm joins

namespace Oriented

variable {config : Config}

/-- The others of a configured node: the configured ids without its own. -/
theorem mem_others {node peer : NodeId} :
    peer ∈ config.keys.erase node ↔ peer ≠ node ∧ config.containsKey peer = true := by
  rw [(BTreeMap.nodup_keys config).mem_erase_iff, BTreeMap.mem_keys]

/-- A configured node has one fewer peer than the configuration has nodes. -/
theorem length_others {node : NodeId} (configured : config.containsKey node = true) :
    (config.keys.erase node).length + 1 = config.len := by
  have positive : 0 < config.keys.length :=
    List.length_pos_of_mem (BTreeMap.mem_keys.2 configured)
  rw [List.length_erase_of_mem (BTreeMap.mem_keys.2 configured), BTreeMap.len_eq_length_keys]
  omega

variable (oriented : Oriented config)
include oriented

/-- No configured id is whitespace. -/
theorem printable_of_configured {node : NodeId} (configured : config.containsKey node = true) :
    isWhitespace node = false := by
  obtain ⟨nodeConfig, stored⟩ := BTreeMap.containsKey_iff.1 configured
  exact oriented.printable (node, nodeConfig) (BTreeMap.get?_eq_some_iff.1 stored)

/-- A connection runs between two configured nodes, never from a node to itself. -/
theorem target_configured {socket : Connection} {target : NodeId}
    (found : socket.target config = some target) :
    config.containsKey socket.dialer = true ∧ config.containsKey target = true ∧
      target ≠ socket.dialer := by
  obtain ⟨nodeConfig, stored, listed⟩ := Connection.target_eq_some found
  exact ⟨BTreeMap.containsKey_of_mem stored,
    (oriented.listed _ stored).2 target (List.getElem?_mem listed)⟩

/-- A connection joins two distinct configured nodes. -/
theorem joins_configured {socket : Connection} {node peer : NodeId}
    (joins : Joins config socket node peer) :
    config.containsKey node = true ∧ config.containsKey peer = true ∧ peer ≠ node := by
  rcases joins with ⟨rfl, found⟩ | ⟨rfl, found⟩
  · exact oriented.target_configured found
  · obtain ⟨dialer, target, distinct⟩ := oriented.target_configured found
    exact ⟨target, dialer, Ne.symm distinct⟩

/-- Two connections one node dialled to the same node are one: its list names that node
once. -/
theorem eq_of_target {socket other : Connection} {target : NodeId}
    (sameDialer : socket.dialer = other.dialer) (found : socket.target config = some target)
    (foundToo : other.target config = some target) : socket = other := by
  obtain ⟨nodeConfig, stored, listed⟩ := Connection.target_eq_some found
  obtain ⟨nodeConfig', stored', listed'⟩ := Connection.target_eq_some foundToo
  rw [← sameDialer] at stored'
  obtain rfl : nodeConfig = nodeConfig' := Option.some.inj
    ((BTreeMap.get?_eq_some_iff.2 stored).symm.trans (BTreeMap.get?_eq_some_iff.2 stored'))
  have sameSlot := List.getElem?_inj (List.getElem?_eq_some_iff.1 listed).1
    (oriented.listed _ stored).1 (listed.trans listed'.symm)
  cases socket
  cases other
  simp only [Connection.mk.injEq]
  exact ⟨sameDialer, sameSlot⟩

/-- No two nodes dial each other. -/
theorem not_crossed {socket other : Connection} (found : socket.target config = some other.dialer)
    (foundToo : other.target config = some socket.dialer) : False := by
  obtain ⟨nodeConfig, stored, listed⟩ := Connection.target_eq_some found
  obtain ⟨nodeConfig', stored', listed'⟩ := Connection.target_eq_some foundToo
  have distinct := ((oriented.listed _ stored).2 _ (List.getElem?_mem listed)).2
  exact (oriented.oneWay _ stored _ stored' (Ne.symm distinct)).1 (List.getElem?_mem listed)
    (List.getElem?_mem listed')

/-- Between two nodes there is at most one connection. -/
theorem joins_unique {socket other : Connection} {node peer : NodeId}
    (joins : Joins config socket node peer) (joinsToo : Joins config other node peer) :
    socket = other := by
  rcases joins with ⟨dialer, found⟩ | ⟨dialer, found⟩ <;>
    rcases joinsToo with ⟨dialer', found'⟩ | ⟨dialer', found'⟩
  · exact oriented.eq_of_target (dialer.trans dialer'.symm) found found'
  · exact (oriented.not_crossed (dialer' ▸ found) (dialer ▸ found')).elim
  · exact (oriented.not_crossed (dialer' ▸ found) (dialer ▸ found')).elim
  · exact oriented.eq_of_target (dialer.trans dialer'.symm) found found'

/-- Between two configured nodes there is a connection a task can make. -/
theorem exists_joins {node peer : NodeId} (configured : config.containsKey node = true)
    (configuredToo : config.containsKey peer = true) (distinct : node ≠ peer) :
    ∃ socket, Joins config socket node peer := by
  obtain ⟨nodeConfig, stored⟩ := BTreeMap.containsKey_iff.1 configured
  obtain ⟨peerConfig, storedToo⟩ := BTreeMap.containsKey_iff.1 configuredToo
  have oneWay := oriented.oneWay _ (BTreeMap.get?_eq_some_iff.1 stored) _
    (BTreeMap.get?_eq_some_iff.1 storedToo) distinct
  by_cases lists : peer ∈ nodeConfig.connectionList
  · obtain ⟨slot, indexed⟩ := List.mem_iff_getElem?.1 lists
    exact ⟨⟨node, slot⟩, .inl ⟨rfl, by simp [Connection.target, stored, indexed]⟩⟩
  · obtain ⟨slot, indexed⟩ := List.mem_iff_getElem?.1 (not_not.1 (mt oneWay.2 lists))
    exact ⟨⟨peer, slot⟩, .inr ⟨rfl, by simp [Connection.target, storedToo, indexed]⟩⟩

/-- Every configured node gets through the start of `connect_inner`. -/
theorem dialTargets_isSome {node : NodeId} (configured : config.containsKey node = true) :
    ((ConnectionPool.new node).dialTargets config).isSome := by
  obtain ⟨nodeConfig, stored⟩ := BTreeMap.containsKey_iff.1 configured
  have named := (oriented.listed (node, nodeConfig) (BTreeMap.get?_eq_some_iff.1 stored)).2
  rw [ConnectionPool.dialTargets_eq_some stored fun listed mem => (named listed mem).1]
  rfl

end Oriented

/-- A pool's group holds, under each peer, a handle naming that peer on a connection `taken`
links them by, and nothing else. -/
def ConnectionPool.Holds (pool : ConnectionPool) (taken : NodeId → Connection → Prop) : Prop :=
  ∀ peer member, pool.group.get? peer = some member ↔
    member.memberId = peer ∧ taken peer member.connection

/-- A configured node during bring-up: running, its group holding exactly the links `taken`
records, and its count of members where its loop's test puts it: a node in its loop has
admitted no one or fewer than all the others, a node out of it one member for each other. -/
def Bringup.Ok (configLen : Nat) (taken : NodeId → Connection → Prop) : Bringup → Prop
  | .connecting pool => pool.Holds taken ∧ (pool.group.len = 0 ∨ pool.group.len + 1 < configLen)
  | .connected pool => pool.Holds taken ∧ 0 < pool.group.len ∧ pool.group.len + 1 = configLen
  | .panicked | .absent => False

/-- Admitting a node's one link to a peer it did not hold keeps its part of the invariant,
whichever way the loop then goes. -/
theorem Bringup.Ok.admit {configLen : Nat} {taken taken' : NodeId → Connection → Prop}
    {pool : ConnectionPool} {socket : Connection} {newPeer : NodeId} {others : List NodeId}
    (ok : Bringup.Ok configLen taken (.connecting pool))
    (grown : ∀ peer link, taken' peer link ↔ taken peer link ∨ (link = socket ∧ peer = newPeer))
    (only : ∀ link, taken' newPeer link → link = socket) (fresh : ¬taken newPeer socket)
    (counted : others.length + 1 = configLen) (within : ∀ peer link, taken' peer link → peer ∈ others) :
    Bringup.Ok configLen taken'
      (Bringup.after (some (ConnectionPool.admitted configLen (pool.admitMember socket newPeer)))) := by
  obtain ⟨holds, short⟩ := ok
  have holds' : (pool.admitMember socket newPeer).Holds taken' := by
    intro peer member
    rw [ConnectionPool.group_admitMember, BTreeMap.get?_insert]
    by_cases isNew : peer = newPeer
    · subst isNew
      rw [if_pos rfl, Option.some.injEq]
      constructor
      · rintro rfl
        exact ⟨rfl, (grown _ _).2 (.inr ⟨rfl, rfl⟩)⟩
      · rintro ⟨named, linked⟩
        rw [← only _ linked, ← named]
    · rw [if_neg isNew, holds, grown]
      simp [isNew]
  have absent : pool.group.containsKey newPeer = false := by
    cases held : pool.group.get? newPeer with
    | none => simp [BTreeMap.containsKey, held]
    | some member =>
      obtain ⟨named, linked⟩ := (holds _ _).1 held
      have linked' := (grown _ _).2 (.inl linked)
      exact (fresh (only _ linked' ▸ named ▸ linked)).elim
  have grew := BTreeMap.len_insert ⟨newPeer, socket⟩ absent
  have members : ∀ key, (pool.admitMember socket newPeer).group.containsKey key = true →
      key ∈ others := fun key held => by
    obtain ⟨member, found⟩ := BTreeMap.containsKey_iff.1 held
    exact within key _ ((holds' key member).1 found).2
  have bounded := (BTreeMap.len_le_of_subset members).1
  rw [ConnectionPool.group_admitMember] at bounded
  unfold ConnectionPool.admitted
  split_ifs with full <;>
    exact ⟨holds', by simp only [ConnectionPool.group_admitMember] at full ⊢; omega⟩

end TxServer
