import TxServer.TransactionId
import TxServer.Collections

/-!
# One node's pool bring-up

`ConnectionPool::connect_inner` binds the node's port, spawns one `connect_to_node` task per
node of its connection list, and loops: it admits every connection accepted on the port, whose
first line names the member, and every connection one of its own tasks made, until the group
holds one member for each other node of the configuration.

The handshake is one line. A dialling task writes its node id and a newline; the accepting
side reads one line, trims it and parses it as a `char`, and `unwrap`s the result. Rust trims
the Unicode `White_Space` characters, so the line reads back as the dialler's id exactly when
that id is not itself whitespace (`parseChar_trim_idLine`); otherwise the acceptor
panics.

Characters stand for the bytes on the wire: a newline byte never occurs inside the UTF-8
encoding of another character, so reading up to the first newline byte and decoding is
reading up to the first newline character.
-/

namespace TxServer

/-! ## The handshake line -/

/-- `char::is_whitespace`: the characters with the Unicode `White_Space` property. -/
def isWhitespace (c : Char) : Bool :=
  let n := c.toNat
  (0x09 ≤ n && n ≤ 0x0D) || n == 0x20 || n == 0x85 || n == 0xA0 || n == 0x1680 ||
    (0x2000 ≤ n && n ≤ 0x200A) || n == 0x2028 || n == 0x2029 || n == 0x202F ||
    n == 0x205F || n == 0x3000

/-- `str::trim`: the text without its leading and trailing whitespace. -/
def trim (text : List Char) : List Char :=
  ((text.dropWhile isWhitespace).reverse.dropWhile isWhitespace).reverse

/-- `<char as FromStr>::from_str`: a text of exactly one character. -/
def parseChar : List Char → Option Char
  | [c] => some c
  | _ => none

/-- `read_line` on a stream holding `input`: everything up to and including the first newline,
or all of it when the stream ends first. -/
def readLine : List Char → List Char
  | [] => []
  | c :: rest => c :: if c = '\n' then [] else readLine rest

/-- What `connect_to_node` writes on a new connection: `format!("{}\n", this_node)`. -/
def idLine (thisNode : NodeId) : List Char := [thisNode, '\n']

/-- The handshake round trip: whatever follows the id line on the stream, the acceptor reads
back the dialler's id when it is not whitespace, and nothing it can `unwrap` when it is. -/
theorem parseChar_trim_idLine (node : NodeId) (rest : List Char) :
    parseChar (trim (readLine (idLine node ++ rest))) =
      if isWhitespace node then none else some node := by
  have newline : isWhitespace '\n' = true := rfl
  by_cases isNewline : node = '\n'
  · subst isNewline
    simp [idLine, readLine, trim, newline, parseChar]
  · cases blank : isWhitespace node <;>
      simp [idLine, readLine, isNewline, trim, blank, newline, parseChar]

/-! ## The loop of `connect_inner` -/

/-- A connection made by a `connect_to_node` task: the node whose pool spawned it, and the
position in that node's connection list of the node it dials. -/
structure Connection where
  /-- The node that dialled. -/
  dialer : NodeId
  /-- The position of the dialled node in the dialler's connection list. -/
  slot : Nat
  deriving DecidableEq, Repr

/-- Modelled from the spec: a node's entry in `tx_common::config::Config`. Of its hostname,
port and connection list only the list enters the pool's logic. -/
structure NodeConfig where
  /-- The nodes this node dials. -/
  connectionList : List NodeId
  deriving DecidableEq, Repr

/-- Modelled from the spec: `tx_common::config::Config`, each node's configuration by id. -/
abbrev Config := BTreeMap NodeId NodeConfig

/-- The node a connection dials, when its dialler is configured and lists one at its slot. -/
def Connection.target (config : Config) (socket : Connection) : Option NodeId :=
  (config.get? socket.dialer).bind fun nodeConfig => nodeConfig.connectionList[socket.slot]?

/-- `MulticastMemberHandle`: the member's id, and the connection its member loop serves. -/
structure MulticastMemberHandle where
  /-- The member's node id. -/
  memberId : NodeId
  /-- The connection handed to `member_loop`. -/
  connection : Connection
  deriving DecidableEq, Repr

/-- `ConnectionPool`, with the fields `connect_inner` reads and writes: the group of admitted
members, a `HashMap` from id to handle, and this node's id. -/
structure ConnectionPool where
  /-- `group`. -/
  group : BTreeMap NodeId MulticastMemberHandle
  /-- `node_id`. -/
  nodeId : NodeId

namespace ConnectionPool

/-- `ConnectionPool::new`: no members yet. -/
def new (nodeId : NodeId) : ConnectionPool := ⟨BTreeMap.new, nodeId⟩

/-- `admit_member`: spawn the member loop on the connection and store its handle under the
member's id, replacing the handle stored there before. -/
def admitMember (self : ConnectionPool) (socket : Connection) (memberId : NodeId) :
    ConnectionPool :=
  { self with group := self.group.insert memberId ⟨memberId, socket⟩ }

/-- The start of `connect_inner`: this node's configuration, and for each node of its
connection list that node's configuration, each `unwrap`ped (`none` is the panic). Returns the
nodes the spawned tasks dial. Binding the port, which exits the process when it fails, is the
environment's. -/
def dialTargets (self : ConnectionPool) (config : Config) : Option (List NodeId) := do
  let nodeConfig ← config.get? self.nodeId
  nodeConfig.connectionList.mapM fun node => (config.get? node).map fun _ => node

/-- The start of `connect_inner` gets through when this node and every node it lists are
configured, and its tasks dial its list. -/
theorem dialTargets_eq_some {self : ConnectionPool} {config : Config} {nodeConfig : NodeConfig}
    (stored : config.get? self.nodeId = some nodeConfig)
    (named : ∀ node ∈ nodeConfig.connectionList, config.containsKey node = true) :
    self.dialTargets config = some nodeConfig.connectionList := by
  have resolved : ∀ nodes : List NodeId, (∀ node ∈ nodes, config.containsKey node = true) →
      (nodes.mapM fun node => (config.get? node).map fun _ => node) = some nodes := by
    intro nodes
    induction nodes with
    | nil => intro _; rfl
    | cons node rest ih =>
      intro named
      obtain ⟨value, got⟩ := BTreeMap.containsKey_iff.1 (named node (List.mem_cons_self _ _))
      rw [List.mapM_cons, got, ih fun other mem => named other (List.mem_cons_of_mem _ mem)]
      rfl
  rw [dialTargets]
  simp only [stored, Option.bind_eq_bind, Option.some_bind]
  exact resolved _ named

end ConnectionPool

/-- What one pass of `connect_inner`'s loop saw: a connection accepted on the port and what
`read_line` returned on it (`Err` or the line read, empty for `Ok(0)`), a failed `accept`, or a
connection one of this node's own tasks made to `memberId`. -/
inductive PoolEvent where
  | accepted (socket : Connection) (line : Except Unit (List Char))
  | acceptFailed
  | dialed (socket : Connection) (memberId : NodeId)

/-- How one pass of the loop ends: go round again, or `break self`. -/
inductive LoopStep where
  | continue (pool : ConnectionPool)
  | break (pool : ConnectionPool)

namespace ConnectionPool

/-- After an admission: `break` once the group holds `config.len() - 1` members. -/
def admitted (configLen : Nat) (pool : ConnectionPool) : LoopStep :=
  if pool.group.len = configLen - 1 then .break pool else .continue pool

/-- One pass of `connect_inner`'s loop; `none` is the panic of `unwrap` on a line that does not
parse as a node id. -/
def connectStep (self : ConnectionPool) (configLen : Nat) : PoolEvent → Option LoopStep
  | .accepted socket (.ok line) =>
    if line.isEmpty then some (.continue self)
    else (parseChar (trim line)).map fun memberId =>
      admitted configLen (self.admitMember socket memberId)
  | .accepted _ (.error _) | .acceptFailed => some (.continue self)
  | .dialed socket memberId => some (admitted configLen (self.admitMember socket memberId))

@[simp] theorem group_admitMember (self : ConnectionPool) (socket : Connection)
    (memberId : NodeId) :
    (self.admitMember socket memberId).group = self.group.insert memberId ⟨memberId, socket⟩ :=
  rfl

/-- A connection accepted from a node whose id is not whitespace admits that node. -/
theorem connectStep_accepted_idLine (self : ConnectionPool) (configLen : Nat)
    (socket : Connection) (printable : isWhitespace socket.dialer = false) :
    self.connectStep configLen (.accepted socket (.ok (readLine (idLine socket.dialer)))) =
      some (admitted configLen (self.admitMember socket socket.dialer)) := by
  have parsed := parseChar_trim_idLine socket.dialer []
  rw [List.append_nil, printable] at parsed
  have nonempty : (readLine (idLine socket.dialer)).isEmpty = false := rfl
  simp [connectStep, nonempty, parsed]

end ConnectionPool

end TxServer
