import TxServer.TransactionId
import TxServer.Collections
import TxServer.Sharding.Object
import TxServer.Sharding.Run
import TxServer.Sharding.Ordering
import TxServer.Sharding.Commit
import TxServer.Sharding.Cleanup
import TxServer.Sharding.Serializability
import TxServer.Coordinator.Server
import TxServer.Coordinator.TwoPhaseCommit
import TxServer.Coordinator.Network
import TxServer.Coordinator.Handles
import TxServer.Coordinator.Votes
import TxServer.Coordinator.Channels
import TxServer.Balance
import TxServer.Pool.Connect
import TxServer.Pool.Mesh
import TxServer.Pool.Links
import TxServer.Pool.Bringup
import TxServer.Coordinator.Output
