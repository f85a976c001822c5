import WorkerCluster.Link.Event
import WorkerCluster.Node.Basic

/-!
# What nodes are told

How a node follows the events of its links and the messages of its peers.

* `Node.peerConnected` tells a new peer everything.
* `Node.hear` follows a message about the cluster, `Node.follow` one about a worker. A peer speaks
  only for itself and its own workers.
-/

namespace WorkerCluster

namespace Node

/-- All that a new peer is told: the status of the node, the state that the cluster shares, and the
workers of the node. -/
def introduction (n : Node) : List ClusterMessage :=
  (n.roster.current.map .status).toList ++ n.replica.fullState ++
    [.workers n.supervisor.ownedRecords]

/-- A peer has been connected. A configured one is told everything. -/
def peerConnected (n : Node) (peer : NodeId) : Node :=
  let (known, roster) := n.roster.connect peer
  let n := { n with roster }
  if known then n.postAll (n.introduction.map (.cluster (.node peer))) else n

/-- A peer is gone. Its workers are forgotten. -/
def peerDisconnected (n : Node) (peer : NodeId) : Node :=
  let (known, roster) := n.roster.disconnect peer
  let n := { n with roster }
  if known then (n.onSupervisor (·.forget peer)).2 else n

/-- The process of a worker has connected back, or its connection is gone. -/
def workerConnected (n : Node) (worker : Uuid) (connected : Bool) : Node :=
  (n.onSupervisor (·.setConnected worker connected)).2

/-- A link has come up or is gone. -/
def notice (n : Node) : LinkEvent → Node
  | .peerConnected peer => n.peerConnected peer
  | .peerDisconnected peer => n.peerDisconnected peer
  | .workerConnected w => n.workerConnected w.uuid true
  | .workerDisconnected w => n.workerConnected w.uuid false

/-- A peer has said something about the cluster. -/
def hear (n : Node) (peer : NodeId) : ClusterMessage → Node
  | .status s => if s.node.id = peer then { n with roster := (n.roster.hear s).2 } else n
  | .workers l => (n.onSupervisor (·.replace peer l)).2
  | m => (n.onReplica (·.apply m)).2

/-- A peer has said something about a worker. -/
def follow (n : Node) (peer : NodeId) (u : WorkerUpdate) : Node :=
  if u.record.owner = peer then (n.onSupervisor (·.hear u.record)).2 else n

/-- Delete all workers before the node goes away. -/
def shutdown (n : Node) : Node := (n.onSupervisor (·.deleteAll)).2

end Node

end WorkerCluster
