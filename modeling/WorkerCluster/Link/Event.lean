import WorkerCluster.Node.Identity
import WorkerCluster.Worker.Identity

/-!
# Ends of links

* `Origin` is who is at the other end of a link.
* `LinkEvent` is what a node is told about its links.
-/

namespace WorkerCluster

/-- Who is at the other end of a link. -/
inductive Origin
  | peer (node : NodeId)
  | worker (id : Uuid)
  deriving DecidableEq, Inhabited

/-- The wording. -/
def Origin.text : Origin → String
  | .peer node => "node " ++ node
  | .worker id => "service " ++ id.text

/-- A link has come up or is gone. -/
inductive LinkEvent
  | peerConnected (node : NodeId)
  | peerDisconnected (node : NodeId)
  | workerConnected (worker : WorkerId)
  | workerDisconnected (worker : WorkerId)
  deriving DecidableEq, Inhabited

/-- Whose link it is. -/
def LinkEvent.origin : LinkEvent → Origin
  | .peerConnected node | .peerDisconnected node => .peer node
  | .workerConnected w | .workerDisconnected w => .worker w.uuid

/-- Whether the link has come up. -/
def LinkEvent.isUp : LinkEvent → Bool
  | .peerConnected _ | .workerConnected _ => true
  | .peerDisconnected _ | .workerDisconnected _ => false

end WorkerCluster
