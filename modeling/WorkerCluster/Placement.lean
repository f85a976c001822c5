import WorkerCluster.Node.Status
import WorkerCluster.Worker.Task

/-!
# Placement

On which node a new worker goes. One node beats another if it has more memory left and less load.

* `select` picks a node for a new instance of a task.
* `competes` says whether a node may place an instance on itself, unasked.
-/

namespace WorkerCluster

namespace Placement

/-- A peer that may own a new worker. -/
structure Candidate where
  node : NodeId
  connected : Bool
  /-- What it last said about itself. -/
  status : Option NodeStatus
  deriving DecidableEq, Inhabited

/-- Whether one node has more memory left and less load than another. -/
def beats (a b : NodeStatus) : Bool := b.headroom < a.headroom && a.load.lt b.load

/-- The peers that may own an instance of a task: connected ones that the task admits. -/
def eligiblePeers (t : TaskSpec) (home : NodeId) (candidates : List Candidate) : List Candidate :=
  candidates.filter fun c => c.connected && c.node != home && t.admits c.node

/-- The nodes that may own an instance of a task: this one, if the task admits it, then peers. -/
def eligibleNodes (t : TaskSpec) (home : NodeId) (candidates : List Candidate) : List NodeId :=
  (if t.admits home then [home] else []) ++ (eligiblePeers t home candidates).map (·.node)

/-- The better one of the best node so far and a further one. -/
def better (best : NodeStatus) (c : Candidate) : NodeStatus :=
  match c.status with
  | some s => if beats s best then s else best
  | none => best

/-- The node for a new instance of a task: from this node on through the eligible peers in order,
each time going on with the better one. Peers that have not said anything yet are passed over. -/
def select (t : TaskSpec) (here : NodeStatus) (candidates : List Candidate) : NodeStatus :=
  (eligiblePeers t here.node.id candidates).foldl better here

/-- Whether no eligible peer beats this node. -/
def competes (t : TaskSpec) (here : NodeStatus) (candidates : List Candidate) : Bool :=
  (eligiblePeers t here.node.id candidates).all fun c =>
    match c.status with
    | some s => !beats s here
    | none => true

end Placement

end WorkerCluster
