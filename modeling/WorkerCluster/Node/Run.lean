import WorkerCluster.Node.Loop
import WorkerCluster.Supervisor.Step

/-!
# Runs of nodes

* `Node.Move` is anything that a node does or that happens around it, `Node.make` lets it happen.
* `Node.Reachable` holds for the nodes to which moves lead from the beginning.
-/

namespace WorkerCluster

namespace Node

/-- Something that a node does, or that happens around it. -/
inductive Move
  /-- An errand is done. -/
  | errand (e : Errand)
  /-- The supervisor performs an operation. -/
  | supervise (step : Supervisor.Step)
  /-- The script lets something happen to processes. -/
  | happen (event : Supervisor.Event)
  /-- Workers that are wanted are started. -/
  | autoscale
  /-- The peers are told the status. -/
  | publishStatus
  /-- The loop looks after the node. -/
  | upkeep (second : Bool)
  /-- All workers are deleted. -/
  | shutdown
  deriving Inhabited

/-- Let it happen. -/
def make (n : Node) : Move → Node
  | .errand e => (n.perform e).2
  | .supervise step => (n.onSupervisor (·.perform step)).2
  | .happen event => (n.onSupervisor (·.happen event)).2
  | .autoscale => n.autoscale.2
  | .publishStatus => n.publishStatus.2
  | .upkeep second => n.upkeep second
  | .shutdown => n.shutdown

/-- Let moves happen one after the other. -/
def run (n : Node) (moves : List Move) : Node := moves.foldl make n

/-- The nodes to which moves lead from the beginning. -/
inductive Reachable (c : Config) : Node → Prop
  /-- In the beginning the node holds what has been stored. -/
  | start {n : Node} (store : Store) (probe : Probe) (host : Host)
    (new : Node.new c store probe host = .ok n) : Reachable c n
  /-- Something happens. -/
  | make {n : Node} (before : Reachable c n) (move : Move) : Reachable c (n.make move)
  /-- What the node has to send is taken. -/
  | collect {n : Node} (before : Reachable c n) : Reachable c { n with outbox := [] }

end Node

end WorkerCluster
