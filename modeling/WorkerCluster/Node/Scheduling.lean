import WorkerCluster.Node.Basic

/-!
# Where nodes start workers

* `Node.autoscale` starts instances of tasks of which there are too few.
* `Node.dispatchTask` starts an instance of a task on the node that suits it best.
-/

namespace WorkerCluster

namespace Node

/-! ### Unasked -/

/-- Whether the node is to start an instance of a task: there are too few of them, and no peer suits
it better, as far as the node knows. -/
def wants (n : Node) (here : NodeStatus) (t : TaskSpec) : Bool :=
  !t.maintenance && t.admits n.identity.id && n.supervisor.count t.name < t.minCount.toNat &&
    Placement.competes t here n.roster.candidates

/-- Start an instance of a task if one is wanted. The result is whether one was started; if that
fails, it stays prepared. -/
def scale (n : Node) (here : NodeStatus) (groups : List GroupSpec) (t : TaskSpec) : Bool × Node :=
  if n.wants here t then
    match n.onSupervisor (·.create (t.plan groups)) with
    | (none, n) => (false, n)
    | (some w, n) =>
      let (started, n) := n.onSupervisor (·.start w.uuid)
      (started.isSome, n)
  else (false, n)

/-- Start one instance of every task of which too few are known. Peers are compared with the status
that the node said last. The result is how many were started. -/
def autoscale (n : Node) : Nat × Node :=
  match n.roster.current with
  | none => (0, n)
  | some here =>
    let groups := n.replica.groups.values
    n.replica.tasks.values.foldl (fun (count, n) t =>
      let (started, n) := n.scale here groups t
      (if started then count + 1 else count, n)) (0, n)

/-! ### On request -/

/-- Run an operation on a worker, or pass it on to the peer that owns it. -/
def dispatch (n : Node) (q : WorkerRequest) : Dispatch × Node :=
  n.onSupervisor (·.dispatch n.roster.isConnected q)

/-- Make a worker, or pass the plan on to the peer that it names. -/
def dispatchCreate (n : Node) (plan : WorkerPlan) : Dispatch × Node :=
  n.onSupervisor (·.dispatchCreate n.roster.isConnected plan)

/-- The node for a new instance of a task: the best one if this node may own it, otherwise the first
peer that may. -/
def destination (n : Node) (here : NodeStatus) (t : TaskSpec) : Option NodeId :=
  let candidates := n.roster.candidates
  if t.admits n.identity.id then some (Placement.select t here candidates).node.id
  else (Placement.eligibleNodes t n.identity.id candidates).head?

/-- Make an instance of a task on the node that suits it best. -/
def dispatchTask (n : Node) (task : String) : Dispatch × Node :=
  match n.replica.tasks.find? task, n.roster.current with
  | some t, some here =>
    match n.destination here t with
    | some target =>
      n.dispatchCreate { t.plan n.replica.groups.values with owner := some target }
    | none => (.handled none, n)
  | _, _ => (.handled none, n)

end Node

end WorkerCluster
