import WorkerCluster.Message.Remote
import WorkerCluster.Supervisor.Creation
import WorkerCluster.Supervisor.Lifecycle

/-!
# Where operations run

An operation on a worker runs on the node that owns it.

* `Supervisor.route` says where that is, `Supervisor.dispatch` runs the operation or passes it on.
* `Supervisor.serve` runs what another node passes on.
-/

namespace WorkerCluster

/-- Where an operation on a worker runs. -/
inductive Route
  /-- On this node. -/
  | here
  /-- On a connected peer. -/
  | peer (node : NodeId)
  /-- Nowhere, as its node is not connected. -/
  | unreachable (node : NodeId)
  /-- Nowhere, as nobody knows the worker. -/
  | unknown
  deriving DecidableEq, Inhabited

/-- What becomes of an operation. -/
inductive Dispatch
  /-- It ran, or could not run. -/
  | handled (response : Option RemoteResponse)
  /-- A peer is to run it. -/
  | forward (node : NodeId) (request : RemoteRequest)
  deriving Inhabited

namespace Supervisor

/-- Where an operation on a worker runs. -/
def route (s : Supervisor) (isConnected : NodeId → Bool) (id : Uuid) : Route :=
  if s.owns id then .here
  else
    match s.remote.find? id with
    | some w => if isConnected w.owner then .peer w.owner else .unreachable w.owner
    | none => .unknown

/-- Run an operation on a worker of this node. -/
def execute (s : Supervisor) (q : WorkerRequest) : RemoteResponse × Supervisor :=
  let record (r : Option WorkerRecord × Supervisor) : RemoteResponse × Supervisor :=
    (.record r.1, r.2)
  match q.operation with
  | .start => record (s.start q.worker)
  | .stop => record (s.stop q.worker)
  | .kill => record (s.kill q.worker)
  | .restart => record (s.restart q.worker)
  | .delete => record (s.delete q.worker)
  | .run command => record (s.run q.worker command)
  | .addTemplate t => record (s.addTemplate q.worker t)
  | .addInclusion i => record (s.addInclusion q.worker i)
  | .addDeployment d => record (s.addDeployment q.worker d)
  | .logs => (.logs (s.logs? q.worker), s)

/-- Run what another node asks for. -/
def serve (s : Supervisor) : RemoteRequest → RemoteResponse × Supervisor
  | .worker q => s.execute q
  | .create plan =>
    let (r, s) := s.create plan
    (.record r, s)

/-- Run an operation, or pass it on to the peer that owns the worker. -/
def dispatch (s : Supervisor) (isConnected : NodeId → Bool) (q : WorkerRequest) :
    Dispatch × Supervisor :=
  match s.route isConnected q.worker with
  | .here =>
    let (r, s) := s.execute q
    (.handled (some r), s)
  | .peer node => (.forward node (.worker q), s)
  | .unreachable _ | .unknown => (.handled none, s)

/-- Make a worker, or pass the plan on to the peer that it names. -/
def dispatchCreate (s : Supervisor) (isConnected : NodeId → Bool) (plan : WorkerPlan) :
    Dispatch × Supervisor :=
  let here : Dispatch × Supervisor :=
    let (r, s) := s.create plan
    (.handled (some (.record r)), s)
  match plan.owner with
  | none => here
  | some node =>
    if node = s.node.id then here
    else if isConnected node then (.forward node (.create plan), s)
    else (.handled none, s)

end Supervisor

end WorkerCluster
