import WorkerCluster.Node.Scheduling
import WorkerCluster.Packet.Error

/-!
# Clients

What clients ask a node for. Operations on workers of other nodes go there; everything else is
answered by the node itself.

* `ClientRequest` is what is asked for, `ClientAnswer` what is answered.
* `Node.handle` does what is asked for, up to what a peer has to do.
* `RemoteRequest.packet` and `RemoteResponse.ofReply` ask a peer.
-/

namespace WorkerCluster

/-- What a client asks for. -/
inductive ClientRequest
  /-- Make a worker. -/
  | create (plan : WorkerPlan)
  /-- Make an instance of a task on the node that suits it best. -/
  | createForTask (task : String)
  /-- Run an operation on a worker. -/
  | operate (request : WorkerRequest)
  /-- The last console lines of a worker. -/
  | logs (worker : Uuid)
  | worker (id : Uuid)
  | workers (filter : WorkerFilter)
  | statuses
  | status (node : NodeId)
  | ownStatus
  | tasks
  | addTask (task : TaskSpec)
  | removeTask (name : String)
  | groups
  | addGroup (group : GroupSpec)
  | removeGroup (name : String)
  | setPermissions (permissions : Permissions)
  | putDocument (dataset key : String) (document : Json)
  | removeDocument (dataset key : String)
  deriving Inhabited

/-- What a client is answered. -/
inductive ClientAnswer
  | record (record : Option WorkerRecord)
  | records (records : List WorkerRecord)
  | lines (lines : Option (List String))
  | status (status : Option NodeStatus)
  | statuses (statuses : List NodeStatus)
  | tasks (tasks : List TaskSpec)
  | groups (groups : List GroupSpec)
  /-- Whether a change was made. -/
  | changed (b : Bool)
  deriving Inhabited

/-- How far the node itself gets. -/
inductive ClientOutcome
  | answered (answer : ClientAnswer)
  /-- An operation that a peer may have to run. -/
  | dispatched (dispatch : Dispatch)
  deriving Inhabited

namespace ClientRequest

/-- What leads a worker to a state. Nothing leads back to being prepared. -/
def reach? (worker : Uuid) (target : Lifecycle) : Option ClientRequest :=
  (WorkerOperation.reaching? target).map fun operation => .operate { worker, operation }

/-- What is answered to an operation on workers. -/
def answerTo (q : ClientRequest) (r : Option RemoteResponse) : ClientAnswer :=
  match q with
  | .logs _ => .lines (r.bind (·.lines?))
  | _ => .record (r.bind (·.record?))

/-- What is answered if the node does not work any more. -/
def answerInVain : ClientRequest → ClientAnswer
  | .logs _ => .lines none
  | .create _ | .createForTask _ | .operate _ | .worker _ => .record none
  | .workers _ => .records []
  | .statuses => .statuses []
  | .status _ | .ownStatus => .status none
  | .tasks => .tasks []
  | .groups => .groups []
  | .addTask _ | .removeTask _ | .addGroup _ | .removeGroup _ | .setPermissions _
  | .putDocument .. | .removeDocument .. => .changed false

end ClientRequest

/-- Whether a change was made. One that fails was not. -/
def changed : Except StoreError Bool → Bool
  | .ok b => b
  | .error _ => false

namespace Node

/-- Do what a client asks for, up to what a peer has to do. -/
def handle (n : Node) (q : ClientRequest) : ClientOutcome × Node :=
  let answer (a : ClientAnswer) : ClientOutcome × Node := (.answered a, n)
  let change (act : Replica → Bool × Replica) : ClientOutcome × Node :=
    (n.onReplica act).map (fun b => .answered (.changed b)) id
  match q with
  | .create plan => (n.dispatchCreate plan).map .dispatched id
  | .createForTask task => (n.dispatchTask task).map .dispatched id
  | .operate request => (n.dispatch request).map .dispatched id
  | .logs worker => (n.dispatch ⟨worker, .logs⟩).map .dispatched id
  | .worker id => answer (.record (n.supervisor.record? id))
  | .workers filter => answer (.records (n.supervisor.list filter))
  | .statuses => answer (.statuses n.roster.statuses)
  | .status node => answer (.status (n.roster.status? node))
  | .ownStatus => answer (.status n.roster.current)
  | .tasks => answer (.tasks n.replica.tasks.values)
  | .addTask t => change (·.addTask t)
  | .removeTask name => change (·.removeTask name)
  | .groups => answer (.groups n.replica.groups.values)
  | .addGroup g => change (·.addGroup g)
  | .removeGroup name => change (·.removeGroup name)
  | .setPermissions p => change fun r => (true, r.setPermissions p)
  | .putDocument dataset key document => change fun r =>
    (r.putDocument dataset key document).map (fun e => changed (e.map fun _ => true)) id
  | .removeDocument dataset key => change fun r => (r.removeDocument dataset key).map changed id

end Node

/-! ### Asking peers -/

/-- The packet by which a peer is asked. -/
def RemoteRequest.packet (q : RemoteRequest) (id : Uuid) : Packet :=
  (Packet.json Channel.remote RemoteRequest.codec q).withId id

/-- What a peer's reply means. A refusal, a reply that cannot be read and none at all mean that the
operation was not run. -/
def RemoteResponse.ofReply : Except TransportError Packet → Option RemoteResponse
  | .error _ => none
  | .ok p =>
    match p.decode RemoteResponse.codec with
    | .ok (.refused _) => none
    | .ok r => some r
    | .error _ => none

/-- The response to an operation, once the peer that has to run it has been asked. -/
def Dispatch.resolve (ask : NodeId → RemoteRequest → Except TransportError Packet) :
    Dispatch → Option RemoteResponse
  | .handled r => r
  | .forward node q => RemoteResponse.ofReply (ask node q)

end WorkerCluster
