import WorkerCluster.Node.Client
import WorkerCluster.Node.Inbound
import WorkerCluster.Work

/-!
# The loop of a node

Everything that happens to a node waits in the queue of its loop.

* `Errand` is what waits there, `Errand.ofPacket` what a packet asks for.
* `Node.perform` does it.
* `Node.upkeep` is what the loop does from time to time.
-/

namespace WorkerCluster

/-- Something that a node has to do. -/
inductive Errand
  /-- Follow an event of the links. -/
  | notice (event : LinkEvent)
  /-- Follow what a peer has said about the cluster. -/
  | hear (peer : NodeId) (message : ClusterMessage)
  /-- Follow what a peer has said about a worker. -/
  | follow (peer : NodeId) (update : WorkerUpdate)
  /-- Do what another node asks for, and answer the packet in which it asks. -/
  | serve (origin : Origin) (packet : Packet) (request : RemoteRequest)
  /-- Do what a client asks for. -/
  | handle (request : ClientRequest)
  deriving Inhabited

/-- What comes of it. -/
inductive ErrandResult
  | done
  /-- An answer to another node. -/
  | reply (origin : Origin) (packet : Packet)
  /-- How far the node gets with what a client asks for. -/
  | handled (outcome : ClientOutcome)
  deriving Inhabited

namespace Errand

/-- What a packet on a link asks for. Only peers speak about the cluster and about workers; a
request without an id cannot be answered; what cannot be read is passed over. -/
def ofPacket (origin : Origin) (p : Packet) : Option Errand :=
  if p.channel = Channel.cluster then
    match origin, p.decode ClusterMessage.codec with
    | .peer node, .ok m => some (.hear node m)
    | _, _ => none
  else if p.channel = Channel.workers then
    match origin, p.decode WorkerUpdate.codec with
    | .peer node, .ok u => some (.follow node u)
    | _, _ => none
  else if p.channel = Channel.remote then
    match p.id, p.decode RemoteRequest.codec with
    | some _, .ok q => some (.serve origin p q)
    | _, _ => none
  else none

end Errand

namespace Node

/-- Do an errand. -/
def perform (n : Node) : Errand → ErrandResult × Node
  | .notice e => (.done, n.notice e)
  | .hear peer m => (.done, n.hear peer m)
  | .follow peer u => (.done, n.follow peer u)
  | .serve origin p q =>
    let (r, n) := n.onSupervisor (·.serve q)
    (.reply origin (p.reply RemoteResponse.codec r), n)
  | .handle q => (n.handle q).map .handled id

/-- What another node is answered when the loop has stopped. -/
def stopped : RemoteResponse := .refused "node is shutting down"

/-- Look after the node: workers that are wanted, once in a second; processes that have exited; the
status for the peers, once in a second; and console lines. -/
def upkeep (second : Bool) (n : Node) : Node :=
  let n := if second then n.autoscale.2 else n
  let n := (n.onSupervisor (·.sweep)).2
  let n := if second then n.publishStatus.2 else n
  (n.onSupervisor (·.flushAll)).2

end Node

/-- How often the loop of a node ticks in a second. -/
def Config.ticks (c : Config) : Nat := max c.ticksPerSecond.toNat 1

end WorkerCluster
