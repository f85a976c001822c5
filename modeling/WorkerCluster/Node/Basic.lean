import WorkerCluster.Config
import WorkerCluster.Packet.Basic
import WorkerCluster.Replica
import WorkerCluster.Roster
import WorkerCluster.Supervisor.Routing

/-!
# Nodes

A node joins what it knows about its peers, its workers, and what it holds of the state that the
cluster shares.

* `Letter` is what a node has to send.
* `Node.onSupervisor` and `Node.onReplica` let one part act and collect what it has to send.
* `Node.takeStatus` and `Node.publishStatus` are what the node says about itself.
-/

namespace WorkerCluster

/-- Something that a node has to send. -/
inductive Letter
  /-- A message about the cluster. -/
  | cluster (target : Target) (message : ClusterMessage)
  /-- The record of a worker of the node, for everybody. -/
  | worker (record : WorkerRecord)
  deriving Inhabited

/-- The letter as it travels. -/
def Letter.parcel : Letter → Parcel
  | .cluster target m => ⟨target, .json Channel.cluster ClusterMessage.codec m⟩
  | .worker w => ⟨.all, .json Channel.workers WorkerUpdate.codec ⟨w⟩⟩

/-- Measures what the process of the node uses. The last of its samples is taken over and over. -/
structure Probe where
  /-- The samples that come before the last one, and that one, unless it has been taken. -/
  samples : List ProcessUsage := []
  /-- The sample when none is left. -/
  last : ProcessUsage := {}
  deriving DecidableEq, Inhabited

/-- Take a sample. -/
def Probe.take (p : Probe) : ProcessUsage × Probe :=
  match p.samples with
  | [] => (p.last, p)
  | u :: rest => (u, ⟨rest, u⟩)

/-- How a configuration wants workers to be kept. -/
def Config.settings (c : Config) : Settings where
  startPort := c.workers.startPort
  directory := Path.parse c.workers.directory
  stopTimeout := c.workers.stopTimeout
  logLines := c.workers.logLines
  maxMemory := c.maxMemory
  secret := c.cluster.secret

/-- A node. -/
structure Node where
  roster : Roster
  supervisor : Supervisor
  replica : Replica
  probe : Probe := {}
  /-- What the node has to send, in order. -/
  outbox : List Letter := []
  deriving Inhabited

namespace Node

/-- The version of the program. -/
def version : String := "0.1.0"

/-- Who the node is. -/
def identity (n : Node) : NodeIdentity := n.roster.home

/-! ### Parts -/

/-- Have a letter sent. -/
def post (n : Node) (l : Letter) : Node := { n with outbox := n.outbox ++ [l] }

/-- Have letters sent. -/
def postAll (n : Node) (l : List Letter) : Node := { n with outbox := n.outbox ++ l }

/-- Let the supervisor act. -/
def onSupervisor {α : Type} (n : Node) (act : Supervisor → α × Supervisor) : α × Node :=
  let (a, s) := act n.supervisor
  (a, { n with supervisor := { s with outbox := [] } }.postAll (s.outbox.map .worker))

/-- Let the replica act. -/
def onReplica {α : Type} (n : Node) (act : Replica → α × Replica) : α × Node :=
  let (a, r) := act n.replica
  (a, { n with replica := { r with outbox := [] } }.postAll (r.outbox.map (.cluster .all)))

/-! ### Status -/

/-- The status of the node at this moment. -/
def takeStatus (n : Node) : NodeStatus × Node :=
  let (process, probe) := n.probe.take
  let s := n.supervisor
  let status : NodeStatus := {
    timestamp := s.host.now
    node := n.identity
    version
    workerCount := s.owned.size.toUInt32
    usedMemory := s.used.toUInt64
    reservedMemory := s.reserved.toUInt64
    maxMemory := s.settings.maxMemory
    process }
  (status, { n with probe })

/-- Keep the status of this moment and tell the peers about it. -/
def publishStatus (n : Node) : NodeStatus × Node :=
  let (status, n) := n.takeStatus
  (status, { n with roster := n.roster.roll status }.post (.cluster .peers (.status status)))

/-- A node before anything has happened. It knows its own status, and holds what has been stored. -/
def new (c : Config) (store : Store) (probe : Probe) (host : Host) : Except StoreError Node := do
  let replica ← Replica.open store
  let node : Node := {
    roster := .new c.identity c.cluster.nodes
    supervisor := { node := c.identity, settings := c.settings, host }
    replica
    probe }
  let (status, node) := node.takeStatus
  return { node with roster := node.roster.roll status }

end Node

end WorkerCluster
