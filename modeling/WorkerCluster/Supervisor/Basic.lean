import WorkerCluster.Host.Launcher
import WorkerCluster.Worker.LogTail
import WorkerCluster.Worker.Record

/-!
# Supervisors

A supervisor owns the workers of its node and remembers what other nodes say about theirs.

* `Supervisor` holds both tables, the launcher and what is to be told to everybody.
* `Supervisor.reserved` and `Supervisor.used` add up the memory that has been promised.
-/

namespace WorkerCluster

/-- What operations find outside the supervisor: files, fresh ids and the time. -/
structure Host where
  files : FileTree := {}
  ids : IdSupply := {}
  /-- The time in milliseconds since 1970. -/
  now : UInt64 := 0
  deriving Inhabited

/-- How workers are kept. -/
structure Settings where
  /-- The first port to try for a worker. -/
  startPort : UInt16
  /-- Where the directories of workers are. -/
  directory : Path
  /-- How long a worker may take to stop, in milliseconds. -/
  stopTimeout : UInt64
  /-- How many console lines of a worker are kept. -/
  logLines : UInt64
  /-- Memory that may be promised to workers, in MiB. -/
  maxMemory : UInt64
  /-- What workers say to be let in. -/
  secret : String
  deriving DecidableEq, Inhabited

/-- A worker of this node. -/
structure OwnedWorker where
  /-- What everybody may see of it. -/
  record : WorkerRecord
  /-- The number of its process while it runs. -/
  process : Option Nat := none
  /-- The last lines of its console. -/
  logs : LogTail
  /-- Where its process runs. -/
  directory : Path
  /-- Templates for the next start. -/
  templates : List Template := []
  /-- Inclusions for the next start. -/
  inclusions : List Inclusion := []
  /-- Deployments for the next start. -/
  deployments : List Deployment := []
  deriving Inhabited

/-- The workers of a node, and what it knows about those of others. -/
structure Supervisor where
  node : NodeIdentity
  settings : Settings
  /-- The workers of this node. -/
  owned : SortedMap Uuid OwnedWorker := .empty
  /-- What other nodes said last about their workers. -/
  remote : SortedMap Uuid WorkerRecord := .empty
  launcher : Launcher := {}
  host : Host := {}
  /-- The records that everybody is to be told, in order. -/
  outbox : List WorkerRecord := []
  deriving Inhabited

/-- Which workers are asked for. All conditions that are given must hold. -/
structure WorkerFilter where
  task : Option String := none
  owner : Option NodeId := none
  name : Option String := none
  group : Option String := none
  lifecycle : Option Lifecycle := none
  running : Option Bool := none
  deriving DecidableEq, Inhabited

/-- Whether a worker is asked for. -/
def WorkerFilter.accepts (f : WorkerFilter) (w : WorkerRecord) : Bool :=
  f.task.all (· == w.task) && f.owner.all (· == w.owner) && f.name.all (· == w.name) &&
    f.group.all w.inGroup && f.lifecycle.all (· == w.lifecycle) && f.running.all (· == w.isRunning)

namespace OwnedWorker

/-- Take what has been queued into the plan. -/
def applyQueued (w : OwnedWorker) : OwnedWorker :=
  let plan := w.record.plan
  { w with
    record := { w.record with
      plan := { plan with
        templates := plan.templates ++ w.templates
        inclusions := plan.inclusions ++ w.inclusions
        deployments := plan.deployments ++ w.deployments } }
    templates := []
    inclusions := []
    deployments := [] }

/-- The memory that has been promised to the worker. -/
def memory (w : OwnedWorker) : UInt64 := w.record.plan.program.memory

end OwnedWorker

namespace Supervisor

/-! ### Views -/

/-- All workers, those of this node first. -/
def records (s : Supervisor) : List WorkerRecord :=
  s.owned.values.map (·.record) ++ s.remote.values

/-- The workers of this node. -/
def ownedRecords (s : Supervisor) : List WorkerRecord := s.owned.values.map (·.record)

/-- A worker of any node. -/
def record? (s : Supervisor) (id : Uuid) : Option WorkerRecord :=
  match s.owned.find? id with
  | some w => some w.record
  | none => s.remote.find? id

/-- Whether a worker is one of this node. -/
def owns (s : Supervisor) (id : Uuid) : Bool := s.owned.contains id

/-- The workers that are asked for. -/
def list (s : Supervisor) (f : WorkerFilter) : List WorkerRecord := s.records.filter f.accepts

/-- How many instances of a task there are, in any state. -/
def count (s : Supervisor) (task : String) : Nat := (s.records.filter (·.task = task)).length

/-- The last console lines of a worker of this node. -/
def logs? (s : Supervisor) (id : Uuid) : Option (List String) :=
  (s.owned.find? id).map (·.logs.lines)

/-- A sum of amounts of memory, up to the largest amount. -/
def total (amounts : List UInt64) : Nat := min (amounts.foldr (·.toNat + ·) 0) (UInt64.size - 1)

/-- The memory that has been promised to all workers of this node. -/
def reserved (s : Supervisor) : Nat := total (s.owned.values.map (·.memory))

/-- The memory that has been promised to running workers of this node. -/
def used (s : Supervisor) : Nat :=
  total ((s.owned.values.filter (·.record.isRunning)).map (·.memory))

/-! ### Changes -/

/-- Have a record told to everybody. -/
def publish (s : Supervisor) (w : WorkerRecord) : Supervisor := { s with outbox := s.outbox ++ [w] }

/-- Replace a worker of this node. -/
def setOwned (s : Supervisor) (id : Uuid) (w : OwnedWorker) : Supervisor :=
  { s with owned := s.owned.insert id w }

end Supervisor

end WorkerCluster
