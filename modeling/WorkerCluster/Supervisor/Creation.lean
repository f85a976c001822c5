import WorkerCluster.Name
import WorkerCluster.Supervisor.Basic
import WorkerCluster.Text.Blank

/-!
# New workers

`Supervisor.create` checks a plan and, if there is memory and a port for it, makes a worker with the
smallest number and the smallest port that are free.
-/

namespace WorkerCluster

/-- The smallest number from `start` on that is not taken. Among as many numbers as are taken, and
one more, there is one. -/
def firstFree (taken : List Nat) (start : Nat) : Nat :=
  go taken.length start
where
  /-- Try `tries` numbers, then settle for the next one. -/
  go : (tries : Nat) → Nat → Nat
    | 0, n => n
    | tries + 1, n => if taken.contains n then go tries (n + 1) else n

namespace Supervisor

/-- The number of a new instance of a task. -/
def nextNumber (s : Supervisor) (task : String) : UInt32 :=
  let taken := (s.records.filter (·.task = task)).map (·.id.number.toNat)
  (min (firstFree taken 1) (UInt32.size - 1)).toUInt32

/-- The port of a new worker: the preferred one or the next free one. -/
def allocatePort (s : Supervisor) (preferred : UInt16) : Option UInt16 :=
  let port := firstFree (s.owned.values.map (·.record.address.port.toNat)) preferred.toNat
  if port < UInt16.size then some port.toUInt16 else none

/-- The host under which workers are reached: the node's first one, unless that means any. -/
def advertisedHost (s : Supervisor) : String :=
  match s.node.listeners with
  | a :: _ => if a.host = "0.0.0.0" || a.host = "::" then "127.0.0.1" else a.host
  | [] => "127.0.0.1"

/-- Whether a worker may be made from a plan, memory and ports apart. -/
def accepts (s : Supervisor) (plan : WorkerPlan) : Bool :=
  isValidName plan.task && plan.owner.all (· == s.node.id) &&
    !Text.isBlankText plan.program.command && plan.program.memory != 0

/-- Whether there is memory for a plan. -/
def hasMemory (s : Supervisor) (plan : WorkerPlan) : Bool :=
  s.reserved + plan.program.memory.toNat ≤ s.settings.maxMemory.toNat

/-- The directory of a worker. The directory of one that keeps its files is named for it alone. -/
def directoryFor (s : Supervisor) (id : WorkerId) (keepsFiles : Bool) : Path :=
  s.settings.directory ++
    if keepsFiles then ["static", id.name] else [id.name ++ "-" ++ id.uuid.compact]

/-- The record of a new worker. -/
def newRecord (s : Supervisor) (plan : WorkerPlan) (id : WorkerId) (port : UInt16) :
    WorkerRecord where
  created := s.host.now
  id
  address := ⟨s.advertisedHost, port⟩
  connected := false
  lifecycle := .prepared
  process := {}
  plan := { plan with owner := some s.node.id, port := some port }
  properties := plan.properties

/-- Make a worker from a plan. Nothing happens if the plan makes no sense or names another node, or
if memory or ports have run out. -/
def create (s : Supervisor) (plan : WorkerPlan) : Option WorkerRecord × Supervisor :=
  if !s.accepts plan || !s.hasMemory plan then (none, s)
  else
    match s.allocatePort (plan.port.getD s.settings.startPort) with
    | none => (none, s)
    | some port =>
      let (uuid, ids) := s.host.ids.draw
      let id : WorkerId := ⟨uuid, plan.task, s.nextNumber plan.task, s.node.id⟩
      let record := s.newRecord plan id port
      let worker : OwnedWorker := {
        record
        logs := .empty s.settings.logLines.toNat
        directory := s.directoryFor id plan.keepsFiles }
      let s := { s with host := { s.host with ids } }
      (some record, (s.setOwned uuid worker).publish record)

end Supervisor

end WorkerCluster
