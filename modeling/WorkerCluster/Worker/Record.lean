import WorkerCluster.Node.Status
import WorkerCluster.Worker.Identity
import WorkerCluster.Worker.Lifecycle
import WorkerCluster.Worker.Plan

/-!
# Records of workers

What nodes tell each other about a worker.
-/

namespace WorkerCluster

open Json (Codec Field Fields)

/-- The state of a worker that everybody may see. -/
structure WorkerRecord where
  /-- When it was created, in milliseconds since 1970. -/
  created : UInt64
  id : WorkerId
  /-- Where the worker listens. -/
  address : Address
  /-- Whether its process has connected back to its node. -/
  connected : Bool
  lifecycle : Lifecycle
  /-- What its process uses. -/
  process : ProcessUsage
  plan : WorkerPlan
  properties : Properties
  deriving Inhabited

namespace WorkerRecord

/-- Records are written with all their fields; only properties may be missing. -/
def codec : Codec WorkerRecord :=
  Fields.record
    (.cons (.required "creation_time_ms" .uint64) <|
     .cons (.required "service_id" WorkerId.codec) <|
     .cons (.required "address" Address.codec) <|
     .cons (.required "connected" .bool) <|
     .cons (.required "lifecycle" Lifecycle.codec) <|
     .cons (.required "process" ProcessUsage.codec) <|
     .cons (.required "configuration" WorkerPlan.codec) <|
     .cons (.withDefault "properties" (.map .json) .empty) <|
     .nil)
    (fun w => (w.created, w.id, w.address, w.connected, w.lifecycle, w.process, w.plan,
      w.properties, ()))
    (fun (created, id, address, connected, lifecycle, process, plan, properties, _) =>
      { created, id, address, connected, lifecycle, process, plan, properties })

instance : Json.Coded WorkerRecord := ⟨WorkerRecord.codec⟩

/-- The id that no other worker has. -/
abbrev uuid (w : WorkerRecord) : Uuid := w.id.uuid

/-- The node that owns the worker. -/
abbrev owner (w : WorkerRecord) : NodeId := w.id.owner

/-- The name for people. -/
abbrev name (w : WorkerRecord) : String := w.id.name

/-- The task of which the worker is an instance. -/
abbrev task (w : WorkerRecord) : String := w.id.task

/-- Whether the worker runs. -/
def isRunning (w : WorkerRecord) : Bool := w.lifecycle = .running

/-- Whether the worker belongs to a group. -/
def inGroup (w : WorkerRecord) (group : String) : Bool := w.plan.groups.contains group

/-- The record of a worker whose process is gone. -/
def down (w : WorkerRecord) (lifecycle : Lifecycle) : WorkerRecord :=
  { w with lifecycle, connected := false, process := {} }

end WorkerRecord

end WorkerCluster
