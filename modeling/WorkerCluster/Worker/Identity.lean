import WorkerCluster.Node.Identity
import WorkerCluster.Uuid

/-!
# Identities of workers

A worker is one instance of a task, with a number within the task and an id of its own.
-/

namespace WorkerCluster

open Json (Codec Field Fields)

/-- Ids are written in the hyphenated form. -/
def Uuid.codec : Codec Uuid := Codec.string.refine Uuid.text Uuid.parse?

instance : Json.Coded Uuid := ⟨Uuid.codec⟩

/-- Which worker of which task a worker is, and which node owns it. -/
structure WorkerId where
  /-- The id that no other worker has. -/
  uuid : Uuid
  /-- The task of which it is an instance. -/
  task : String
  /-- Its number among the instances of the task, from 1. -/
  number : UInt32
  /-- The node that owns and runs it. -/
  owner : NodeId
  deriving DecidableEq, Inhabited

namespace WorkerId

/-- The name for people: task and number. -/
def name (w : WorkerId) : String := w.task ++ "-" ++ toString w.number.toNat

/-- Identities are records. -/
def codec : Codec WorkerId :=
  Fields.record
    (.cons (.required "unique_id" Uuid.codec) <|
     .cons (.required "task_name" .string) <|
     .cons (.required "task_service_id" .uint32) <|
     .cons (.required "node_id" .string) <|
     .nil)
    (fun w => (w.uuid, w.task, w.number, w.owner, ()))
    (fun (uuid, task, number, owner, _) => { uuid, task, number, owner })

instance : Json.Coded WorkerId := ⟨WorkerId.codec⟩

end WorkerId

end WorkerCluster
