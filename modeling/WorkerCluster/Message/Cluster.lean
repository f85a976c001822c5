import WorkerCluster.Datasets
import WorkerCluster.Permissions
import WorkerCluster.Worker.Record
import WorkerCluster.Worker.Task

/-!
# Messages between nodes

* `ClusterMessage` holds a whole collection, or the status of the sender.
* `WorkerUpdate` holds the record of one worker of the sender.
-/

namespace WorkerCluster

open Json

/-- What nodes tell each other about the cluster. Every list is complete. -/
inductive ClusterMessage
  /-- The status of the sender. -/
  | status (status : NodeStatus)
  /-- All tasks. -/
  | tasks (tasks : List TaskSpec)
  /-- All groups. -/
  | groups (groups : List GroupSpec)
  /-- All permissions. -/
  | permissions (permissions : Permissions)
  /-- All datasets. -/
  | datasets (datasets : Datasets)
  /-- All workers of the sender. -/
  | workers (workers : List WorkerRecord)
  deriving Inhabited

namespace ClusterMessage

/-- A record of one field. -/
def single {α : Type} (name : String) (c : Codec α) : Fields [α] := .cons (.required name c) .nil

/-- The field of a status message. -/
def statusFields : Fields [NodeStatus] := single "snapshot" NodeStatus.codec

/-- The field of a message of tasks. -/
def taskFields : Fields [List TaskSpec] := single "tasks" (.list TaskSpec.codec)

/-- The field of a message of groups. -/
def groupFields : Fields [List GroupSpec] := single "groups" (.list GroupSpec.codec)

/-- The field of a message of permissions. -/
def permissionFields : Fields [Permissions] := single "permissions" Permissions.codec

/-- The field of a message of datasets. -/
def datasetFields : Fields [Datasets] := single "datasets" Datasets.codec

/-- The field of a message of workers. -/
def workerFields : Fields [List WorkerRecord] := single "services" (.list WorkerRecord.codec)

/-- The field `type` says what a message holds. -/
def codec : Codec ClusterMessage where
  encode
    | .status s => Variant.write "type" "node_snapshot" (statusFields.encode (s, ()))
    | .tasks l => Variant.write "type" "set_tasks" (taskFields.encode (l, ()))
    | .groups l => Variant.write "type" "set_groups" (groupFields.encode (l, ()))
    | .permissions p => Variant.write "type" "set_permissions" (permissionFields.encode (p, ()))
    | .datasets d => Variant.write "type" "set_datasets" (datasetFields.encode (d, ()))
    | .workers l => Variant.write "type" "set_global_services" (workerFields.encode (l, ()))
  decode := Variant.read "type" [
    Variant.ofFields "node_snapshot" statusFields fun (s, _) => .status s,
    Variant.ofFields "set_tasks" taskFields fun (l, _) => .tasks l,
    Variant.ofFields "set_groups" groupFields fun (l, _) => .groups l,
    Variant.ofFields "set_permissions" permissionFields fun (p, _) => .permissions p,
    Variant.ofFields "set_datasets" datasetFields fun (d, _) => .datasets d,
    Variant.ofFields "set_global_services" workerFields fun (l, _) => .workers l]

instance : Json.Coded ClusterMessage := ⟨ClusterMessage.codec⟩

end ClusterMessage

/-- What the owner of a worker says when its record changes. A deleted worker is to be forgotten. -/
structure WorkerUpdate where
  record : WorkerRecord
  deriving Inhabited

/-- Updates are records of one field. -/
def WorkerUpdate.codec : Codec WorkerUpdate :=
  Fields.record
    (.cons (.required "snapshot" WorkerRecord.codec) .nil)
    (fun u => (u.record, ()))
    (fun (record, _) => { record })

instance : Json.Coded WorkerUpdate := ⟨WorkerUpdate.codec⟩

end WorkerCluster
