import WorkerCluster.Message.Cluster
import WorkerCluster.Name
import WorkerCluster.Store

/-!
# Replicas

Every node holds the tasks, groups, permissions and datasets of the whole cluster. A change is
stored, then made, then the complete collection is sent to everybody; a collection that arrives
replaces the one that is held.

* `Replica.open` loads what a store holds.
* `Replica.addTask`, … make changes, `Replica.apply` follows those of others.
* `Replica.fullState` is what a peer is told when it connects.
-/

namespace WorkerCluster

/-- What a node holds of the state that the cluster shares. -/
structure Replica where
  /-- What is kept. -/
  store : Store
  tasks : SortedMap String TaskSpec
  groups : SortedMap String GroupSpec
  permissions : Permissions
  datasets : Datasets
  /-- What is to be sent to everybody, in order. -/
  outbox : List ClusterMessage := []
  deriving Inhabited

namespace Replica

/-- Tasks by name, the last of a name counts. -/
def byName (tasks : List TaskSpec) : SortedMap String TaskSpec :=
  .ofList (tasks.map fun t => (t.name, t))

/-- Groups by name, the last of a name counts. -/
def groupsByName (groups : List GroupSpec) : SortedMap String GroupSpec :=
  .ofList (groups.map fun g => (g.name, g))

/-- Load what a store holds. -/
def «open» (store : Store) : Except StoreError Replica := do
  let tasks ← store.allTasks
  let groups ← store.allGroups
  let permissions ← store.getPermissions
  let datasets ← store.datasets
  return { store, tasks := byName tasks, groups := groupsByName groups, permissions, datasets }

/-- Have a message sent to everybody. -/
def publish (r : Replica) (m : ClusterMessage) : Replica := { r with outbox := r.outbox ++ [m] }

/-- A document. -/
def document? (r : Replica) (dataset key : String) : Option Json :=
  r.datasets.document? dataset key

/-- The message of all tasks. -/
def taskMessage (r : Replica) : ClusterMessage := .tasks r.tasks.values

/-- The message of all groups. -/
def groupMessage (r : Replica) : ClusterMessage := .groups r.groups.values

/-! ### Changes -/

/-- Add a task or replace the one of that name. The result is false if the name is none. -/
def addTask (r : Replica) (t : TaskSpec) : Bool × Replica :=
  if isValidName t.name then
    let r := { r with store := r.store.putTask t, tasks := r.tasks.insert t.name t }
    (true, r.publish r.taskMessage)
  else (false, r)

/-- Remove a task. The result is false if there is none of that name. -/
def removeTask (r : Replica) (name : String) : Bool × Replica :=
  if r.tasks.contains name then
    let r := { r with store := (r.store.deleteTask name).2, tasks := r.tasks.erase name }
    (true, r.publish r.taskMessage)
  else (false, r)

/-- Add a group or replace the one of that name. The result is false if the name is none. -/
def addGroup (r : Replica) (g : GroupSpec) : Bool × Replica :=
  if isValidName g.name then
    let r := { r with store := r.store.putGroup g, groups := r.groups.insert g.name g }
    (true, r.publish r.groupMessage)
  else (false, r)

/-- Remove a group. The result is false if there is none of that name. -/
def removeGroup (r : Replica) (name : String) : Bool × Replica :=
  if r.groups.contains name then
    let r := { r with store := (r.store.deleteGroup name).2, groups := r.groups.erase name }
    (true, r.publish r.groupMessage)
  else (false, r)

/-- Replace the permissions. -/
def setPermissions (r : Replica) (p : Permissions) : Replica :=
  { r with store := r.store.putPermissions p, permissions := p }.publish (.permissions p)

/-- Store a document. -/
def putDocument (r : Replica) (dataset key : String) (document : Json) :
    Except StoreError Unit × Replica :=
  match r.store.putDocument dataset key document with
  | .error e => (.error e, r)
  | .ok store =>
    let datasets := r.datasets.insertDocument dataset key document
    (.ok (), { r with store, datasets }.publish (.datasets datasets))

/-- Remove a document. The result is false if there is none. -/
def removeDocument (r : Replica) (dataset key : String) : Except StoreError Bool × Replica :=
  if (r.document? dataset key).isNone then (.ok false, r)
  else
    match r.store.deleteDocument dataset key with
    | .error e => (.error e, r)
    | .ok (_, store) =>
      let datasets := r.datasets.eraseDocument dataset key
      (.ok true, { r with store, datasets }.publish (.datasets datasets))

/-! ### Replication -/

/-- Replace a collection by one that has arrived. The result is false for messages that bring none.
Nothing is sent on. -/
def apply (r : Replica) : ClusterMessage → Except StoreError Bool × Replica
  | .tasks l => (.ok true, { r with store := r.store.replaceTasks l, tasks := byName l })
  | .groups l => (.ok true, { r with store := r.store.replaceGroups l, groups := groupsByName l })
  | .permissions p => (.ok true, { r with store := r.store.putPermissions p, permissions := p })
  | .datasets d =>
    match r.store.replaceDatasets d with
    | .error e => (.error e, r)
    | .ok store => (.ok true, { r with store, datasets := d })
  | .status _ | .workers _ => (.ok false, r)

/-- All collections, as a peer is told them when it connects. -/
def fullState (r : Replica) : List ClusterMessage :=
  [r.taskMessage, r.groupMessage, .permissions r.permissions, .datasets r.datasets]

end Replica

end WorkerCluster
