import WorkerCluster.Datasets
import WorkerCluster.Permissions
import WorkerCluster.Worker.Task

/-!
# Stores

What a node keeps of the state that the cluster shares, as rows of JSON text.

* `Rows` is a table of texts; `Rows.all?` reads all of it, or nothing if one row cannot be read.
* `Store` holds the tables. Documents of all datasets share one table, under keys in which the
  dataset and the document's own key are joined by a slash.
-/

namespace WorkerCluster

open Json (Codec)

/-- Why a store does not do what it is asked for. -/
inductive StoreError
  /-- A dataset cannot have that name. -/
  | datasetName (dataset : String)
  /-- A document cannot have an empty key. -/
  | emptyKey (dataset : String)
  /-- A row cannot be read. -/
  | unreadable
  /-- The file cannot be opened. -/
  | unopened
  deriving DecidableEq, Inhabited

/-- The wording of a bad key. -/
def StoreError.message : StoreError → String
  | .datasetName d => "invalid key: dataset name '" ++ d ++ "'"
  | .emptyKey d => "invalid key: empty key in '" ++ d ++ "'"
  | .unreadable => "deserialization error"
  | .unopened => "failed to open database"

/-- A table of JSON texts. -/
abbrev Rows := SortedMap String (List UInt8)

namespace Rows

variable {α : Type}

/-- Write a row. -/
def put (rows : Rows) (c : Codec α) (key : String) (a : α) : Rows :=
  rows.insert key (c.encode a).bytes

/-- Read the text of a row. -/
def readRow (c : Codec α) (text : List UInt8) : Except StoreError α :=
  match c.read text with
  | .ok a => .ok a
  | .error _ => .error .unreadable

/-- Read a row. -/
def get? (rows : Rows) (c : Codec α) (key : String) : Except StoreError (Option α) :=
  match rows.find? key with
  | none => .ok none
  | some text => some <$> readRow c text

/-- Read all rows in the order of their keys. -/
def all? (rows : Rows) (c : Codec α) : Except StoreError (List (String × α)) :=
  rows.entries.mapM fun (key, text) => (key, ·) <$> readRow c text

/-- A table with these rows and no others. Of several rows with one key the last counts. -/
def ofValues (c : Codec α) (values : List (String × α)) : Rows :=
  .ofList (values.map fun (key, a) => (key, (c.encode a).bytes))

end Rows

/-- The tables of a node. -/
structure Store where
  tasks : Rows := .empty
  groups : Rows := .empty
  permissions : Rows := .empty
  documents : Rows := .empty
  deriving DecidableEq, Inhabited

namespace Store

/-! ### Tasks -/

/-- Store a task, replacing the one of that name. -/
def putTask (s : Store) (t : TaskSpec) : Store :=
  { s with tasks := s.tasks.put TaskSpec.codec t.name t }

/-- The task of a name. -/
def task? (s : Store) (name : String) : Except StoreError (Option TaskSpec) :=
  s.tasks.get? TaskSpec.codec name

/-- All tasks by name. -/
def allTasks (s : Store) : Except StoreError (List TaskSpec) :=
  List.map Prod.snd <$> s.tasks.all? TaskSpec.codec

/-- Remove a task. The result is whether it was there. -/
def deleteTask (s : Store) (name : String) : Bool × Store :=
  (s.tasks.contains name, { s with tasks := s.tasks.erase name })

/-- Store these tasks and no others. -/
def replaceTasks (s : Store) (tasks : List TaskSpec) : Store :=
  { s with tasks := .ofValues TaskSpec.codec (tasks.map fun t => (t.name, t)) }

/-! ### Groups -/

/-- Store a group, replacing the one of that name. -/
def putGroup (s : Store) (g : GroupSpec) : Store :=
  { s with groups := s.groups.put GroupSpec.codec g.name g }

/-- The group of a name. -/
def group? (s : Store) (name : String) : Except StoreError (Option GroupSpec) :=
  s.groups.get? GroupSpec.codec name

/-- All groups by name. -/
def allGroups (s : Store) : Except StoreError (List GroupSpec) :=
  List.map Prod.snd <$> s.groups.all? GroupSpec.codec

/-- Remove a group. The result is whether it was there. -/
def deleteGroup (s : Store) (name : String) : Bool × Store :=
  (s.groups.contains name, { s with groups := s.groups.erase name })

/-- Store these groups and no others. -/
def replaceGroups (s : Store) (groups : List GroupSpec) : Store :=
  { s with groups := .ofValues GroupSpec.codec (groups.map fun g => (g.name, g)) }

/-! ### Permissions -/

/-- The only key of the table of permissions. -/
def permissionsKey : String := "current"

/-- Store the permissions. -/
def putPermissions (s : Store) (p : Permissions) : Store :=
  { s with permissions := s.permissions.put Permissions.codec permissionsKey p }

/-- The permissions; none if they were never stored. -/
def getPermissions (s : Store) : Except StoreError Permissions :=
  (·.getD {}) <$> s.permissions.get? Permissions.codec permissionsKey

/-! ### Documents -/

/-- The key of a document's row. -/
def documentKey (dataset key : String) : Except StoreError String :=
  if dataset.isEmpty || dataset.toList.contains '/' then .error (.datasetName dataset)
  else if key.isEmpty then .error (.emptyKey dataset)
  else .ok (dataset ++ "/" ++ key)

/-- The dataset and the key that a row's key joins. -/
def splitKey (joined : String) : Option (String × String) :=
  match joined.toList.span (· != '/') with
  | (dataset, _ :: key) => some (String.ofList dataset, String.ofList key)
  | (_, []) => none

/-- Store a document. -/
def putDocument (s : Store) (dataset key : String) (document : Json) : Except StoreError Store :=
  (fun k => { s with documents := s.documents.put .json k document }) <$> documentKey dataset key

/-- A document. -/
def document? (s : Store) (dataset key : String) : Except StoreError (Option Json) := do
  s.documents.get? .json (← documentKey dataset key)

/-- Remove a document. The result is whether it was there. -/
def deleteDocument (s : Store) (dataset key : String) : Except StoreError (Bool × Store) :=
  (fun k => (s.documents.contains k, { s with documents := s.documents.erase k })) <$>
    documentKey dataset key

/-- Put the documents of a list of rows into datasets. -/
def gather (rows : List (String × Json)) : Datasets :=
  rows.foldl (fun d (joined, document) =>
    match splitKey joined with
    | some (dataset, key) => d.insertDocument dataset key document
    | none => d) .empty

/-- All documents. -/
def datasets (s : Store) : Except StoreError Datasets := gather <$> s.documents.all? .json

/-- The rows of documents. -/
def documentRows (d : Datasets) : Except StoreError (List (String × Json)) :=
  (d.entries.flatMap fun (dataset, documents) =>
    documents.entries.map fun (key, document) => (dataset, key, document)).mapM
      fun (dataset, key, document) => (·, document) <$> documentKey dataset key

/-- Store these documents and no others, unless one of them has a bad key. -/
def replaceDatasets (s : Store) (d : Datasets) : Except StoreError Store :=
  (fun rows => { s with documents := .ofValues .json rows }) <$> documentRows d

end Store

end WorkerCluster
