import WorkerCluster.Node.Identity

/-!
# Plans of workers

What a worker is to run and with which files.

* `Template`, `Inclusion` and `Deployment` say where files come from and where they go to.
* `Program` is the command of a worker; `WorkerPlan` is all of it.
-/

namespace WorkerCluster

open Json (Codec Field Fields)

/-- Free values by name. -/
abbrev Properties := SortedMap String Json

/-- Files that are copied into the directory of a worker before it starts. -/
structure Template where
  /-- The group of templates. -/
  family : String
  name : String
  /-- Where the template is kept, such as `local`. -/
  storage : String
  deriving DecidableEq, Inhabited

namespace Template

/-- Storage, family and name. -/
def text (t : Template) : String := t.storage ++ ":" ++ t.family ++ "/" ++ t.name

/-- Templates are records. -/
def codec : Codec Template :=
  Fields.record
    (.cons (.required "prefix" .string) <|
     .cons (.required "name" .string) <|
     .cons (.required "storage" .string) <|
     .nil)
    (fun t => (t.family, t.name, t.storage, ()))
    (fun (family, name, storage, _) => { family, name, storage })

instance : Json.Coded Template := ⟨Template.codec⟩

end Template

/-- A file that is fetched into the directory of a worker before it starts. -/
structure Inclusion where
  url : String
  destination : String
  deriving DecidableEq, Inhabited

/-- Inclusions are records. -/
def Inclusion.codec : Codec Inclusion :=
  Fields.record
    (.cons (.required "url" .string) <|
     .cons (.required "destination" .string) <|
     .nil)
    (fun i => (i.url, i.destination, ()))
    (fun (url, destination, _) => { url, destination })

instance : Json.Coded Inclusion := ⟨Inclusion.codec⟩

/-- A template to which the files of a worker are written back. -/
structure Deployment where
  template : Template
  /-- Files that are not written back. -/
  excludes : List String
  deriving DecidableEq, Inhabited

/-- Deployments are records. Without excludes, all files are written back. -/
def Deployment.codec : Codec Deployment :=
  Fields.record
    (.cons (.required "template" Template.codec) <|
     .cons (.withDefault "excludes" (.list .string) []) <|
     .nil)
    (fun d => (d.template, d.excludes, ()))
    (fun (template, excludes, _) => { template, excludes })

instance : Json.Coded Deployment := ⟨Deployment.codec⟩

/-- How a worker's process is launched. -/
structure Program where
  command : String
  args : List String
  /-- Memory to promise to the worker, in MiB. -/
  memory : UInt64
  environment : SortedMap String String
  deriving DecidableEq, Inhabited

/-- Programs are records. -/
def Program.codec : Codec Program :=
  Fields.record
    (.cons (.required "command" .string) <|
     .cons (.withDefault "args" (.list .string) []) <|
     .cons (.required "max_memory_mb" .uint64) <|
     .cons (.withDefault "environment" (.map .string) .empty) <|
     .nil)
    (fun p => (p.command, p.args, p.memory, p.environment, ()))
    (fun (command, args, memory, environment, _) => { command, args, memory, environment })

instance : Json.Coded Program := ⟨Program.codec⟩

/-- What is asked for when a worker is created, and what it holds from then on. -/
structure WorkerPlan where
  /-- The task of which it is to be an instance. -/
  task : String
  /-- The node that is to own it; by default any. -/
  owner : Option NodeId
  program : Program
  groups : List String
  templates : List Template
  inclusions : List Inclusion
  deployments : List Deployment
  /-- The port to listen on; another one is taken if it is in use. -/
  port : Option UInt16
  /-- Whether the worker is deleted once it stops. -/
  deleteOnStop : Bool
  /-- Whether its directory is kept. -/
  keepsFiles : Bool
  properties : Properties
  deriving Inhabited

/-- Plans are records of which only the task and the program must be given. -/
def WorkerPlan.codec : Codec WorkerPlan :=
  Fields.record
    (.cons (.required "task_name" .string) <|
     .cons (.withDefault "node_id" (.option .string) none) <|
     .cons (.required "process" Program.codec) <|
     .cons (.withDefault "groups" (.list .string) []) <|
     .cons (.withDefault "templates" (.list Template.codec) []) <|
     .cons (.withDefault "includes" (.list Inclusion.codec) []) <|
     .cons (.withDefault "deployments" (.list Deployment.codec) []) <|
     .cons (.withDefault "port" (.option .uint16) none) <|
     .cons (.withDefault "auto_delete_on_stop" .bool false) <|
     .cons (.withDefault "static_service" .bool false) <|
     .cons (.withDefault "properties" (.map .json) .empty) <|
     .nil)
    (fun p => (p.task, p.owner, p.program, p.groups, p.templates, p.inclusions, p.deployments,
      p.port, p.deleteOnStop, p.keepsFiles, p.properties, ()))
    (fun (task, owner, program, groups, templates, inclusions, deployments, port, deleteOnStop,
        keepsFiles, properties, _) =>
      { task, owner, program, groups, templates, inclusions, deployments, port, deleteOnStop,
        keepsFiles, properties })

instance : Json.Coded WorkerPlan := ⟨WorkerPlan.codec⟩

end WorkerCluster
