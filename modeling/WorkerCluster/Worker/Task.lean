import WorkerCluster.Worker.Plan

/-!
# Tasks and groups

A task says how many workers of a kind there are to be in the cluster; a group holds files that its
tasks share.

* `TaskSpec.admits` says which nodes may own instances.
* `TaskSpec.plan` is the plan of a new instance.
-/

namespace WorkerCluster

open Json (Codec Field Fields)

/-- Files that the tasks of a group share. -/
structure GroupSpec where
  name : String
  templates : List Template
  inclusions : List Inclusion
  deployments : List Deployment
  deriving DecidableEq, Inhabited

/-- Groups are records of which only the name must be given. -/
def GroupSpec.codec : Codec GroupSpec :=
  Fields.record
    (.cons (.required "name" .string) <|
     .cons (.withDefault "templates" (.list Template.codec) []) <|
     .cons (.withDefault "includes" (.list Inclusion.codec) []) <|
     .cons (.withDefault "deployments" (.list Deployment.codec) []) <|
     .nil)
    (fun g => (g.name, g.templates, g.inclusions, g.deployments, ()))
    (fun (name, templates, inclusions, deployments, _) =>
      { name, templates, inclusions, deployments })

instance : Json.Coded GroupSpec := ⟨GroupSpec.codec⟩

/-- A kind of worker and how many there are to be. -/
structure TaskSpec where
  name : String
  /-- How many instances there are to be at least. -/
  minCount : UInt32
  /-- The nodes that may own instances; none given means any. -/
  nodes : List NodeId
  /-- Whether no instances are started automatically. -/
  maintenance : Bool
  groups : List String
  templates : List Template
  inclusions : List Inclusion
  deployments : List Deployment
  program : Program
  /-- The first port to try. -/
  startPort : Option UInt16
  /-- Whether instances are deleted once they stop. -/
  deleteOnStop : Bool
  /-- Whether directories of instances are kept. -/
  keepsFiles : Bool
  deriving DecidableEq, Inhabited

namespace TaskSpec

/-- Tasks are records of which only the name and the program must be given. -/
def codec : Codec TaskSpec :=
  Fields.record
    (.cons (.required "name" .string) <|
     .cons (.withDefault "min_service_count" .uint32 0) <|
     .cons (.withDefault "associated_nodes" (.list .string) []) <|
     .cons (.withDefault "maintenance" .bool false) <|
     .cons (.withDefault "groups" (.list .string) []) <|
     .cons (.withDefault "templates" (.list Template.codec) []) <|
     .cons (.withDefault "includes" (.list Inclusion.codec) []) <|
     .cons (.withDefault "deployments" (.list Deployment.codec) []) <|
     .cons (.required "process" Program.codec) <|
     .cons (.withDefault "start_port" (.option .uint16) none) <|
     .cons (.withDefault "auto_delete_on_stop" .bool false) <|
     .cons (.withDefault "static_services" .bool false) <|
     .nil)
    (fun t => (t.name, t.minCount, t.nodes, t.maintenance, t.groups, t.templates, t.inclusions,
      t.deployments, t.program, t.startPort, t.deleteOnStop, t.keepsFiles, ()))
    (fun (name, minCount, nodes, maintenance, groups, templates, inclusions, deployments, program,
        startPort, deleteOnStop, keepsFiles, _) =>
      { name, minCount, nodes, maintenance, groups, templates, inclusions, deployments, program,
        startPort, deleteOnStop, keepsFiles })

instance : Json.Coded TaskSpec := ⟨TaskSpec.codec⟩

/-- Whether a node may own instances of the task. -/
def admits (t : TaskSpec) (node : NodeId) : Bool := t.nodes.isEmpty || t.nodes.contains node

/-- The plan of a new instance. The files of the task come first, then those of its groups in the
order in which the groups are given. -/
def plan (t : TaskSpec) (groups : List GroupSpec) : WorkerPlan :=
  let own := groups.filter fun g => t.groups.contains g.name
  { task := t.name
    owner := none
    program := t.program
    groups := t.groups
    templates := t.templates ++ own.flatMap (·.templates)
    inclusions := t.inclusions ++ own.flatMap (·.inclusions)
    deployments := t.deployments ++ own.flatMap (·.deployments)
    port := t.startPort
    deleteOnStop := t.deleteOnStop
    keepsFiles := t.keepsFiles
    properties := .empty }

end TaskSpec

end WorkerCluster
