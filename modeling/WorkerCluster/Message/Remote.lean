import WorkerCluster.Worker.Record

/-!
# Requests between nodes

An operation on a worker runs on the node that owns it; other nodes ask that node.

* `WorkerOperation` is what can be done to a worker, `WorkerRequest` names the worker.
* `RemoteRequest` and `RemoteResponse` are what travels between nodes.
-/

namespace WorkerCluster

open Json

/-- What can be done to a worker. -/
inductive WorkerOperation
  | start
  /-- Stop it gracefully. -/
  | stop
  /-- Stop it by force. -/
  | kill
  | restart
  | delete
  /-- Write a line to its console. -/
  | run (command : String)
  /-- Add a template for the next start. -/
  | addTemplate (template : Template)
  /-- Add an inclusion for the next start. -/
  | addInclusion (inclusion : Inclusion)
  /-- Add a deployment for the next start. -/
  | addDeployment (deployment : Deployment)
  /-- Ask for the last lines of its console. -/
  | logs
  deriving DecidableEq, Inhabited

namespace WorkerOperation

/-- The operation that leads to a state, if one does. -/
def reaching? : Lifecycle → Option WorkerOperation
  | .prepared => none
  | .running => some .start
  | .stopped => some .stop
  | .deleted => some .delete

/-- The field of a command. -/
def runFields : Fields [String] := .cons (.required "command" .string) .nil

/-- The field of an added template. -/
def templateFields : Fields [Template] := .cons (.required "template" Template.codec) .nil

/-- The field of an added inclusion. -/
def inclusionFields : Fields [Inclusion] := .cons (.required "inclusion" Inclusion.codec) .nil

/-- The field of an added deployment. -/
def deploymentFields : Fields [Deployment] := .cons (.required "deployment" Deployment.codec) .nil

/-- The name of the kind of operation, and its fields. -/
def entries : WorkerOperation → String × List (String × Json)
  | .start => ("start", [])
  | .stop => ("stop", [])
  | .kill => ("kill", [])
  | .restart => ("restart", [])
  | .delete => ("delete", [])
  | .run c => ("run_command", runFields.encode (c, ()))
  | .addTemplate t => ("queue_template", templateFields.encode (t, ()))
  | .addInclusion i => ("queue_inclusion", inclusionFields.encode (i, ()))
  | .addDeployment d => ("add_deployment", deploymentFields.encode (d, ()))
  | .logs => ("cached_logs", [])

/-- The kinds of operations. -/
def kinds : List (Json.Variant.Kind WorkerOperation) := [
  Variant.unit "start" .start,
  Variant.unit "stop" .stop,
  Variant.unit "kill" .kill,
  Variant.unit "restart" .restart,
  Variant.unit "delete" .delete,
  Variant.ofFields "run_command" runFields fun (c, _) => .run c,
  Variant.ofFields "queue_template" templateFields fun (t, _) => .addTemplate t,
  Variant.ofFields "queue_inclusion" inclusionFields fun (i, _) => .addInclusion i,
  Variant.ofFields "add_deployment" deploymentFields fun (d, _) => .addDeployment d,
  Variant.unit "cached_logs" .logs]

/-- The field `op` names the kind of operation. -/
def codec : Codec WorkerOperation where
  encode o := Variant.write "op" o.entries.1 o.entries.2
  decode := Variant.read "op" kinds

instance : Json.Coded WorkerOperation := ⟨WorkerOperation.codec⟩

end WorkerOperation

/-- An operation on a worker. -/
structure WorkerRequest where
  worker : Uuid
  operation : WorkerOperation
  deriving DecidableEq, Inhabited

namespace WorkerRequest

/-- The fields of a request: the worker, then those of the operation. -/
def entries (q : WorkerRequest) : List (String × Json) :=
  ("service_id", Uuid.codec.encode q.worker) ::
    ("op", .string q.operation.entries.1) :: q.operation.entries.2

/-- Read the fields in the order of the text: the worker, given once at most, and copies of all
other fields. -/
def readEntries (r : Reading) : List (Json.Atom × Source) → Option Uuid →
    Except Fault (Option Uuid × List (Json.Atom × Source))
  | [], found => .ok (found, [])
  | (name, s) :: rest, found => do
    let n ← name.string?
    if n = "service_id" then
      if found.isSome then .error .mismatched
      let id ← Uuid.codec.decode r s
      readEntries r rest (some id)
    else
      let _ ← s.read r
      let (id, others) ← readEntries r rest found
      return (id, (name, s) :: others)

/-- The worker and the fields of the operation stand side by side in one object. -/
def codec : Codec WorkerRequest where
  encode q := .fields q.entries
  decode r
    | .fields entries ending => do
      let r ← r.enter
      let (found, others) ← readEntries r entries none
      Json.closed ending
      match found with
      | some worker =>
        let operation ← WorkerOperation.codec.decode .buffered (.fields others none)
        return { worker, operation }
      | none => .error .mismatched
    | s => .error s.mismatch

instance : Json.Coded WorkerRequest := ⟨WorkerRequest.codec⟩

end WorkerRequest

/-- What a node asks the owner of workers for. -/
inductive RemoteRequest
  /-- An operation on a worker. -/
  | worker (request : WorkerRequest)
  /-- A new worker. -/
  | create (plan : WorkerPlan)
  deriving Inhabited

namespace RemoteRequest

/-- The field of a request for a new worker. -/
def createFields : Fields [WorkerPlan] := .cons (.required "configuration" WorkerPlan.codec) .nil

/-- The field `type` says what is asked for. -/
def codec : Codec RemoteRequest where
  encode
    | .worker q => Variant.write "type" "service" q.entries
    | .create p => Variant.write "type" "create_service" (createFields.encode (p, ()))
  decode := Variant.read "type" [
    ("service", fun s => .worker <$> WorkerRequest.codec.decode .buffered s),
    Variant.ofFields "create_service" createFields fun (p, _) => .create p]

instance : Json.Coded RemoteRequest := ⟨RemoteRequest.codec⟩

end RemoteRequest

/-- What the owner of workers answers. -/
inductive RemoteResponse
  /-- The record of the worker, if the operation ran. -/
  | record (record : Option WorkerRecord)
  /-- The last lines of the worker's console, if it is known. -/
  | logs (lines : Option (List String))
  /-- Why the request could not be served. -/
  | refused (reason : String)
  deriving Inhabited

namespace RemoteResponse

/-- The field of a record. -/
def recordFields : Fields [Option WorkerRecord] :=
  .cons (.optional "snapshot" WorkerRecord.codec) .nil

/-- The field of console lines. -/
def logFields : Fields [Option (List String)] := .cons (.optional "lines" (.list .string)) .nil

/-- The field of a refusal. -/
def refusalFields : Fields [String] := .cons (.required "message" .string) .nil

/-- The field `type` says what is answered. -/
def codec : Codec RemoteResponse where
  encode
    | .record w => Variant.write "type" "snapshot" (recordFields.encode (w, ()))
    | .logs l => Variant.write "type" "logs" (logFields.encode (l, ()))
    | .refused m => Variant.write "type" "error" (refusalFields.encode (m, ()))
  decode := Variant.read "type" [
    Variant.ofFields "snapshot" recordFields fun (w, _) => .record w,
    Variant.ofFields "logs" logFields fun (l, _) => .logs l,
    Variant.ofFields "error" refusalFields fun (m, _) => .refused m]

instance : Json.Coded RemoteResponse := ⟨RemoteResponse.codec⟩

/-- The record that a response brings. -/
def record? : RemoteResponse → Option WorkerRecord
  | .record w => w
  | _ => none

/-- The console lines that a response brings. -/
def lines? : RemoteResponse → Option (List String)
  | .logs l => l
  | _ => none

end RemoteResponse

end WorkerCluster
