import WorkerCluster.Supervisor.Basic

/-!
# Lives of workers

How the workers of a node start, stop and go, and what is done to them in between.

* `Supervisor.start`, `Supervisor.halt` and `Supervisor.delete` are the steps of a life; stopping,
  killing and restarting are made of them.
* `Supervisor.sweep` follows processes that have exited on their own.
* `Supervisor.hear` and `Supervisor.forget` keep what other nodes say about their workers.

An operation on a worker yields its record, or nothing if it could not be done.
-/

namespace WorkerCluster

namespace Supervisor

/-! ### Starting -/

/-- What a worker's process is told about the worker and its node. -/
def environment (s : Supervisor) (w : OwnedWorker) : SortedMap String String :=
  let r := w.record
  let base := r.plan.program.environment
    |>.insert "FLEET_SERVICE_ID" r.uuid.text
    |>.insert "FLEET_SERVICE_NAME" r.name
    |>.insert "FLEET_TASK" r.task
    |>.insert "FLEET_SERVICE_NUMBER" (toString r.id.number.toNat)
    |>.insert "FLEET_NODE_ID" s.node.id
  let addressed := match s.node.listeners with
    | a :: _ => base.insert "FLEET_NODE_ADDRESS" a.text
    | [] => base
  addressed
    |>.insert "FLEET_SERVICE_PORT" (toString r.address.port.toNat)
    |>.insert "FLEET_MAX_MEMORY_MB" (toString r.plan.program.memory.toNat)
    |>.insert "FLEET_CONNECTION_KEY" s.settings.secret

/-- What is launched for a worker. -/
def launchOf (s : Supervisor) (w : OwnedWorker) : Launch where
  worker := w.record.id
  command := w.record.plan.program.command
  args := w.record.plan.program.args
  environment := s.environment w
  directory := w.directory

/-- Launch the process of a worker, in a directory of its own. -/
def launch (s : Supervisor) (id : Uuid) (w : OwnedWorker) : Option WorkerRecord × Supervisor :=
  match s.host.files.makeDirs w.directory with
  | none => (none, s)
  | some files =>
    let s := { s with host := { s.host with files } }
    match s.launcher.launch (s.launchOf w) with
    | none => (none, s)
    | some (pid, launcher) =>
      let record := { w.record with lifecycle := .running, process := { pid := pid.toUInt32 } }
      let s := { s with launcher }
      (some record, (s.setOwned id { w with record, process := some pid }).publish record)

/-- Start a worker. One that runs is left alone; otherwise what has been queued is taken into the
plan, even if the launch fails then. -/
def start (s : Supervisor) (id : Uuid) : Option WorkerRecord × Supervisor :=
  match s.owned.find? id with
  | none => (none, s)
  | some w =>
    match w.record.lifecycle with
    | .running => (some w.record, s)
    | .deleted => (none, s)
    | .prepared | .stopped =>
      let w := w.applyQueued
      (s.setOwned id w).launch id w

/-! ### Stopping -/

/-- Stop a process, by force or not, and take the lines that it has written. -/
def endProcess (l : Launcher) (force : Bool) (pid : Nat) : List String × Launcher :=
  (if force then l.kill pid else l.stop pid).drain pid

/-- Delete a worker: stop its process, remove its directory unless its files are kept, and tell
everybody. -/
def delete (s : Supervisor) (id : Uuid) : Option WorkerRecord × Supervisor :=
  match s.owned.find? id with
  | none => (none, s)
  | some w =>
    let launcher := match w.process with
      | some pid => s.launcher.stop pid
      | none => s.launcher
    let record := w.record.down .deleted
    let files :=
      if !w.record.plan.keepsFiles && s.host.files.isDirectory w.directory then
        s.host.files.removeDir w.directory
      else s.host.files
    let s := { s with owned := s.owned.erase id, launcher, host := { s.host with files } }
    (some record, s.publish record)

/-- A worker after its process has been ended, and the launcher. -/
def ended (l : Launcher) (force : Bool) (w : OwnedWorker) : OwnedWorker × Launcher :=
  match w.process with
  | none => ({ w with record := w.record.down .stopped }, l)
  | some pid =>
    let (lines, l) := endProcess l force pid
    ({ w with record := w.record.down .stopped, process := none, logs := w.logs.extend lines }, l)

/-- Stop a worker that runs. One that is to be deleted on a stop is deleted then, if `deleting`. -/
def halt (s : Supervisor) (force deleting : Bool) (id : Uuid) : Option WorkerRecord × Supervisor :=
  match s.owned.find? id with
  | none => (none, s)
  | some w =>
    if !w.record.isRunning then (some w.record, s)
    else
      let (w, launcher) := ended s.launcher force w
      let s := { s with launcher }.setOwned id w
      if deleting && w.record.plan.deleteOnStop then s.delete id
      else (some w.record, s.publish w.record)

/-- Stop a worker gracefully. -/
def stop (s : Supervisor) (id : Uuid) : Option WorkerRecord × Supervisor := s.halt false true id

/-- Stop a worker by force. -/
def kill (s : Supervisor) (id : Uuid) : Option WorkerRecord × Supervisor := s.halt true true id

/-- Stop a worker and start it again, without deleting it in between. -/
def restart (s : Supervisor) (id : Uuid) : Option WorkerRecord × Supervisor :=
  match s.halt false false id with
  | (none, s) => (none, s)
  | (some _, s) => s.start id

/-- Do what leads to a state. Nothing leads back to being prepared. -/
def reach (s : Supervisor) (id : Uuid) : Lifecycle → Option WorkerRecord × Supervisor
  | .running => s.start id
  | .stopped => s.stop id
  | .deleted => s.delete id
  | .prepared => (none, s)

/-- Delete all workers of this node. The result is their number. -/
def deleteAll (s : Supervisor) : Nat × Supervisor :=
  s.owned.keys.foldl (fun (n, s) id =>
    match s.delete id with
    | (some _, s) => (n + 1, s)
    | (none, s) => (n, s)) (0, s)

/-! ### Consoles and queues -/

/-- Write a line to the console of a worker that runs. -/
def run (s : Supervisor) (id : Uuid) (command : String) : Option WorkerRecord × Supervisor :=
  match s.owned.find? id with
  | none => (none, s)
  | some w =>
    match w.process.bind fun pid => s.launcher.write pid command with
    | some launcher => (some w.record, { s with launcher })
    | none => (none, s)

/-- Change what is queued for a worker of this node. -/
def queue (s : Supervisor) (id : Uuid) (f : OwnedWorker → OwnedWorker) :
    Option WorkerRecord × Supervisor :=
  match s.owned.find? id with
  | none => (none, s)
  | some w => (some w.record, s.setOwned id (f w))

/-- Queue a template for the next start. -/
def addTemplate (s : Supervisor) (id : Uuid) (t : Template) : Option WorkerRecord × Supervisor :=
  s.queue id fun w => { w with templates := w.templates ++ [t] }

/-- Queue an inclusion for the next start. -/
def addInclusion (s : Supervisor) (id : Uuid) (i : Inclusion) : Option WorkerRecord × Supervisor :=
  s.queue id fun w => { w with inclusions := w.inclusions ++ [i] }

/-- Queue a deployment for the next start. -/
def addDeployment (s : Supervisor) (id : Uuid) (d : Deployment) :
    Option WorkerRecord × Supervisor :=
  s.queue id fun w => { w with deployments := w.deployments ++ [d] }

/-- The process of a worker has connected back, or its connection is gone. The result is whether the
worker is one of this node. -/
def setConnected (s : Supervisor) (id : Uuid) (connected : Bool) : Bool × Supervisor :=
  match s.owned.find? id with
  | none => (false, s)
  | some w =>
    if w.record.connected = connected then (true, s)
    else
      let record := { w.record with connected }
      (true, (s.setOwned id { w with record }).publish record)

/-! ### From time to time -/

/-- The workers that run although their process has exited. -/
def exited (s : Supervisor) : List Uuid :=
  s.owned.entries.filterMap fun (id, w) =>
    if w.record.isRunning && !w.process.any s.launcher.isAlive then some id else none

/-- Stop the workers whose process has exited. The result is their number. -/
def sweep (s : Supervisor) : Nat × Supervisor :=
  let ids := s.exited
  (ids.length, ids.foldl (fun s id => (s.halt false true id).2) s)

/-- Move the lines that one worker's process has written to its last lines. -/
def flush (s : Supervisor) (id : Uuid) : Nat × Supervisor :=
  match s.owned.find? id with
  | none => (0, s)
  | some w =>
    match w.process with
    | none => (0, s)
    | some pid =>
      let (lines, launcher) := s.launcher.drain pid
      (lines.length, { s with launcher }.setOwned id { w with logs := w.logs.extend lines })

/-- Move the lines that processes have written to the last lines of their workers. The result is
how many there were. -/
def flushAll (s : Supervisor) : Nat × Supervisor :=
  s.owned.keys.foldl (fun (n, s) id =>
    let (m, s) := s.flush id
    (n + m, s)) (0, s)

/-! ### Workers of other nodes -/

/-- Keep what the owner of a worker says about it. Nobody else speaks for workers of this node. The
result is whether that changes anything. -/
def hear (s : Supervisor) (w : WorkerRecord) : Bool × Supervisor :=
  if w.owner = s.node.id then (false, s)
  else if w.lifecycle = .deleted then
    (s.remote.contains w.uuid, { s with remote := s.remote.erase w.uuid })
  else (true, { s with remote := s.remote.insert w.uuid w })

/-- Forget the workers of a node. The result is their number. -/
def forget (s : Supervisor) (node : NodeId) : Nat × Supervisor :=
  let remote := s.remote.filter fun _ w => w.owner != node
  (s.remote.size - remote.size, { s with remote })

/-- Replace what is known about the workers of a node. The result is how many are taken. -/
def replace (s : Supervisor) (node : NodeId) (workers : List WorkerRecord) : Nat × Supervisor :=
  (workers.filter (·.owner = node)).foldl (fun (n, s) w =>
    match s.hear w with
    | (true, s) => (n + 1, s)
    | (false, s) => (n, s)) (0, (s.forget node).2)

end Supervisor

end WorkerCluster
