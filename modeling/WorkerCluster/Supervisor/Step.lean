import WorkerCluster.Supervisor.Routing

/-!
# Runs of supervisors

* `Supervisor.Step` is an operation with its arguments, `Supervisor.perform` performs it.
* `Supervisor.Event` is something that the script lets happen to processes.
* `Supervisor.Reachable` holds for the states to which steps and events lead from the beginning.
-/

namespace WorkerCluster

namespace Supervisor

/-- An operation with its arguments. -/
inductive Step
  | create (plan : WorkerPlan)
  | start (id : Uuid)
  | stop (id : Uuid)
  | kill (id : Uuid)
  | restart (id : Uuid)
  | delete (id : Uuid)
  | reach (id : Uuid) (target : Lifecycle)
  | deleteAll
  | run (id : Uuid) (command : String)
  | addTemplate (id : Uuid) (template : Template)
  | addInclusion (id : Uuid) (inclusion : Inclusion)
  | addDeployment (id : Uuid) (deployment : Deployment)
  | setConnected (id : Uuid) (connected : Bool)
  | sweep
  | flushAll
  | hear (record : WorkerRecord)
  | replace (node : NodeId) (records : List WorkerRecord)
  | forget (node : NodeId)
  deriving Inhabited

/-- What an operation yields. -/
inductive Answer
  /-- The record of the worker, if the operation could be done. -/
  | record (record : Option WorkerRecord)
  /-- A number. -/
  | count (n : Nat)
  /-- Yes or no. -/
  | flag (b : Bool)
  deriving Inhabited

/-- Perform an operation. -/
def perform (s : Supervisor) : Step → Answer × Supervisor
  | .create plan => (s.create plan).map .record id
  | .start w => (s.start w).map .record id
  | .stop w => (s.stop w).map .record id
  | .kill w => (s.kill w).map .record id
  | .restart w => (s.restart w).map .record id
  | .delete w => (s.delete w).map .record id
  | .reach w target => (s.reach w target).map .record id
  | .deleteAll => s.deleteAll.map .count id
  | .run w command => (s.run w command).map .record id
  | .addTemplate w t => (s.addTemplate w t).map .record id
  | .addInclusion w i => (s.addInclusion w i).map .record id
  | .addDeployment w d => (s.addDeployment w d).map .record id
  | .setConnected w c => (s.setConnected w c).map .flag id
  | .sweep => s.sweep.map .count id
  | .flushAll => s.flushAll.map .count id
  | .hear w => (s.hear w).map .flag id
  | .replace node workers => (s.replace node workers).map .count id
  | .forget node => (s.forget node).map .count id

/-- Something that the script lets happen. -/
inductive Event
  /-- From now on all launches fail, or all succeed again. -/
  | failLaunches (failing : Bool)
  /-- From now on some launches fail, and which ones depends on what is launched. -/
  | failSome (failing : Launch → Bool)
  /-- The last process of a worker exits. -/
  | exit (worker : Uuid)
  /-- The last process of a worker writes a line. -/
  | emit (worker : Uuid) (line : String)
  /-- Time passes. -/
  | now (time : UInt64)
  deriving Inhabited

/-- Let something happen. The result is whether the worker has a process. -/
def happen (s : Supervisor) : Event → Bool × Supervisor
  | .failLaunches failing =>
    (true, { s with launcher := { s.launcher with failing := fun _ => failing } })
  | .failSome failing => (true, { s with launcher := { s.launcher with failing } })
  | .exit worker => (s.launcher.exit worker).map id fun launcher => { s with launcher }
  | .emit worker line => (s.launcher.emit worker line).map id fun launcher => { s with launcher }
  | .now time => (true, { s with host := { s.host with now := time } })

/-- The states to which operations and events lead from the beginning. -/
inductive Reachable (node : NodeIdentity) (settings : Settings) : Supervisor → Prop
  /-- In the beginning there are no workers. -/
  | start (launcher : Launcher) (host : Host) (fresh : launcher.runs = []) :
    Reachable node settings { node, settings, launcher, host }
  /-- An operation is performed. -/
  | perform {s : Supervisor} (before : Reachable node settings s) (step : Step) :
    Reachable node settings (s.perform step).2
  /-- Something happens. -/
  | happen {s : Supervisor} (before : Reachable node settings s) (event : Event) :
    Reachable node settings (s.happen event).2
  /-- The files of the host change. -/
  | files {s : Supervisor} (before : Reachable node settings s) (files : FileTree) :
    Reachable node settings { s with host := { s.host with files } }

end Supervisor

end WorkerCluster
