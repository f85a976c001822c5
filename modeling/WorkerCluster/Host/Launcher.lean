import WorkerCluster.Host.Files
import WorkerCluster.Worker.Identity

/-!
# Launchers

A launcher under script starts processes that do nothing by themselves: the script lets them write
lines and exit. Processes are numbered from 1 in the order in which they were launched.

* `Launcher.launch` starts a process, unless the launch fails. Each launch may fail or not, whatever
  becomes of others.
* `Launcher.exit` and `Launcher.emit` act on the last process of a worker.
-/

namespace WorkerCluster

/-- A process under script. -/
structure Process where
  alive : Bool := true
  /-- The lines written to its console. -/
  input : List String := []
  /-- The lines that it has written and nobody has taken yet. -/
  output : List String := []
  /-- How often it was asked to stop. -/
  stops : Nat := 0
  /-- How often it was killed. -/
  kills : Nat := 0
  deriving DecidableEq, Inhabited

/-- What is launched. -/
structure Launch where
  worker : WorkerId
  command : String
  args : List String
  environment : SortedMap String String
  directory : Path
  deriving DecidableEq, Inhabited

/-- A launcher under script. -/
structure Launcher where
  /-- Which launches fail. -/
  failing : Launch → Bool := fun _ => false
  /-- All that was launched, in order, and what has become of it. -/
  runs : List (Launch × Process) := []
  deriving Inhabited

namespace Launcher

/-- Start a process: its number. -/
def launch (l : Launcher) (what : Launch) : Option (Nat × Launcher) :=
  if l.failing what then none
  else some (l.runs.length + 1, { l with runs := l.runs ++ [(what, {})] })

/-- The process with a number. -/
def process? (l : Launcher) (pid : Nat) : Option Process :=
  if pid = 0 then none else l.runs[pid - 1]?.map (·.2)

/-- Whether a process is alive. -/
def isAlive (l : Launcher) (pid : Nat) : Bool :=
  match l.process? pid with
  | some p => p.alive
  | none => false

/-- Change a process. -/
def update (l : Launcher) (pid : Nat) (f : Process → Process) : Launcher :=
  if pid = 0 then l else { l with runs := l.runs.modify (pid - 1) fun (what, p) => (what, f p) }

/-- Ask a process to stop, which it does. -/
def stop (l : Launcher) (pid : Nat) : Launcher :=
  l.update pid fun p => { p with alive := false, stops := p.stops + 1 }

/-- Kill a process. -/
def kill (l : Launcher) (pid : Nat) : Launcher :=
  l.update pid fun p => { p with alive := false, kills := p.kills + 1 }

/-- Take the lines that a process has written. -/
def drain (l : Launcher) (pid : Nat) : List String × Launcher :=
  (match l.process? pid with
    | some p => p.output
    | none => [],
   l.update pid fun p => { p with output := [] })

/-- Write a line to the console of a process. It fails if the process is not alive. -/
def write (l : Launcher) (pid : Nat) (line : String) : Option Launcher :=
  if l.isAlive pid then some (l.update pid fun p => { p with input := p.input ++ [line] }) else none

/-! ### The script -/

/-- The number of the last process of a worker. -/
def last? (l : Launcher) (worker : Uuid) : Option Nat :=
  (l.runs.reverse.findIdx? fun (what, _) => what.worker.uuid = worker).map (l.runs.length - ·)

/-- The last process of a worker. -/
def lastProcess? (l : Launcher) (worker : Uuid) : Option Process :=
  (l.last? worker).bind l.process?

/-- Change the last process of a worker. The result is whether there is one. -/
def script (l : Launcher) (worker : Uuid) (f : Process → Process) : Bool × Launcher :=
  match l.last? worker with
  | some pid => (true, l.update pid f)
  | none => (false, l)

/-- The last process of a worker exits on its own. -/
def exit (l : Launcher) (worker : Uuid) : Bool × Launcher :=
  l.script worker fun p => { p with alive := false }

/-- The last process of a worker writes a line. -/
def emit (l : Launcher) (worker : Uuid) (line : String) : Bool × Launcher :=
  l.script worker fun p => { p with output := p.output ++ [line] }

end Launcher

end WorkerCluster
