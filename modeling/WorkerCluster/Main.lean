import WorkerCluster.Command.Execution
import WorkerCluster.Node.Loop

/-!
# The program

Looks at the files on which a command depends, executes the command on them, and writes what has
changed. A node that is to run has neither peers nor processes here: its loop ticks, and launches
fail.
-/

namespace WorkerCluster

/-- Add what the host holds at a path. -/
def lookAt (t : FileTree) (p : Path) : IO FileTree := do
  if t.exists? p then return t
  try
    let bytes ← IO.FS.readBinFile p.text
    return { t with files := (p, (String.fromUTF8? bytes).getD "\ufffd") :: t.files }
  catch
    | .noFileOrDirectory .. => return t
    | _ => return { t with directories := t.directories ++ [p] }

/-- Add what the host holds at written paths and above them. -/
def lookAround (t : FileTree) (paths : List String) : IO FileTree :=
  (paths.flatMap fun text => (Path.parse text).chain).foldlM lookAt t

/-- Write what has changed. -/
def writeBack (before after : FileTree) : IO Unit := do
  for d in after.directories do
    if !before.isDirectory d then IO.FS.createDirAll d.text
  for (p, content) in after.files.reverse do
    if before.file? p != some content then IO.FS.writeFile p.text content

/-- Let the loop of a node tick. -/
partial def tickOn (wait : UInt32) (loop : Loop Node Errand) : IO Unit := do
  IO.sleep wait
  let perform (n : Node) (e : Errand) : Bool × Node := (true, (n.perform e).2)
  let loop := loop.tick perform Node.upkeep
  tickOn wait { loop with state := { loop.state with outbox := [] } }

/-- Run a node. -/
def runNode (c : Config) : IO Unit := do
  let now ← IO.monoMsNow
  match Node.new c {} {} { now := now.toUInt64 } with
  | .error e => throw (IO.userError e.message)
  | .ok n =>
    let launcher : Launcher := { failing := fun _ => true }
    let n := { n with supervisor := { n.supervisor with launcher } }
    tickOn c.tick.toUInt32 { state := n, ticksPerSecond := c.ticks }

/-- Read the arguments and do what they ask for. -/
def program (args : List String) : IO UInt32 := do
  let command := Command.parse args
  let paths := match command with
    | .ok c => c.paths
    | .error _ => []
  let t ← lookAround {} paths
  let t ← match command with
    | .ok (.run config _) =>
      match Command.load t config with
      | .ok c => lookAround t (Startup.paths c)
      | .error _ => pure t
    | _ => pure t
  let (outcome, after) := Command.invoke t args
  writeBack t after
  match outcome with
  | .ok none => return 0
  | .ok (some c) =>
    runNode c
    return 0
  | .error e =>
    IO.eprintln e.report
    return e.code.toUInt32

end WorkerCluster

/-- The program. -/
def main (args : List String) : IO UInt32 := WorkerCluster.program args
