import WorkerCluster.Command.Arguments
import WorkerCluster.Startup

/-!
# What commands do

* `CommandProblem` says why a command fails, `CommandProblem.report` what is written about it.
* `Command.execute` does what is asked for, on the files of the host.
-/

namespace WorkerCluster

/-- Why a command fails. -/
inductive CommandProblem
  /-- The arguments are not obeyed. -/
  | usage (problem : UsageProblem)
  /-- The configuration cannot be loaded. -/
  | load (path : String) (problem : ConfigError)
  /-- There is a file already. -/
  | present (path : String)
  /-- The configuration would make no sense. -/
  | config (problem : ConfigProblem)
  /-- The configuration cannot be written. -/
  | noFile (path : String)
  | certificates (problem : CertificateProblem)
  | startup (problem : StartupProblem)
  deriving DecidableEq, Inhabited

namespace CommandProblem

/-- The exit code. -/
def code : CommandProblem → Nat
  | .usage .help => 0
  | .usage _ => 2
  | _ => 1

/-- What is written about it. -/
def report : CommandProblem → String
  | .usage .help => "usage: run | init --id ID | certs --out DIRECTORY --node ID=ADDRESS,..."
  | .usage .unclear => "error: the arguments make no sense, try --help"
  | .usage (.node value problem) =>
    "error: invalid value '" ++ value ++ "' for '--node <NODES>': " ++ problem.message
  | .load path (.invalid p) =>
    "Error: failed to load " ++ path ++ "\n\nCaused by:\n    " ++ p.report
  | .load path _ => "Error: failed to load " ++ path
  | .present path => "Error: " ++ path ++ " already exists"
  | .config p => "Error: " ++ p.report
  | .noFile path => "Error: failed to write " ++ path
  | .certificates p => "Error: " ++ p.message
  | .startup p => "Error: " ++ p.message

end CommandProblem

namespace Command

/-- Write the configuration of a node alone, where no file is yet. -/
def writeScaffold (t : FileTree) (path : String) (id : NodeId) :
    Except CommandProblem FileTree := do
  if t.holds path then .error (.present path)
  let c := Config.scaffold id
  if let .error p := c.validate then .error (.config p)
  match t.place [] path, c.toml with
  | some p, some text =>
    match t.write p text with
    | some t => .ok t
    | none => .error (.noFile path)
  | _, _ => .error (.noFile path)

/-- Load the configuration of a node. -/
def load (t : FileTree) (path : String) : Except CommandProblem Config :=
  match Config.load (((t.place [] path).bind t.file?).map (·.toUTF8)) with
  | .ok c => .ok c
  | .error e => .error (.load path e)

/-- The written paths on which it depends what a command does, before a configuration is loaded. -/
def paths : Command → List String
  | .run config _ => [config]
  | .init config _ => [config]
  | .certificates directory nodes =>
    (Certificates.files nodes).map fun f => Certificates.pathText directory f.1

/-- Do what is asked for: what goes wrong, or the configuration of the node that is to run, and the
files afterwards. -/
def execute (t : FileTree) : Command → Except CommandProblem (Option Config) × FileTree
  | .run config _ =>
    match load t config with
    | .error e => (.error e, t)
    | .ok c =>
      match Startup.prepare c t with
      | (.ok (), t) => (.ok (some c), t)
      | (.error p, t) => (.error (.startup p), t)
  | .init config id =>
    match writeScaffold t config id with
    | .ok t => (.ok none, t)
    | .error e => (.error e, t)
  | .certificates directory nodes =>
    match Certificates.write t directory nodes with
    | (.ok (), t) => (.ok none, t)
    | (.error p, t) => (.error (.certificates p), t)

/-- Read arguments and do what they ask for. -/
def invoke (t : FileTree) (args : List String) :
    Except CommandProblem (Option Config) × FileTree :=
  match parse args with
  | .ok c => c.execute t
  | .error p => (.error (.usage p), t)

end Command

end WorkerCluster
