import WorkerCluster.Certificate

/-!
# Command lines

* `Command` is what the program is asked to do.
* `Command.parse` reads it from the arguments.

Options are read from left to right. A value that stands in an argument of its own is checked when
the next known option comes, or at the end; an option that is not known is reported at once.
-/

namespace WorkerCluster

/-- What the program is asked to do. -/
inductive Command
  /-- Run a node. -/
  | run (config : String) (jsonLogs : Bool)
  /-- Write the configuration of a node alone. -/
  | init (config id : String)
  /-- Make the certificates of a cluster. -/
  | certificates (directory : String) (nodes : List CertificateSpec)
  deriving DecidableEq, Inhabited

/-- Why arguments are not obeyed. -/
inductive UsageProblem
  /-- Help is asked for. -/
  | help
  /-- They make no sense. -/
  | unclear
  /-- The node of a certificate is not given as it should be. -/
  | node (value : String) (problem : CertificateSpecProblem)
  deriving DecidableEq, Inhabited

namespace Command

/-- The commands. -/
inductive Verb
  | run
  | init
  | certificates
  deriving DecidableEq, Inhabited

/-- The command of a name. -/
def Verb.ofName? : String → Option Verb
  | "run" => some .run
  | "init" => some .init
  | "certs" => some .certificates
  | _ => none

/-- The options. -/
inductive Key
  | help
  | config
  | jsonLogs
  | id
  | out
  | node
  deriving DecidableEq, Inhabited

/-- The option of a name. -/
def Verb.key? : Verb → String → Option Key
  | _, "help" => some .help
  | .run, "config" => some .config
  | .run, "log-json" => some .jsonLogs
  | .init, "config" => some .config
  | .init, "id" => some .id
  | .certificates, "out" => some .out
  | .certificates, "node" => some .node
  | _, _ => none

/-- Whether an option has a value. -/
def Key.hasValue : Key → Bool
  | .help | .jsonLogs => false
  | .config | .id | .out | .node => true

/-- What has been read. -/
structure Options where
  config : Option String := none
  id : Option String := none
  out : Option String := none
  jsonLogs : Bool := false
  nodes : List CertificateSpec := []
  /-- An option that has not been checked yet, with its value if that has come. -/
  waiting : Option (Key × Option String) := none
  /-- Whether `--` has come, after which there are no options. -/
  ended : Bool := false
  deriving DecidableEq, Inhabited

namespace Options

/-- Keep the value of an option that may be given once. -/
def once (old : Option String) (value : String) : Except UsageProblem (Option String) :=
  match old with
  | none => .ok (some value)
  | some _ => .error .unclear

/-- Keep a path, which may not be empty. -/
def path (old : Option String) (value : String) : Except UsageProblem (Option String) :=
  if value.isEmpty then .error .unclear else once old value

/-- Check an option and keep it. -/
def keep (o : Options) : Key → String → Except UsageProblem Options
  | .config, v => return { o with config := ← path o.config v }
  | .id, v => return { o with id := ← once o.id v }
  | .out, v => return { o with out := ← path o.out v }
  | .node, v =>
    match CertificateSpec.parse v with
    | .ok s => .ok { o with nodes := o.nodes ++ [s] }
    | .error p => .error (.node v p)
  | .jsonLogs, _ => if o.jsonLogs then .error .unclear else .ok { o with jsonLogs := true }
  | .help, _ => .error .help

/-- Check the option that waits. -/
def settle (o : Options) : Except UsageProblem Options :=
  match o.waiting with
  | none => .ok o
  | some (_, none) => .error .unclear
  | some (key, some v) => { o with waiting := none }.keep key v

/-- Read a long option, given without its hyphens. -/
def long (o : Options) (verb : Verb) (text : String) : Except UsageProblem Options :=
  let cs := text.toList
  let name := String.ofList (cs.takeWhile (· != '='))
  match verb.key? name, cs.dropWhile (· != '=') with
  | none, _ => .error .unclear
  | some key, [] => do
    let o ← o.settle
    if key.hasValue then return { o with waiting := some (key, none) } else o.keep key ""
  | some key, _ :: value => do
    if !key.hasValue then .error .unclear
    (← o.settle).keep key (String.ofList value)

/-- Read an argument. -/
def read (verb : Verb) (o : Options) (arg : String) : Except UsageProblem Options :=
  match o.ended, arg.toList with
  | true, _ => .error .unclear
  | false, ['-', '-'] => .ok { o with ended := true }
  | false, '-' :: '-' :: text => o.long verb (String.ofList text)
  | false, '-' :: c :: _ =>
    if c = 'h' then do (← o.settle).keep .help "" else .error .unclear
  | false, _ =>
    match o.waiting with
    | some (key, none) => .ok { o with waiting := some (key, some arg) }
    | _ => .error .unclear

/-- The command that options ask for, if all that it needs is given. -/
def command (o : Options) : Verb → Except UsageProblem Command
  | .run => .ok (.run (o.config.getD "fleet.toml") o.jsonLogs)
  | .init =>
    match o.id with
    | some id => .ok (.init (o.config.getD "fleet.toml") id)
    | none => .error .unclear
  | .certificates =>
    match o.out with
    | some out => if o.nodes.isEmpty then .error .unclear else .ok (.certificates out o.nodes)
    | none => .error .unclear

end Options

/-- Whether arguments ask for help on a command. -/
def isHelp : List String → Bool
  | [] => true
  | [name] => name = "help" || (Verb.ofName? name).isSome
  | _ => false

/-- Read a command. -/
def parse : List String → Except UsageProblem Command
  | [] => .error .unclear
  | first :: rest =>
    match Verb.ofName? first with
    | some verb => do
      let o ← rest.foldlM (Options.read verb) {}
      (← o.settle).command verb
    | none =>
      if first = "--help" || first.startsWith "-h" || (first = "help" && isHelp rest) then
        .error .help
      else .error .unclear

end Command

end WorkerCluster
