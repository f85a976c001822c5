import WorkerCluster.Certificate
import WorkerCluster.Config
import WorkerCluster.Host.Files

/-!
# Starting a node

What has to be there before a node can run.

* `Startup.prepare` makes the directory and the file in which the node keeps its state.
* `StartupProblem` says what can go wrong.
-/

namespace WorkerCluster

/-- Why a node cannot start. -/
inductive StartupProblem
  /-- The directory for the state cannot be made. -/
  | noDirectory (path : String)
  /-- The file with the state cannot be opened. -/
  | noState (path : String)
  /-- Files for encryption are not configured. -/
  | noCertificates
  /-- Files for encryption cannot be read. -/
  | badCertificates
  deriving DecidableEq, Inhabited

/-- The wording. -/
def StartupProblem.message : StartupProblem → String
  | .noDirectory path => "failed to create data dir " ++ path
  | .noState path => "failed to open state store " ++ path
  | .noCertificates => ConfigProblem.noCertificates.message
  | .badCertificates => "failed to load TLS material"

namespace Startup

/-- The name of the file in which a node keeps its state. -/
def stateFile : String := "fleet.redb"

/-- A file in a directory, as a path is written. -/
def stateText (directory : String) : String :=
  if directory.isEmpty || directory.endsWith "/" then directory ++ stateFile
  else directory ++ "/" ++ stateFile

/-- Open the file with the state, or make it. A file with anything else in it is left alone. -/
def openState (t : FileTree) (p : Path) : Option FileTree :=
  match t.file? p with
  | some content => if content.isEmpty then some t else none
  | none => t.write p ""

/-- The written paths on which it depends whether a node can start. -/
def paths (c : Config) : List String :=
  stateText c.dataDirectory ::
    (c.certificates.certificate.toList ++ c.certificates.key.toList ++
      c.certificates.authority.toList)

/-- Whether the file at a written path begins with a line. -/
def beginsWith (t : FileTree) (path line : String) : Bool :=
  match (t.place [] path).bind t.file? with
  | some content => content.startsWith line
  | none => false

/-- What is wrong with the files for encryption. -/
def certificateProblem? (c : CertificateConfig) (t : FileTree) : Option StartupProblem :=
  if !c.enabled then none
  else
    match c.certificate, c.key, c.authority with
    | some certificate, some key, some authority =>
      if beginsWith t certificate Certificates.certificateLine &&
          beginsWith t key Certificates.keyLine &&
          beginsWith t authority Certificates.certificateLine then none
      else some .badCertificates
    | _, _, _ => some .noCertificates

/-- Make ready for a node: what goes wrong, and the files afterwards. -/
def prepare (c : Config) (t : FileTree) : Except StartupProblem Unit × FileTree :=
  match t.enter c.dataDirectory with
  | none => (.error (.noDirectory c.dataDirectory), t)
  | some (here, t) =>
    match openState t (here ++ [stateFile]) with
    | none => (.error (.noState (stateText c.dataDirectory)), t)
    | some t =>
      match certificateProblem? c.certificates t with
      | some p => (.error p, t)
      | none => (.ok (), t)

end Startup

end WorkerCluster
