import WorkerCluster.Node.Identity
import WorkerCluster.Text.Blank
import WorkerCluster.Toml.Document

/-!
# Configurations

What a node is told about itself, its peers and its workers.

* `Config.parse` reads a configuration file and checks it, `Config.toml` writes one.
* `Config.validate` says what is wrong with a configuration.
-/

namespace WorkerCluster

open Json (Codec Field Fields)

/-- The peers of a node and what it shares with them. -/
structure ClusterConfig where
  /-- What nodes and workers say to be let in. -/
  secret : String := ""
  /-- The peers. -/
  nodes : List NodeIdentity := []
  deriving DecidableEq, Inhabited

/-- Where a node finds its certificate. -/
structure CertificateConfig where
  /-- Whether connections are encrypted. -/
  enabled : Bool := false
  certificate : Option String := none
  key : Option String := none
  /-- The certificate that vouches for all others. -/
  authority : Option String := none
  deriving DecidableEq, Inhabited

/-- How a node keeps its workers. -/
structure WorkerConfig where
  /-- The first port to try for a worker. -/
  startPort : UInt16 := 44955
  /-- Where the directories of workers are. -/
  directory : String := "temp/services"
  /-- How long a worker may take to stop, in milliseconds. -/
  stopTimeout : UInt64 := 5000
  /-- How many console lines of a worker are kept. -/
  logLines : UInt64 := 64
  deriving DecidableEq, Inhabited

/-- The configuration of a node. -/
structure Config where
  /-- Memory that may be promised to workers, in MiB. -/
  maxMemory : UInt64 := 2048
  /-- How often the node looks after its work in a second. -/
  ticksPerSecond : UInt32 := 10
  /-- Where the node keeps its state. -/
  dataDirectory : String := "data"
  /-- How long to wait for a peer's answer, in milliseconds. -/
  answerTimeout : UInt64 := 5000
  identity : NodeIdentity
  cluster : ClusterConfig := {}
  certificates : CertificateConfig := {}
  workers : WorkerConfig := {}
  deriving DecidableEq, Inhabited

/-- What is wrong with a configuration. -/
inductive ConfigProblem
  /-- The node has no id. -/
  | noId
  /-- The node does not listen. -/
  | noListeners
  /-- The node never looks after its work. -/
  | noTicks
  /-- The node looks after its work too often. -/
  | tooManyTicks
  /-- A peer has the id of the node. -/
  | ownPeer (id : NodeId)
  /-- Two peers have the same id. -/
  | twicePeer (id : NodeId)
  /-- A peer cannot be reached. -/
  | deafPeer (id : NodeId)
  /-- Files for encryption are missing. -/
  | noCertificates
  deriving DecidableEq, Inhabited

/-- The wording. -/
def ConfigProblem.message : ConfigProblem → String
  | .noId => "identity.id must not be empty"
  | .noListeners => "identity.listeners must name at least one address"
  | .noTicks => "tps must be greater than zero"
  | .tooManyTicks => "tps must not exceed 1000"
  | .ownPeer id => "cluster.nodes contains the local node id '" ++ id ++ "'"
  | .twicePeer id => "duplicate peer id '" ++ id ++ "'"
  | .deafPeer id => "peer '" ++ id ++ "' has no listeners"
  | .noCertificates => "tls.enabled requires tls.cert, tls.key and tls.ca"

/-- Why a configuration cannot be loaded. -/
inductive ConfigError
  /-- There is no file. -/
  | missing
  /-- The file is no text. -/
  | notText
  /-- The text is no configuration. -/
  | unreadable
  /-- The configuration makes no sense. -/
  | invalid (problem : ConfigProblem)
  deriving DecidableEq, Inhabited

/-- The wording of an invalid configuration. -/
def ConfigProblem.report (p : ConfigProblem) : String := "invalid config: " ++ p.message

namespace Config

/-- Cluster settings are records of which nothing must be given. -/
def clusterCodec : Codec ClusterConfig :=
  Fields.record
    (.cons (.withDefault "secret" .string "") <|
     .cons (.withDefault "nodes" (.list NodeIdentity.codec) []) <|
     .nil)
    (fun c => (c.secret, c.nodes, ()))
    (fun (secret, nodes, _) => { secret, nodes })

/-- Certificate settings are records of which nothing must be given. -/
def certificateCodec : Codec CertificateConfig :=
  Fields.record
    (.cons (.withDefault "enabled" .bool false) <|
     .cons (.optional "cert" .string) <|
     .cons (.optional "key" .string) <|
     .cons (.optional "ca" .string) <|
     .nil)
    (fun c => (c.enabled, c.certificate, c.key, c.authority, ()))
    (fun (enabled, certificate, key, authority, _) => { enabled, certificate, key, authority })

/-- Worker settings are records of which nothing must be given. -/
def workerCodec : Codec WorkerConfig :=
  let d : WorkerConfig := {}
  Fields.record
    (.cons (.withDefault "start_port" .uint16 d.startPort) <|
     .cons (.withDefault "working_dir" .string d.directory) <|
     .cons (.withDefault "stop_timeout_ms" .uint64 d.stopTimeout) <|
     .cons (.withDefault "log_cache_lines" .uint64 d.logLines) <|
     .nil)
    (fun c => (c.startPort, c.directory, c.stopTimeout, c.logLines, ()))
    (fun (startPort, directory, stopTimeout, logLines, _) =>
      { startPort, directory, stopTimeout, logLines })

/-- Configurations are records of which only the identity must be given. -/
def codec : Codec Config :=
  let d : Config := { identity := default }
  Fields.record
    (.cons (.withDefault "max_memory_mb" .uint64 d.maxMemory) <|
     .cons (.withDefault "tps" .uint32 d.ticksPerSecond) <|
     .cons (.withDefault "data_dir" .string d.dataDirectory) <|
     .cons (.withDefault "rpc_timeout_ms" .uint64 d.answerTimeout) <|
     .cons (.required "identity" NodeIdentity.codec) <|
     .cons (.withDefault "cluster" clusterCodec {}) <|
     .cons (.withDefault "tls" certificateCodec {}) <|
     .cons (.withDefault "services" workerCodec {}) <|
     .nil)
    (fun c => (c.maxMemory, c.ticksPerSecond, c.dataDirectory, c.answerTimeout, c.identity,
      c.cluster, c.certificates, c.workers, ()))
    (fun (maxMemory, ticksPerSecond, dataDirectory, answerTimeout, identity, cluster, certificates,
        workers, _) =>
      { maxMemory, ticksPerSecond, dataDirectory, answerTimeout, identity, cluster, certificates,
        workers })

instance : Json.Coded Config := ⟨Config.codec⟩

/-- The configuration of a node alone, to start from. -/
def scaffold (id : NodeId) : Config where
  identity := { id, listeners := [⟨"0.0.0.0", 1410⟩] }
  cluster := { secret := "change-me" }

/-- The time between two looks after the work, in milliseconds. -/
def tick (c : Config) : Nat := 1000 / max c.ticksPerSecond.toNat 1

/-! ### Checking -/

/-- Check the peers in order, given the ids of those before. -/
def checkPeers (own : NodeId) : (seen : List NodeId) → List NodeIdentity → Except ConfigProblem Unit
  | _, [] => .ok ()
  | seen, p :: rest =>
    if p.id = own then .error (.ownPeer p.id)
    else if seen.contains p.id then .error (.twicePeer p.id)
    else if p.listeners.isEmpty then .error (.deafPeer p.id)
    else checkPeers own (p.id :: seen) rest

/-- Check a configuration. Of several problems the first in this order is reported. -/
def validate (c : Config) : Except ConfigProblem Unit := do
  if Text.isBlankText c.identity.id then .error .noId
  if c.identity.listeners.isEmpty then .error .noListeners
  if c.ticksPerSecond = 0 then .error .noTicks
  if c.ticksPerSecond > 1000 then .error .tooManyTicks
  checkPeers c.identity.id [] c.cluster.nodes
  if c.certificates.enabled && (c.certificates.certificate.isNone || c.certificates.key.isNone ||
      c.certificates.authority.isNone) then
    .error .noCertificates

/-! ### Reading -/

/-- Read and check the text of a configuration file. -/
def parse (text : String) : Except ConfigError Config :=
  match (Toml.Document.parse text).map fun t => codec.decode .lenient t.source with
  | some (.ok c) =>
    match c.validate with
    | .ok () => .ok c
    | .error p => .error (.invalid p)
  | _ => .error .unreadable

/-- Read and check a configuration file, given by its bytes if it is there. -/
def load (file : Option ByteArray) : Except ConfigError Config :=
  match file with
  | none => .error .missing
  | some bytes =>
    match String.fromUTF8? bytes with
    | none => .error .notText
    | some text => parse text

/-! ### Writing -/

/-- A text. -/
def textLine (key value : String) : List Char :=
  key.toList ++ [' ', '=', ' '] ++ Toml.Quoted.write value.toList ++ ['\n']

/-- A text, if it is given. -/
def optionalLine (key : String) : Option String → List Char
  | none => []
  | some v => textLine key v

/-- A number, which must fit 63 bits. -/
def numberLine (key : String) (n : Nat) : Option (List Char) :=
  if n < 0x8000000000000000 then
    some (key.toList ++ [' ', '=', ' '] ++ (toString n).toList ++ ['\n'])
  else none

/-- Addresses: one or none in the line, more of them in lines of their own. -/
def addressLines (key : String) (addresses : List Address) : List Char :=
  let item (a : Address) : List Char := Toml.Quoted.write a.text.toList
  let value : List Char := match addresses with
    | [] => ['[', ']']
    | [a] => '[' :: item a ++ [']']
    | l =>
      ['[', '\n'] ++ l.flatMap (fun a => [' ', ' ', ' ', ' '] ++ item a ++ [',', '\n']) ++ [']']
  key.toList ++ [' ', '=', ' '] ++ value ++ ['\n']

/-- The header of a table. -/
def header (name : String) : List Char := '\n' :: '[' :: name.toList ++ [']', '\n']

/-- An identity. -/
def identityLines (n : NodeIdentity) : List Char :=
  textLine "id" n.id ++ addressLines "listeners" n.listeners

/-- The peers: none in the line, each with a header of its own. -/
def peerLines : List NodeIdentity → List Char
  | [] => "nodes = []\n".toList
  | l => l.flatMap fun n => "\n[[cluster.nodes]]\n".toList ++ identityLines n

/-- Write a configuration file. It fails if a number is too large for one. -/
def toml (c : Config) : Option String := do
  let maxMemory ← numberLine "max_memory_mb" c.maxMemory.toNat
  let ticks ← numberLine "tps" c.ticksPerSecond.toNat
  let answerTimeout ← numberLine "rpc_timeout_ms" c.answerTimeout.toNat
  let startPort ← numberLine "start_port" c.workers.startPort.toNat
  let stopTimeout ← numberLine "stop_timeout_ms" c.workers.stopTimeout.toNat
  let logLines ← numberLine "log_cache_lines" c.workers.logLines.toNat
  let enabled := if c.certificates.enabled then "enabled = true\n" else "enabled = false\n"
  return String.ofList <|
    maxMemory ++ ticks ++ textLine "data_dir" c.dataDirectory ++ answerTimeout ++
    header "identity" ++ identityLines c.identity ++
    header "cluster" ++ textLine "secret" c.cluster.secret ++ peerLines c.cluster.nodes ++
    header "tls" ++ enabled.toList ++ optionalLine "cert" c.certificates.certificate ++
      optionalLine "key" c.certificates.key ++ optionalLine "ca" c.certificates.authority ++
    header "services" ++ startPort ++ textLine "working_dir" c.workers.directory ++ stopTimeout ++
      logLines

end Config

end WorkerCluster
