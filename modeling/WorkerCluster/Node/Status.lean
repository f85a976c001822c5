import WorkerCluster.Node.Identity

/-!
# Status of nodes

What a node tells its peers about itself from time to time, and the two measures by which nodes
are compared:

* `NodeStatus.headroom` is the memory that has not been promised yet, negative if too much has been;
* `NodeStatus.load` is the use of the processor, weighted by the number of workers.
-/

namespace WorkerCluster

open Json (Codec Field Fields)

/-- The resources that a process uses. -/
structure ProcessUsage where
  /-- The id of the process. -/
  pid : UInt32 := 0
  /-- Resident memory in bytes. -/
  memoryBytes : UInt64 := 0
  /-- Virtual memory in bytes. -/
  virtualMemoryBytes : UInt64 := 0
  /-- Use of the processor, in percent of one core. -/
  cpuUsage : Binary64 := .zero
  /-- The number of threads. -/
  threads : UInt32 := 0
  deriving DecidableEq, Inhabited

/-- Usages are records. -/
def ProcessUsage.codec : Codec ProcessUsage :=
  Fields.record
    (.cons (.required "pid" .uint32) <|
     .cons (.required "memory_bytes" .uint64) <|
     .cons (.required "virtual_memory_bytes" .uint64) <|
     .cons (.required "cpu_usage" .float) <|
     .cons (.required "threads" .uint32) <|
     .nil)
    (fun u => (u.pid, u.memoryBytes, u.virtualMemoryBytes, u.cpuUsage, u.threads, ()))
    (fun (pid, memoryBytes, virtualMemoryBytes, cpuUsage, threads, _) =>
      { pid, memoryBytes, virtualMemoryBytes, cpuUsage, threads })

instance : Json.Coded ProcessUsage := ⟨ProcessUsage.codec⟩

/-- The state of a node at a point in time. -/
structure NodeStatus where
  /-- When it was taken, in milliseconds since 1970. -/
  timestamp : UInt64
  node : NodeIdentity
  /-- The version of the program. -/
  version : String
  /-- How many workers the node owns. -/
  workerCount : UInt32
  /-- Memory promised to running workers, in MiB. -/
  usedMemory : UInt64
  /-- Memory promised to all workers, in MiB. -/
  reservedMemory : UInt64
  /-- Memory that may be promised to workers, in MiB. -/
  maxMemory : UInt64
  /-- What the process of the node itself uses. -/
  process : ProcessUsage
  deriving DecidableEq, Inhabited

namespace NodeStatus

/-- Statuses are records. -/
def codec : Codec NodeStatus :=
  Fields.record
    (.cons (.required "timestamp_ms" .uint64) <|
     .cons (.required "node" NodeIdentity.codec) <|
     .cons (.required "version" .string) <|
     .cons (.required "service_count" .uint32) <|
     .cons (.required "used_memory_mb" .uint64) <|
     .cons (.required "reserved_memory_mb" .uint64) <|
     .cons (.required "max_memory_mb" .uint64) <|
     .cons (.required "process" ProcessUsage.codec) <|
     .nil)
    (fun s => (s.timestamp, s.node, s.version, s.workerCount, s.usedMemory, s.reservedMemory,
      s.maxMemory, s.process, ()))
    (fun (timestamp, node, version, workerCount, usedMemory, reservedMemory, maxMemory, process,
        _) =>
      { timestamp, node, version, workerCount, usedMemory, reservedMemory, maxMemory, process })

instance : Json.Coded NodeStatus := ⟨NodeStatus.codec⟩

/-- The largest amount of memory that comparisons tell from larger ones. -/
def memoryLimit : Nat := 0x7fffffffffffffff

/-- Memory that has not been promised yet. Amounts beyond the limit count as the limit. -/
def headroom (s : NodeStatus) : Int :=
  (min s.maxMemory.toNat memoryLimit : Int) - (min s.reservedMemory.toNat memoryLimit : Nat)

/-- Use of the processor, times the number of workers. -/
def load (s : NodeStatus) : Binary64 := s.process.cpuUsage.mul (.ofNat s.workerCount.toNat)

end NodeStatus

end WorkerCluster
