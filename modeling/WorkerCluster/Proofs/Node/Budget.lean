import WorkerCluster.Proofs.Node.Turn
import WorkerCluster.Proofs.Supervisor.Budget

/-!
# The memory of a node

A node never promises more memory to its workers than it is configured with.
`memory_within_budget` is the statement about all nodes at all times.
-/

namespace WorkerCluster

namespace Node

variable {c : Config} {n : Node}

/-! ### All the time -/

/-- A node has not promised more memory than it is configured with, at any time. -/
theorem Reachable.withinBudget (h : Reachable c n) : n.supervisor.WithinBudget :=
  h.supervisor_ind (motive := Supervisor.WithinBudget) (fun _ => Nat.zero_le _)
    (fun _ _ hs turn => turn.withinBudget hs) (fun _ _ hs hearing => hearing.withinBudget hs)
    fun _ hs => hs

/-- The headroom in a status is not negative as long as no more is reserved than there is. -/
theorem headroom_nonneg {status : NodeStatus}
    (h : status.reservedMemory ≤ status.maxMemory) : 0 ≤ status.headroom := by
  have le : status.reservedMemory.toNat ≤ status.maxMemory.toNat := h
  unfold NodeStatus.headroom
  omega

/-- **A node never promises more memory than it is configured with.** Whatever has happened to it,
the exact sum of the memory of its workers is within the budget, so that no sum that it calculates
is cut off; the running workers have no more than all workers; and every status that it takes says
so and leaves a headroom that is not negative. -/
theorem memory_within_budget (h : Reachable c n) :
    n.supervisor.promised ≤ c.maxMemory.toNat ∧
      n.supervisor.reserved = n.supervisor.promised ∧
      n.supervisor.used ≤ n.supervisor.reserved ∧
      n.takeStatus.1.reservedMemory.toNat = n.supervisor.promised ∧
      n.takeStatus.1.usedMemory.toNat = n.supervisor.used ∧
      n.takeStatus.1.maxMemory = c.maxMemory ∧
      0 ≤ n.takeStatus.1.headroom := by
  have settings : n.supervisor.settings = c.settings := h.configured.settings
  have within : n.supervisor.WithinBudget := h.withinBudget
  have reserved : n.supervisor.reserved = n.supervisor.promised := within.reserved_eq
  have used : n.supervisor.used ≤ n.supervisor.reserved := n.supervisor.used_le_reserved
  have statusReserved : n.takeStatus.1.reservedMemory.toNat = n.supervisor.promised := by
    rw [← reserved]
    exact UInt64.toNat_ofNat_of_lt' (reserved ▸ within.lt_size)
  have statusUsed : n.takeStatus.1.usedMemory.toNat = n.supervisor.used :=
    UInt64.toNat_ofNat_of_lt' (used.trans_lt (reserved ▸ within.lt_size))
  have statusMax : n.takeStatus.1.maxMemory = c.maxMemory := congrArg Settings.maxMemory settings
  have budget : n.supervisor.promised ≤ c.maxMemory.toNat := by
    have within : n.supervisor.promised ≤ n.supervisor.settings.maxMemory.toNat := within
    rwa [settings] at within
  refine ⟨budget, reserved, used, statusReserved, statusUsed, statusMax, headroom_nonneg ?_⟩
  rw [UInt64.le_iff_toNat_le, statusReserved, statusMax]
  exact budget

/-! ### A small run -/

/-- A node that may promise as much memory as can be counted. -/
def vastConfig : Config :=
  { (default : Config) with identity := ⟨"node-1", []⟩, maxMemory := UInt64.ofNat (2 ^ 64 - 1) }

/-- The plan of a worker that is to have some memory. -/
def memoryPlan (memory : UInt64) : WorkerPlan :=
  { Supervisor.lobbyPlan with program := { Supervisor.lobbyPlan.program with memory } }

/-- Three workers are asked for, of which the second does not fit beside the first. -/
def crowding : List Move :=
  [2 ^ 64 - 2, 2, 1].map fun memory =>
    .errand (.handle (.create (memoryPlan (UInt64.ofNat memory))))

/-- The node before it is asked. -/
def vast : Node := (Node.new vastConfig {} {} {}).toOption.getD default

/-- The node that has been asked. -/
def crowded : Node := vast.run crowding

theorem reachable_crowded : Reachable vastConfig crowded :=
  Reachable.run (.start {} {} {} rfl) crowding

/-- Two workers fill the node to the last. -/
theorem crowded_within_budget :
    crowded.supervisor.owned.values.map (·.memory.toNat) = [2 ^ 64 - 2, 1] ∧
      crowded.supervisor.promised ≤ vastConfig.maxMemory.toNat ∧
      crowded.supervisor.reserved = crowded.supervisor.promised ∧
      crowded.supervisor.used ≤ crowded.supervisor.reserved ∧
      crowded.takeStatus.1.reservedMemory.toNat = crowded.supervisor.promised ∧
      crowded.takeStatus.1.usedMemory.toNat = crowded.supervisor.used ∧
      crowded.takeStatus.1.maxMemory = vastConfig.maxMemory ∧
      0 ≤ crowded.takeStatus.1.headroom :=
  ⟨by decide +kernel, memory_within_budget reachable_crowded⟩

end Node

end WorkerCluster
