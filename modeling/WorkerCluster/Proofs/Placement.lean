import Mathlib.Data.Finset.Max
import Mathlib.Tactic
import WorkerCluster.Placement

/-!
# Who places an instance

Every node decides for itself whether it places an instance of a task. A node leaves that to
others if one of them beats it.

* `beats_iff` says when a node beats another one; `beats_trans` carries that on.
* `Cluster` is a number of nodes of which each sees all others. `Cluster.competes_iff` says which of
  them compete.
* `Cluster.exists_winner` finds, above a node that does not compete, one that does.
* `somebody_places` is the main statement: of the nodes that a task admits some compete, and they
  are those which no other one beats.
-/

namespace WorkerCluster

namespace Placement

variable {a b c : NodeStatus} {t : TaskSpec}

/-! ### The order of nodes -/

theorem beats_iff :
    beats a b = true ↔ b.headroom < a.headroom ∧ a.load.lt b.load = true := by
  rw [beats, Bool.and_eq_true, decide_eq_true_iff]

theorem beats_irrefl (a : NodeStatus) : beats a a = false := by
  rw [← Bool.not_eq_true, beats_iff]
  exact fun wins => lt_irrefl _ wins.1

theorem beats_trans (ab : beats a b = true) (bc : beats b c = true) : beats a c = true := by
  rw [beats_iff] at ab bc ⊢
  exact ⟨bc.1.trans ab.1, Binary64.lt_trans ab.2 bc.2⟩

/-- A node competes if no peer beats it that may own an instance and has said something. -/
theorem competes_eq_true_iff {candidates : List Candidate} :
    competes t a candidates = true ↔ ∀ c ∈ candidates, c.connected = true → c.node ≠ a.node.id →
      t.admits c.node = true → ∀ s, c.status = some s → beats s a = false := by
  unfold competes eligiblePeers
  simp only [List.all_eq_true, List.mem_filter, Bool.and_eq_true, bne_iff_ne]
  constructor
  · intro unbeaten c mem connected other admitted s status
    have := unbeaten c ⟨mem, ⟨connected, other⟩, admitted⟩
    rw [status] at this
    simpa using this
  · rintro unbeaten c ⟨mem, ⟨connected, other⟩, admitted⟩
    cases status : c.status with
    | none => rfl
    | some s => simp [unbeaten c mem connected other admitted s status]

/-! ### Nodes that see each other -/

/-- Nodes of which each has said something about itself and sees all others as connected, with what
they have said. -/
structure Cluster where
  nodes : Finset NodeId
  /-- What a node says about itself. -/
  status : NodeId → NodeStatus
  named : ∀ i ∈ nodes, (status i).node.id = i
  /-- What a node sees of the others. -/
  candidates : NodeId → List Candidate
  /-- Those that it sees as connected are the other nodes. -/
  sees : ∀ i ∈ nodes, ∀ c : Candidate, c.connected = true → c.node ≠ i →
    (c ∈ candidates i ↔ ∃ j ∈ nodes, c = ⟨j, true, some (status j)⟩)

namespace Cluster

variable {k : Cluster} {i : NodeId}

/-- Whether a node places an instance of a task itself. -/
def competes (k : Cluster) (t : TaskSpec) (i : NodeId) : Bool :=
  Placement.competes t (k.status i) (k.candidates i)

/-- Some nodes, given what each says about itself. -/
def ofList (nodes : List NodeId) (status : NodeId → NodeStatus)
    (named : ∀ i, (status i).node.id = i) : Cluster where
  nodes := nodes.toFinset
  status
  named i _ := named i
  candidates i := (nodes.filter (· ≠ i)).map fun j => ⟨j, true, some (status j)⟩
  sees i _ c _ other := by
    simp only [List.mem_map, List.mem_filter, List.mem_toFinset, decide_eq_true_iff]
    constructor
    · rintro ⟨j, ⟨mem, -⟩, rfl⟩
      exact ⟨j, mem, rfl⟩
    · rintro ⟨j, mem, rfl⟩
      exact ⟨j, ⟨mem, other⟩, rfl⟩

/-- A node competes if it is beaten by no other one that the task admits. -/
theorem competes_iff (mem : i ∈ k.nodes) : k.competes t i = true ↔
    ∀ j ∈ k.nodes, j ≠ i → t.admits j = true → beats (k.status j) (k.status i) = false := by
  rw [competes, competes_eq_true_iff]
  constructor
  · intro unbeaten j memj other admitted
    have seen := (k.sees i mem ⟨j, true, some (k.status j)⟩ rfl other).2 ⟨j, memj, rfl⟩
    exact unbeaten _ seen rfl ((k.named i mem).symm ▸ other) admitted _ rfl
  · intro unbeaten c memc connected other admitted s status
    rw [k.named i mem] at other
    obtain ⟨j, memj, rfl⟩ := (k.sees i mem c connected other).1 memc
    obtain rfl := Option.some.inj status
    exact unbeaten j memj other admitted

/-- A node competes itself, or is beaten by one that does. -/
theorem exists_winner (mem : i ∈ k.nodes) (admitted : t.admits i = true) :
    ∃ j ∈ k.nodes, t.admits j = true ∧ k.competes t j = true ∧
      (j = i ∨ beats (k.status j) (k.status i) = true) := by
  -- of the nodes that beat this one, and this one, one that has the most memory left
  let above := k.nodes.filter fun j =>
    t.admits j = true ∧ (j = i ∨ beats (k.status j) (k.status i) = true)
  have self : i ∈ above := Finset.mem_filter.2 ⟨mem, admitted, .inl rfl⟩
  obtain ⟨j, memj, most⟩ := above.exists_max_image (fun j => (k.status j).headroom) ⟨i, self⟩
  obtain ⟨inside, admits, better⟩ := Finset.mem_filter.1 memj
  refine ⟨j, inside, admits, (competes_iff inside).2 fun l meml _ admitsl => ?_, better⟩
  rw [← Bool.not_eq_true]
  intro beaten
  have higher : beats (k.status l) (k.status i) = true := by
    rcases better with rfl | better
    · exact beaten
    · exact beats_trans beaten better
  have bound := most l (Finset.mem_filter.2 ⟨meml, admitsl, .inr higher⟩)
  exact absurd (beats_iff.1 beaten).1 (not_lt.2 bound)

end Cluster

/-- **Somebody always places.** If a task admits one of some nodes that see each other, one that it
admits competes; and those that it admits compete exactly if no other one beats them. -/
theorem somebody_places (k : Cluster) (t : TaskSpec) (admitted : ∃ i ∈ k.nodes, t.admits i = true) :
    (∃ i ∈ k.nodes, t.admits i = true ∧ k.competes t i = true) ∧
      ∀ i ∈ k.nodes, t.admits i = true → (k.competes t i = true ↔
        ∀ j ∈ k.nodes, j ≠ i → t.admits j = true →
          beats (k.status j) (k.status i) = false) := by
  refine ⟨?_, fun i mem _ => Cluster.competes_iff mem⟩
  obtain ⟨i, mem, admits⟩ := admitted
  obtain ⟨j, memj, admitsj, wins, -⟩ := Cluster.exists_winner mem admits
  exact ⟨j, memj, admitsj, wins⟩

/-! ### A small cluster -/

/-- What a node says about itself that has some memory left and one worker. -/
def oneWorker (i : NodeId) (memory : UInt64) (usage : Nat) : NodeStatus :=
  { (default : NodeStatus) with
    node := ⟨i, []⟩
    workerCount := 1
    maxMemory := memory
    process := { cpuUsage := .ofNat usage } }

/-- The second node beats the first one, the third one is busy, the fourth one beats them all. -/
def fourStatus (i : NodeId) : NodeStatus :=
  if i = "node-1" then oneWorker i 1024 50
  else if i = "node-2" then oneWorker i 2048 20
  else if i = "node-3" then oneWorker i 4096 70
  else oneWorker i 8192 10

def fourNodes : Cluster :=
  .ofList ["node-1", "node-2", "node-3", "node-4"] fourStatus fun i => by
    unfold fourStatus
    split_ifs <;> rfl

/-- A task that the fourth node may not own. -/
def threeNodeTask : TaskSpec :=
  { (default : TaskSpec) with nodes := ["node-1", "node-2", "node-3"] }

/-- Two nodes place an instance, of which neither beats the other. -/
theorem two_place : (∃ i ∈ fourNodes.nodes, threeNodeTask.admits i = true) ∧
    (∃ i ∈ fourNodes.nodes, threeNodeTask.admits i = true ∧
      fourNodes.competes threeNodeTask i = true) ∧
    fourNodes.competes threeNodeTask "node-1" = false ∧
    fourNodes.competes threeNodeTask "node-2" = true ∧
    fourNodes.competes threeNodeTask "node-3" = true := by
  have admitted : ∃ i ∈ fourNodes.nodes, threeNodeTask.admits i = true :=
    ⟨"node-1", by decide, by decide⟩
  obtain ⟨somebody, exactly⟩ := somebody_places fourNodes threeNodeTask admitted
  refine ⟨admitted, somebody, ?_, ?_, ?_⟩
  · rw [← Bool.not_eq_true, exactly "node-1" (by decide) (by decide)]
    exact fun unbeaten => absurd (unbeaten "node-2" (by decide) (by decide) (by decide))
      (by decide +kernel)
  · exact (exactly "node-2" (by decide) (by decide)).2 (by decide +kernel)
  · exact (exactly "node-3" (by decide) (by decide)).2 (by decide +kernel)

end Placement

end WorkerCluster
