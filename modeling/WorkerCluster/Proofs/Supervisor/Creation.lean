import Mathlib.Order.Bounds.Basic
import WorkerCluster.Proofs.Name
import WorkerCluster.Proofs.Supervisor.Budget
import WorkerCluster.Proofs.Supervisor.History

/-!
# Making workers

* `isLeast_firstFree` says what the search for a free number finds.
* `Supervisor.freeNumbers` and `Supervisor.freePorts` are what a new worker may get.
  `isLeast_nextNumber` and `allocatePort_eq_some_iff` say that it gets the smallest of each.
* `Supervisor.CanCreate` says when a worker can be made from a plan, `Supervisor.Created` what it is
  then and what becomes of the supervisor. `create_exact` is the main statement: a worker is made
  exactly then, and otherwise nothing happens.
-/

namespace WorkerCluster

/-! ### The search for a free number -/

section

variable (taken : List ℕ)

/-- The numbers that are passed over are taken, and so is the last one unless it is free or all
tries are used up. -/
theorem firstFree_go_spec (tries start : ℕ) :
    start ≤ firstFree.go taken tries start ∧
      firstFree.go taken tries start ≤ start + tries ∧
      (∀ k, start ≤ k → k < firstFree.go taken tries start → k ∈ taken) ∧
      (firstFree.go taken tries start ∈ taken →
        firstFree.go taken tries start = start + tries) := by
  induction tries generalizing start with
  | zero =>
    rw [firstFree.go]
    exact ⟨le_rfl, le_rfl, fun k from_ below => absurd from_ (not_le.2 below), fun _ => rfl⟩
  | succ tries ih =>
    rw [firstFree.go]
    split
    · next h =>
      have used : start ∈ taken := List.contains_iff_mem.1 h
      obtain ⟨lower, upper, passed, last⟩ := ih (start + 1)
      refine ⟨by omega, by omega, fun k from_ below => ?_, fun mem => by have := last mem; omega⟩
      obtain rfl | above := eq_or_lt_of_le from_
      · exact used
      · exact passed k above below
    · next h =>
      refine ⟨le_rfl, by omega, fun k from_ below => absurd from_ (not_le.2 below), fun mem => ?_⟩
      exact absurd (List.contains_iff_mem.2 mem) h

/-- Among as many numbers as are taken and one more, one is free. -/
theorem not_all_taken (start : ℕ) : ∃ k, start ≤ k ∧ k ≤ start + taken.length ∧ k ∉ taken := by
  by_contra all
  push Not at all
  have sub : List.range' start (taken.length + 1) ⊆ taken := fun k mem => by
    obtain ⟨i, lt, rfl⟩ := List.mem_range'.1 mem
    exact all _ (by omega) (by omega)
  have := (List.subperm_of_subset List.nodup_range' sub).length_le
  rw [List.length_range'] at this
  omega

/-- **The search finds the smallest number from the start on that is not taken.** -/
theorem isLeast_firstFree (start : ℕ) :
    IsLeast {n | start ≤ n ∧ n ∉ taken} (firstFree taken start) := by
  obtain ⟨lower, -, passed, last⟩ := firstFree_go_spec taken taken.length start
  have smallest : ∀ k, start ≤ k → k ∉ taken → firstFree taken start ≤ k := fun k from_ free =>
    not_lt.1 fun below => free (passed k from_ below)
  refine ⟨⟨lower, fun mem => ?_⟩, fun k h => smallest k h.1 h.2⟩
  -- otherwise all tries would have been used up, and all numbers up to there would be taken
  obtain ⟨k, from_, upTo, free⟩ := not_all_taken taken start
  obtain rfl | below := eq_or_lt_of_le upTo
  · exact free (last mem ▸ mem)
  · exact absurd (smallest k from_ free) (by rw [firstFree, last mem]; omega)

theorem firstFree_le (start : ℕ) : firstFree taken start ≤ start + taken.length :=
  (firstFree_go_spec taken taken.length start).2.1

end

namespace Supervisor

variable {s t : Supervisor} {plan : WorkerPlan} {preferred port : UInt16}

/-! ### Numbers and ports -/

/-- The numbers, from 1, that no instance of a task has, on whatever node. -/
def freeNumbers (s : Supervisor) (task : String) : Set ℕ :=
  {k | 0 < k ∧ ∀ w ∈ s.records, w.task = task → w.id.number.toNat ≠ k}

/-- The ports, from a preferred one on, that no worker of the node has. -/
def freePorts (s : Supervisor) (preferred : UInt16) : Set ℕ :=
  {p | preferred.toNat ≤ p ∧ p < UInt16.size ∧ ∀ w ∈ s.ownedRecords, w.address.port.toNat ≠ p}

/-- **A new instance gets the smallest free number**, as long as fewer workers are known than there
are numbers. -/
theorem isLeast_nextNumber (few : s.records.length < UInt32.size - 1) (task : String) :
    IsLeast (s.freeNumbers task) (s.nextNumber task).toNat := by
  let taken := (s.records.filter (·.task = task)).map (·.id.number.toNat)
  have bound : firstFree taken 1 ≤ UInt32.size - 1 := by
    have le : taken.length ≤ s.records.length := by
      rw [List.length_map]
      exact List.length_filter_le ..
    have := firstFree_le taken 1
    omega
  have number : (s.nextNumber task).toNat = firstFree taken 1 := by
    show (min (firstFree taken 1) (UInt32.size - 1)).toUInt32.toNat = _
    rw [min_eq_left bound]
    exact UInt32.toNat_ofNat_of_lt' (by omega)
  have free : s.freeNumbers task = {n | 1 ≤ n ∧ n ∉ taken} := by
    ext k
    simp [freeNumbers, taken, Nat.succ_le_iff]
  rw [number, free]
  exact isLeast_firstFree taken 1

/-- What the search for a port finds is a port, or there is none. -/
theorem firstFree_port_cases (s : Supervisor) (preferred : UInt16) :
    let found := firstFree (s.owned.values.map (·.record.address.port.toNat)) preferred.toNat
    if found < UInt16.size then IsLeast (s.freePorts preferred) found
    else s.freePorts preferred = ∅ := by
  intro found
  obtain ⟨⟨from_, free⟩, smallest⟩ :=
    isLeast_firstFree (s.owned.values.map (·.record.address.port.toNat)) preferred.toNat
  have free_iff {p : ℕ} : p ∉ s.owned.values.map (·.record.address.port.toNat) ↔
      ∀ w ∈ s.ownedRecords, w.address.port.toNat ≠ p := by
    simp [ownedRecords]
  have lower : ∀ p ∈ s.freePorts preferred, found ≤ p := fun p h =>
    smallest ⟨h.1, free_iff.2 h.2.2⟩
  split
  · next lt => exact ⟨⟨from_, lt, free_iff.1 free⟩, lower⟩
  · next ge =>
    refine Set.eq_empty_of_forall_notMem fun p h => ge ?_
    exact (lower p h).trans_lt h.2.1

/-- **A new worker gets the smallest free port.** -/
theorem allocatePort_eq_some_iff :
    s.allocatePort preferred = some port ↔ IsLeast (s.freePorts preferred) port.toNat := by
  have spec := firstFree_port_cases s preferred
  unfold allocatePort
  dsimp only at spec ⊢
  split at spec
  · next lt =>
    rw [if_pos lt, Option.some.injEq]
    have word : (firstFree (s.owned.values.map (·.record.address.port.toNat))
        preferred.toNat).toUInt16.toNat = _ := UInt16.toNat_ofNat_of_lt' lt
    constructor
    · rintro rfl
      rwa [word]
    · intro least
      rw [← UInt16.toNat_inj, word]
      exact spec.unique least
  · next ge =>
    rw [if_neg ge, spec]
    exact iff_of_false nofun fun least => least.1

theorem allocatePort_eq_none_iff : s.allocatePort preferred = none ↔ s.freePorts preferred = ∅ := by
  have spec := firstFree_port_cases s preferred
  unfold allocatePort
  dsimp only at spec ⊢
  split at spec
  · next lt =>
    rw [if_pos lt]
    exact iff_of_false nofun fun none => by rw [none] at spec; exact spec.1
  · next ge => exact iff_of_true (if_neg ge) spec

/-! ### Plans that are followed -/

/-- A worker can be made from a plan. -/
structure CanCreate (s : Supervisor) (plan : WorkerPlan) : Prop where
  /-- The plan is one of an instance of a task. -/
  name : IsName plan.task
  /-- It names no other node. -/
  owner : ∀ node ∈ plan.owner, node = s.node.id
  /-- There is more to the command than blanks. -/
  command : ∃ c ∈ plan.program.command.toList, Text.isBlank c = false
  /-- The worker is to have some memory. -/
  memory : 0 < plan.program.memory.toNat
  /-- There is as much memory left. -/
  room : s.promised + plan.program.memory.toNat ≤ s.settings.maxMemory.toNat
  /-- There is a port left. -/
  port : (s.freePorts (plan.port.getD s.settings.startPort)).Nonempty

/-- What there is once a worker has been made from a plan: its record and the state after that. -/
structure Created (s : Supervisor) (plan : WorkerPlan) (r : WorkerRecord) (t : Supervisor) :
    Prop where
  /-- The worker has the id that was drawn. -/
  uuid : r.uuid = s.host.ids.draw.1
  /-- Of the numbers that no known instance of the task has it has the smallest. -/
  number : IsLeast (s.freeNumbers plan.task) r.id.number.toNat
  /-- Of the ports that no worker of the node has it has the smallest, from the preferred one on. -/
  port : IsLeast (s.freePorts (plan.port.getD s.settings.startPort)) r.address.port.toNat
  /-- It is prepared, and everything else is as the plan and the node have it. -/
  record : r =
    { created := s.host.now
      id := ⟨r.uuid, plan.task, r.id.number, s.node.id⟩
      address := ⟨s.advertisedHost, r.address.port⟩
      connected := false
      lifecycle := .prepared
      process := {}
      plan := { plan with owner := some s.node.id, port := some r.address.port }
      properties := plan.properties }
  /-- It is a new one beside all others, without a process, and with nothing queued. -/
  worker : ∃ w, w.record = r ∧ w.process = none ∧ w.logs.lines = [] ∧ w.templates = [] ∧
    w.inclusions = [] ∧ w.deployments = [] ∧ t.owned = s.owned.insert r.uuid w
  /-- Everything that is known of workers stays known. -/
  kept : ∀ id v, s.record? id = some v → t.record? id = some v
  /-- Apart from that only the id is used up, and the record is told. -/
  rest : t = { s with
    owned := t.owned
    host := { s.host with ids := s.host.ids.draw.2 }
    outbox := s.outbox ++ [r] }

theorem accepts_iff : s.accepts plan = true ↔
    IsName plan.task ∧ (∀ node ∈ plan.owner, node = s.node.id) ∧
      (∃ c ∈ plan.program.command.toList, Text.isBlank c = false) ∧
      0 < plan.program.memory.toNat := by
  have owner : plan.owner.all (· == s.node.id) = true ↔ ∀ node ∈ plan.owner, node = s.node.id := by
    simp [Option.all_eq_true]
  have command : (!Text.isBlankText plan.program.command) = true ↔
      ∃ c ∈ plan.program.command.toList, Text.isBlank c = false := by
    simp [Text.isBlankText]
  have memory : (plan.program.memory != 0) = true ↔ 0 < plan.program.memory.toNat := by
    rw [bne_iff_ne, Nat.pos_iff_ne_zero, ne_eq, ne_eq, ← UInt64.toNat_inj]
    rfl
  rw [accepts, Bool.and_eq_true, Bool.and_eq_true, Bool.and_eq_true, isValidName_iff, owner,
    command, memory, and_assoc, and_assoc]

/-- What is checked, and what is found then, is that a worker can be made. -/
theorem canCreate_iff (within : s.WithinBudget) : s.CanCreate plan ↔
    s.accepts plan = true ∧ s.hasMemory plan = true ∧
      ∃ port, s.allocatePort (plan.port.getD s.settings.startPort) = some port := by
  have room : s.hasMemory plan = true ↔
      s.promised + plan.program.memory.toNat ≤ s.settings.maxMemory.toNat := by
    rw [hasMemory, decide_eq_true_iff, within.reserved_eq]
  have ports : (∃ port, s.allocatePort (plan.port.getD s.settings.startPort) = some port) ↔
      (s.freePorts (plan.port.getD s.settings.startPort)).Nonempty := by
    rw [Set.nonempty_iff_ne_empty, ne_eq, ← allocatePort_eq_none_iff, ← ne_eq,
      Option.ne_none_iff_exists']
  rw [accepts_iff, room, ports]
  constructor
  · rintro ⟨name, owner, command, memory, room, port⟩
    exact ⟨⟨name, owner, command, memory⟩, room, port⟩
  · rintro ⟨⟨name, owner, command, memory⟩, room, port⟩
    exact ⟨name, owner, command, memory, room, port⟩

/-! ### What is made -/

theorem create_of_room (accepted : s.accepts plan = true) (room : s.hasMemory plan = true)
    (free : s.allocatePort (plan.port.getD s.settings.startPort) = some port) :
    s.create plan =
      (some (s.newWorker plan s.host.ids.draw.1 port).record, s.withNew plan port) := by
  rw [create, if_neg (by simp [accepted, room]), free]
  rfl

/-- Whoever is known stays known when a worker is made under an id that nobody has. -/
theorem record?_insert {id : Uuid} {w : OwnedWorker} (owned : t.owned = s.owned.insert id w)
    (remote : t.remote = s.remote) (fresh : s.record? id = none) {id' : Uuid} {v : WorkerRecord}
    (known : s.record? id' = some v) : t.record? id' = some v := by
  have other : id' ≠ id := by
    rintro rfl
    rw [fresh] at known
    cases known
  rw [← known, record?, record?, owned, remote, SortedMap.find?_insert, if_neg other]

/-- **A worker is made exactly if it can be.** In every reachable state in which fewer workers are
known than there are numbers, and under every id that none of them has: if a worker can be made from
a plan, it is made and told; otherwise nothing happens. -/
theorem create_exact {node : NodeIdentity} {settings : Settings} (h : Reachable node settings s)
    (few : s.records.length < UInt32.size - 1) (fresh : s.record? s.host.ids.draw.1 = none)
    (plan : WorkerPlan) :
    (s.CanCreate plan → ∃ r t, s.create plan = (some r, t) ∧ s.Created plan r t) ∧
      (¬ s.CanCreate plan → s.create plan = (none, s)) := by
  rw [canCreate_iff h.withinBudget]
  constructor
  · rintro ⟨accepted, room, port, free⟩
    refine ⟨_, _, create_of_room accepted room free, ?_⟩
    exact {
      uuid := rfl
      number := isLeast_nextNumber few plan.task
      port := allocatePort_eq_some_iff.1 free
      record := rfl
      worker := ⟨s.newWorker plan s.host.ids.draw.1 port, rfl, rfl, rfl, rfl, rfl, rfl, rfl⟩
      kept := fun _ _ known => record?_insert (t := s.withNew plan port) rfl rfl fresh known
      rest := rfl }
  · intro cannot
    obtain refused | ⟨port, accepted, room, free, -⟩ := create_cases s plan
    · exact refused
    · exact absurd ⟨accepted, room, port, free⟩ cannot

/-- An instance of a task is made when one of another node is known and one of this node runs: it
gets the second number and the second port. -/
theorem create_lobby : (Reachable lobbyNode lobbySettings lobby ∧
      lobby.records.length < UInt32.size - 1 ∧ lobby.record? lobby.host.ids.draw.1 = none) ∧
    lobby.CanCreate lobbyPlan ∧
    ∃ r t, lobby.create lobbyPlan = (some r, t) ∧ lobby.Created lobbyPlan r t ∧
      r.id.number = 2 ∧ r.address.port = 30001 := by
  have few : lobby.records.length < UInt32.size - 1 := by decide
  have fresh : lobby.record? lobby.host.ids.draw.1 = none := by
    rw [← Option.isNone_iff_eq_none]
    decide
  have can : lobby.CanCreate lobbyPlan :=
    (canCreate_iff reachable_lobby.withinBudget).2 ⟨by decide, by decide, 30001, by decide⟩
  obtain ⟨r, t, made, created⟩ := (create_exact reachable_lobby few fresh lobbyPlan).1 can
  refine ⟨⟨reachable_lobby, few, fresh⟩, can, r, t, made, created, ?_⟩
  have record : r = ((lobby.create lobbyPlan).1.get (by decide)) := by simp [made]
  rw [record]
  decide

end Supervisor

end WorkerCluster
