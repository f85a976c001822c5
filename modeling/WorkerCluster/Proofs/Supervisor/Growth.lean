import WorkerCluster.Proofs.Supervisor.Creation
import WorkerCluster.Proofs.Supervisor.Starting

/-!
# Supervisors with more workers

* `Supervisor.Grown` says that from one state to another workers have been made and started, and
  that nothing has happened to anybody else.
* What there is then follows from what there was: `Grown.mem_iff`, `Grown.record?`, `Grown.count`,
  `Grown.create_none`, `Grown.cannotLaunch_iff`.
* `grown_start` is the single step: a worker is made and started.
-/

namespace WorkerCluster

namespace Supervisor

/-- Nothing has happened from one state to the other but that workers have been made, and started if
they could be. -/
structure Grown (made : List (Uuid × OwnedWorker)) (s t : Supervisor) : Prop where
  owned : t.owned.entries.Perm (made ++ s.owned.entries)
  remote : t.remote = s.remote
  node : t.node = s.node
  settings : t.settings = s.settings
  failing : t.launcher.failing = s.launcher.failing
  files : t.host.files.files = s.host.files.files

/-- A worker that has been made and was to be started runs if it could be launched, and is prepared
otherwise. -/
structure Begun (s : Supervisor) (w : OwnedWorker) : Prop where
  running : ¬ s.CannotLaunch w → w.record.lifecycle = .running
  prepared : s.CannotLaunch w → w.record.lifecycle = .prepared

variable {s t u : Supervisor} {id : Uuid} {w : OwnedWorker} {plan : WorkerPlan}
  {made made' : List (Uuid × OwnedWorker)}

/-- An id that nobody has is none of a worker of the node. -/
theorem find?_owned_eq_none (unknown : s.record? id = none) : s.owned.find? id = none := by
  rw [record?] at unknown
  split at unknown
  · cases unknown
  · assumption

namespace Grown

theorem refl (s : Supervisor) : Grown [] s s := ⟨.refl _, rfl, rfl, rfl, rfl, rfl⟩

theorem trans (h : Grown made s t) (h' : Grown made' t u) : Grown (made ++ made') s u where
  owned := by
    refine h'.owned.trans ((h.owned.append_left made').trans ?_)
    rw [← List.append_assoc]
    exact List.perm_append_comm.append_right _
  remote := h'.remote.trans h.remote
  node := h'.node.trans h.node
  settings := h'.settings.trans h.settings
  failing := h'.failing.trans h.failing
  files := h'.files.trans h.files

/-- It does not matter what there is to tell. -/
theorem tell (h : Grown made s t) (outbox : List WorkerRecord) : Grown made s { t with outbox } :=
  ⟨h.owned, h.remote, h.node, h.settings, h.failing, h.files⟩

/-! ### Who is there -/

theorem mem_iff (h : Grown made s t) :
    t.owned.find? id = some w ↔ (id, w) ∈ made ∨ s.owned.find? id = some w := by
  rw [← SortedMap.mem_entries, h.owned.mem_iff, List.mem_append, SortedMap.mem_entries]

/-- Whoever is found after that under an id that is none of a new worker was found before. -/
theorem find?_eq_none (h : Grown made s t) (before : s.owned.find? id = none)
    (other : id ∉ made.map Prod.fst) : t.owned.find? id = none := by
  refine Option.eq_none_iff_forall_not_mem.2 fun w found => ?_
  obtain new | old := h.mem_iff.1 found
  · exact other (List.mem_map.2 ⟨_, new, rfl⟩)
  · rw [before] at old
    cases old

/-- Whoever was known stays known, if the new workers have ids that nobody had. -/
theorem record? (h : Grown made s t) (fresh : ∀ id ∈ made.map Prod.fst, s.record? id = none)
    {r : WorkerRecord} (known : s.record? id = some r) : t.record? id = some r := by
  cases found : s.owned.find? id with
  | some w =>
    rw [Supervisor.record?, found] at known
    rw [Supervisor.record?, h.mem_iff.2 (.inr found)]
    exact known
  | none =>
    have other : id ∉ made.map Prod.fst := fun new => by
      rw [fresh id new] at known
      cases known
    rw [Supervisor.record?, found] at known
    rw [Supervisor.record?, h.find?_eq_none found other, h.remote]
    exact known

theorem ownedRecords (h : Grown made s t) :
    t.ownedRecords.Perm (made.map (·.2.record) ++ s.ownedRecords) := by
  have records (m : SortedMap Uuid OwnedWorker) :
      m.values.map (·.record) = m.entries.map (·.2.record) := by
    rw [SortedMap.values, List.map_map]
    rfl
  rw [Supervisor.ownedRecords, Supervisor.ownedRecords, records, records, ← List.map_append]
  exact h.owned.map _

/-- New workers are counted beside the others. -/
theorem count (h : Grown made s t) (task : String) :
    t.count task = (made.filter (·.2.record.task = task)).length + s.count task := by
  have records : t.records.Perm (made.map (·.2.record) ++ s.records) := by
    rw [Supervisor.records, Supervisor.records, h.remote, ← List.append_assoc]
    exact h.ownedRecords.append_right _
  rw [Supervisor.count, (records.filter _).length_eq, List.filter_append, List.length_append,
    List.filter_map, List.length_map]
  rfl

/-! ### What is left -/

theorem promised_le (h : Grown made s t) : s.promised ≤ t.promised := by
  have memories (m : SortedMap Uuid OwnedWorker) :
      m.values.map (·.memory.toNat) = m.entries.map (·.2.memory.toNat) := by
    rw [SortedMap.values, List.map_map]
    rfl
  rw [promised, promised, memories, memories, (h.owned.map _).sum_eq, List.map_append,
    List.sum_append]
  exact Nat.le_add_left ..

theorem freePorts_subset (h : Grown made s t) (preferred : UInt16) :
    t.freePorts preferred ⊆ s.freePorts preferred := fun _ free =>
  ⟨free.1, free.2.1, fun r mem =>
    free.2.2 r (h.ownedRecords.mem_iff.2 (List.mem_append_right _ mem))⟩

/-- What could not be made before cannot be made now. -/
theorem create_none (h : Grown made s t) (refused : (s.create plan).1 = none) :
    (t.create plan).1 = none := by
  obtain now | ⟨port, accepted, room, free, -⟩ := create_cases t plan
  · rw [now]
  · have accepted : s.accepts plan = true := by rwa [accepts, h.node] at accepted
    have room : s.hasMemory plan = true := by
      have less : s.reserved ≤ t.reserved := by
        rw [reserved_eq_min, reserved_eq_min]
        exact min_le_min_right _ h.promised_le
      rw [hasMemory, decide_eq_true_iff, h.settings] at room
      exact decide_eq_true ((Nat.add_le_add_right less _).trans room)
    have free : ∃ port, s.allocatePort (plan.port.getD s.settings.startPort) = some port := by
      rw [h.settings] at free
      have one := h.freePorts_subset _ (allocatePort_eq_some_iff.1 free).1
      rw [← Option.ne_none_iff_exists', ne_eq, allocatePort_eq_none_iff]
      exact Set.Nonempty.ne_empty ⟨_, one⟩
    obtain ⟨port, free⟩ := free
    rw [create_of_room accepted room free] at refused
    cases refused

/-- Whether a process can be launched is the same as before. -/
theorem cannotLaunch_iff (h : Grown made s t) (w : OwnedWorker) :
    t.CannotLaunch w ↔ s.CannotLaunch w := by
  rw [CannotLaunch, CannotLaunch, h.failing, launchOf_congr h.node h.settings,
    FileTree.makeDirs_eq_none_congr h.files]

end Grown

/-! ### A worker is made and started -/

theorem perm_insert_of_erase {m : SortedMap Uuid OwnedWorker} (rest : m.erase id = s.owned) :
    (m.insert id w).entries.Perm ([(id, w)] ++ s.owned.entries) :=
  rest ▸ m.entries_insert_perm id w

/-- **A worker that has been made and is started then is a new one beside all others.** It runs, and
the start says so, if it can be launched; otherwise it is left as it was made. What there was to
tell may have been told in between. -/
theorem grown_start {r : WorkerRecord} (created : s.create plan = (some r, t))
    (fresh : s.owned.find? r.uuid = none) (outbox : List WorkerRecord) :
    ∃ w, Grown [(r.uuid, w)] s ({ t with outbox }.start r.uuid).2 ∧ w.record.task = plan.task ∧
      s.Begun w ∧ ({ t with outbox }.start r.uuid).1.isSome = w.record.isRunning := by
  obtain refused | ⟨port, accepted, room, free, -⟩ := create_cases s plan
  · rw [refused] at created
    cases created
  · rw [create_of_room accepted room free] at created
    obtain ⟨record, rfl⟩ := Prod.mk.inj created
    obtain rfl := Option.some.inj record
    let id := s.host.ids.draw.1
    let new := s.newWorker plan id port
    let made := { s.withNew plan port with outbox }
    have found : made.owned.find? id = some new := (SortedMap.find?_insert ..).trans (if_pos rfl)
    have started := start_of_down found (.inl rfl)
    -- nothing has been queued for a new worker, so the start goes on with the worker itself
    rw [OwnedWorker.applyQueued_eq_self.2 ⟨rfl, rfl, rfl⟩] at started
    change made.start new.record.uuid = _ at started
    have rest : (s.owned.insert id new).erase id = s.owned := by
      rw [SortedMap.erase_insert_self]
      exact SortedMap.erase_eq_self fresh
    have rest' : ((s.owned.insert id new).insert id new).erase id = s.owned := by
      rw [SortedMap.erase_insert_self, rest]
    rw [started]
    by_cases cannot : (made.setOwned id new).CannotLaunch new
    · obtain ⟨files, same, after⟩ := launch_of_cannot id cannot
      have begun : s.Begun new := ⟨fun can => absurd cannot can, fun _ => rfl⟩
      rw [after]
      exact ⟨new, ⟨perm_insert_of_erase rest, rfl, rfl, rfl, rfl, same⟩, rfl, begun, rfl⟩
    · obtain ⟨files, made, after⟩ := launch_of_can id cannot
      let launched := new.launched (s.launcher.runs.length + 1)
      have begun : s.Begun launched := ⟨fun _ => rfl, fun cannot' => absurd cannot' cannot⟩
      rw [after]
      exact ⟨launched, ⟨perm_insert_of_erase rest', rfl, rfl, rfl, rfl,
        FileTree.files_makeDirs made⟩, rfl, begun, rfl⟩

end Supervisor

end WorkerCluster
