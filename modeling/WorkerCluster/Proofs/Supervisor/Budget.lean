import WorkerCluster.Proofs.Supervisor.Sound

/-!
# The memory of workers

* `Supervisor.promised` is the sum of all that has been promised, however large it is.
* `Turn.withinBudget` is the step: only a new worker adds to that sum, and the check that it has to
  pass looks at the whole of it as long as nothing has been cut off.
* `Reachable.withinBudget` is what comes of it for all reachable states.
-/

namespace WorkerCluster

namespace Supervisor

variable {s t : Supervisor} {id : Uuid} {w v : OwnedWorker}

/-! ### Sums of memory -/

/-- The memory that has been promised to all workers of this node, however much it is. -/
def promised (s : Supervisor) : ℕ := (s.owned.values.map (·.memory.toNat)).sum

/-- No more memory has been promised than there is. -/
def WithinBudget (s : Supervisor) : Prop := s.promised ≤ s.settings.maxMemory.toNat

theorem total_eq_min_sum (l : List UInt64) :
    total l = min (l.map UInt64.toNat).sum (UInt64.size - 1) := by
  rw [total, List.sum_eq_foldr, List.foldr_map]

/-- What has been promised is added up to the largest amount that there is. -/
theorem reserved_eq_min (s : Supervisor) : s.reserved = min s.promised (UInt64.size - 1) := by
  rw [reserved, total_eq_min_sum, List.map_map]
  rfl

/-- Workers that run are among those to which memory has been promised. -/
theorem used_le_reserved (s : Supervisor) : s.used ≤ s.reserved := by
  have running : (s.owned.values.filter (·.record.isRunning)).Sublist s.owned.values :=
    List.filter_sublist
  rw [used, reserved, total_eq_min_sum, total_eq_min_sum]
  exact min_le_min_right _ (((running.map _).map _).sum_le_sum fun _ _ => Nat.zero_le _)

theorem WithinBudget.lt_size (h : s.WithinBudget) : s.promised < UInt64.size :=
  h.trans_lt s.settings.maxMemory.toNat_lt

/-- Nothing is cut off from a sum that is within the budget. -/
theorem WithinBudget.reserved_eq (h : s.WithinBudget) : s.reserved = s.promised := by
  rw [reserved_eq_min, min_eq_left (Nat.le_sub_one_of_lt h.lt_size)]

/-! ### One turn -/

theorem promised_insert (ht : t.owned = s.owned.insert id w) :
    t.promised = w.memory.toNat + ((s.owned.erase id).values.map (·.memory.toNat)).sum := by
  rw [promised, ht, SortedMap.sum_insert]

/-- A worker that changes but keeps its memory does not count for more. -/
theorem promised_replace (found : s.owned.find? id = some w)
    (ht : t.owned = s.owned.insert id v) (same : v.memory = w.memory) :
    t.promised = s.promised := by
  rw [promised_insert ht, same, promised, SortedMap.sum_erase _ found]

theorem promised_erase_le (ht : t.owned = s.owned.erase id) : t.promised ≤ s.promised := by
  rw [promised, ht]
  exact SortedMap.sum_erase_le ..

theorem promised_congr (ht : t.owned = s.owned) : t.promised = s.promised := by
  rw [promised, ht, promised]

@[simp] theorem memory_ended (l : Launcher) (force : Bool) (w : OwnedWorker) :
    (ended l force w).1.memory = w.memory := by
  rw [OwnedWorker.memory, ended_record]
  rfl

/-- There is room for a new worker beside all that has been promised, also if it takes the place of
another one. -/
theorem WithinBudget.create {plan : WorkerPlan} (h : s.WithinBudget)
    (room : s.hasMemory plan = true) (ht : t.owned = s.owned.insert id w)
    (memory : w.memory = plan.program.memory) : t.promised ≤ s.settings.maxMemory.toNat := by
  have room : s.promised + plan.program.memory.toNat ≤ s.settings.maxMemory.toNat := by
    rw [← h.reserved_eq]
    exact of_decide_eq_true room
  calc t.promised
      = plan.program.memory.toNat + ((s.owned.erase id).values.map (·.memory.toNat)).sum := by
        rw [promised_insert ht, memory]
    _ ≤ plan.program.memory.toNat + s.promised := by
        exact Nat.add_le_add_left (SortedMap.sum_erase_le ..) _
    _ ≤ s.settings.maxMemory.toNat := by rwa [Nat.add_comm]

theorem WithinBudget.replace (h : s.WithinBudget) (found : s.owned.find? id = some w)
    (ht : t.owned = s.owned.insert id v) (same : v.memory = w.memory) :
    t.promised ≤ s.settings.maxMemory.toNat :=
  (promised_replace found ht same).trans_le h

/-- **Every turn keeps within the budget.** -/
theorem Turn.withinBudget (h : s.WithinBudget) (turn : Turn s t) : t.WithinBudget := by
  unfold WithinBudget
  rw [turn.settings_eq]
  cases turn with
  | create accepted room free => exact h.create room rfl rfl
  | applyQueued found down => exact h.replace found rfl rfl
  | files files => exact h
  | launch found down launched => exact h.replace found rfl rfl
  | stop force found running => exact h.replace found rfl (memory_ended ..)
  | delete found released => exact (promised_erase_le rfl).trans h
  | write found process written => exact h
  | enqueue t i d found => exact h.replace found rfl rfl
  | connect found changes => exact h.replace found rfl rfl
  | flush found process => exact h.replace found rfl rfl
  | happen event => exact (promised_congr (by cases event <;> rfl)).trans_le h

theorem Hearing.withinBudget (h : s.WithinBudget) (hearing : Hearing s t) : t.WithinBudget := by
  unfold WithinBudget
  rw [hearing.settings_eq, promised_congr hearing.owned_eq]
  exact h

/-- No more memory has been promised than there is, in any reachable state. -/
theorem Reachable.withinBudget {node : NodeIdentity} {settings : Settings}
    (h : Reachable node settings s) : s.WithinBudget :=
  h.ind (motive := WithinBudget) (fun _ _ _ => Nat.zero_le _)
    (fun _ _ within turn => turn.withinBudget within)
    fun _ _ within hearing => hearing.withinBudget within

end Supervisor

end WorkerCluster
