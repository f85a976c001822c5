import WorkerCluster.Proofs.Supervisor.Consoles
import WorkerCluster.Proofs.Supervisor.Failure

/-!
# Sweeps

What becomes of workers whose process has exited on its own.

* `Supervisor.departed` lists the workers that run although their process has exited.
* `Supervisor.Swept` says what it means that some workers have been stopped and nobody else has been
  touched; `swept_halt` is the case of one worker, `swept_foldl` that of several.
* `sweep_exact` is the main statement: a sweep does that to those that have departed, and to no one
  else.
-/

namespace WorkerCluster

/-- What everybody is told about a worker when it is stopped. -/
def OwnedWorker.farewell (w : OwnedWorker) : WorkerRecord :=
  w.record.down (if w.record.plan.deleteOnStop then .deleted else .stopped)

namespace Supervisor

/-- A worker runs, but its process has exited. -/
def HasExited (s : Supervisor) (w : OwnedWorker) : Prop :=
  w.record.lifecycle = .running ∧ ∃ pid ∈ w.process, s.launcher.isAlive pid = false

instance (s : Supervisor) (w : OwnedWorker) : Decidable (s.HasExited w) :=
  inferInstanceAs (Decidable (_ ∧ _))

/-- The workers that run although their process has exited. -/
def departed (s : Supervisor) : List (Uuid × OwnedWorker) :=
  s.owned.entries.filter fun e => s.HasExited e.2

/-- What remains of a worker when it is stopped: nothing if it is deleted then, and otherwise one
that has taken what its process had written. -/
def remains (s : Supervisor) (id : Uuid) (w : OwnedWorker) : Option OwnedWorker :=
  if w.record.plan.deleteOnStop then none
  else some { w with
    record := w.record.down .stopped
    process := none
    logs := w.logs.extend (s.unread id) }

/-- From one state to the other some workers have been stopped, and nobody else has been touched. -/
structure Swept (gone : List (Uuid × OwnedWorker)) (s t : Supervisor) : Prop where
  /-- They are stopped, or they are gone if they are deleted then. -/
  stopped : ∀ e ∈ gone, t.owned.find? e.1 = s.remains e.1 e.2
  /-- Every other worker is as it was, and nobody else is there. -/
  others : ∀ id, id ∉ gone.map (·.1) → t.owned.find? id = s.owned.find? id
  /-- So is every process that none of them held. -/
  processes : ∀ pid, (∀ e ∈ gone, e.2.process ≠ some pid) →
    t.launcher.process? pid = s.launcher.process? pid
  /-- Everybody is told once about each of them, and nothing else. -/
  told : t.outbox = s.outbox ++ gone.map (·.2.farewell)
  /-- All else is as it was, but for the directories of workers that are gone. -/
  rest : ∃ files, t = { s with
    owned := t.owned, launcher := t.launcher, outbox := t.outbox, host := { s.host with files } }

variable {s t u : Supervisor} {id : Uuid} {w : OwnedWorker} {gone : List (Uuid × OwnedWorker)}

/-! ### Stops -/

theorem swept_nil (s : Supervisor) : Swept [] s s where
  stopped _ he := absurd he List.not_mem_nil
  others _ _ := rfl
  processes _ _ := rfl
  told := (List.append_nil _).symm
  rest := ⟨s.host.files, rfl⟩

theorem swept_halt (found : s.owned.find? id = some w) (running : w.record.isRunning = true) :
    Swept [(id, w)] s (s.halt false true id).2 := by
  have released := ended_released s.launcher false w
  rw [halt_of_running found running, Bool.true_and]
  cases deleted : w.record.plan.deleteOnStop with
  | true =>
    refine ⟨?_, fun id' other => ?_, fun pid free => ?_, ?_, s.filesWithout w, rfl⟩
    · simp [without, publish, remains, deleted]
    · have ne : id' ≠ id := by simpa using other
      simp [without, publish, ne]
    · exact released.process? (free _ (List.mem_singleton_self _))
    · simp [without, publish, OwnedWorker.farewell, deleted]
  | false =>
    refine ⟨?_, fun id' other => ?_, fun pid free => ?_, ?_, s.host.files, rfl⟩
    · simp [withStopped, setOwned, publish, remains, deleted, ended_eq, unread_found found]
    · have ne : id' ≠ id := by simpa using other
      simp [withStopped, setOwned, publish, ne]
    · exact released.process? (free _ (List.mem_singleton_self _))
    · simp [withStopped, setOwned, publish, OwnedWorker.farewell, deleted, ended_record]

/-- Nothing is taken from those that are not stopped. -/
theorem Swept.unread (swept : Swept gone s t) (h : s.Tended)
    (there : ∀ e ∈ gone, s.owned.find? e.1 = some e.2) (other : id ∉ gone.map (·.1)) :
    t.unread id = s.unread id := by
  have same : t.processOf? id = s.processOf? id := by
    rw [processOf?, swept.others id other, processOf?]
  refine unread_congr same fun pid holds => ?_
  have untouched : t.launcher.process? pid = s.launcher.process? pid := by
    refine swept.processes pid fun e he holds' => other ?_
    rw [h.injective holds ((processOf?_found (there e he)).trans holds')]
    exact List.mem_map_of_mem he
  rw [Launcher.output, untouched, Launcher.output]

theorem fst_ne_of_mem {e : Uuid × OwnedWorker} (new : id ∉ gone.map (·.1)) (he : e ∈ gone) :
    e.1 ≠ id := by
  rintro rfl
  exact new (List.mem_map_of_mem he)

theorem Swept.cons (first : Swept [(id, w)] s t) (later : Swept gone t u) (h : s.Tended)
    (found : s.owned.find? id = some w) (new : id ∉ gone.map (·.1)) :
    Swept ((id, w) :: gone) s u where
  stopped e he := by
    obtain rfl | he := List.mem_cons.1 he
    · rw [later.others id new]
      exact first.stopped _ (List.mem_singleton_self _)
    · have other : e.1 ∉ [(id, w)].map (·.1) := by simpa using fst_ne_of_mem new he
      have unread : t.unread e.1 = s.unread e.1 :=
        first.unread h (fun e' he' => List.mem_singleton.1 he' ▸ found) other
      rw [later.stopped e he, remains, unread, remains]
  others id' other := by
    rw [List.map_cons, List.mem_cons, not_or] at other
    rw [later.others id' other.2]
    exact first.others id' (by simpa using other.1)
  processes pid free := by
    rw [later.processes pid fun e he => free e (List.mem_cons_of_mem _ he)]
    exact first.processes pid fun e he => free e (List.mem_cons.2 (.inl (List.mem_singleton.1 he)))
  told := by
    rw [later.told, first.told, List.append_assoc, ← List.map_append, List.singleton_append]
  rest := by
    obtain ⟨files, after⟩ := first.rest
    obtain ⟨files', after'⟩ := later.rest
    rw [after] at after'
    exact ⟨files', after'⟩

theorem Tended.swept_foldl (h : s.Tended) (nodup : (gone.map (·.1)).Nodup)
    (there : ∀ e ∈ gone, s.owned.find? e.1 = some e.2 ∧ e.2.record.isRunning = true) :
    Swept gone s ((gone.map (·.1)).foldl (fun s id => (s.halt false true id).2) s) := by
  induction gone generalizing s with
  | nil => exact swept_nil s
  | cons e gone ih =>
    obtain ⟨id, w⟩ := e
    obtain ⟨new, nodup⟩ := List.nodup_cons.1 nodup
    obtain ⟨found, running⟩ := there _ List.mem_cons_self
    have first := swept_halt found running
    refine first.cons (ih ((halt_turns s false true id).turns.tended h) nodup ?_) h found new
    intro e he
    obtain ⟨found', running'⟩ := there e (List.mem_cons_of_mem _ he)
    have other : e.1 ∉ [(id, w)].map (·.1) := by simpa using fst_ne_of_mem new he
    exact ⟨(first.others e.1 other).trans found', running'⟩

/-! ### Workers that have departed -/

theorem mem_departed {e : Uuid × OwnedWorker} :
    e ∈ s.departed ↔ s.owned.find? e.1 = some e.2 ∧ s.HasExited e.2 := by
  rw [departed, List.mem_filter, decide_eq_true_eq, ← SortedMap.mem_entries]

theorem nodup_departed (s : Supervisor) : (s.departed.map (·.1)).Nodup :=
  s.owned.nodup_keys.sublist (List.filter_sublist.map _)

theorem hasExited_congr (h : ∀ pid ∈ w.process, t.launcher.process? pid = s.launcher.process? pid) :
    t.HasExited w ↔ s.HasExited w := by
  refine and_congr_right fun _ => exists_congr fun pid => and_congr_right fun held => ?_
  rw [Launcher.isAlive, h pid held, Launcher.isAlive]

/-- A sweep goes by whether there is a process that is alive, and every worker that runs has one. -/
theorem Tended.exited_eq (h : s.Tended) : s.exited = s.departed.map (·.1) := by
  have test (e : Uuid × OwnedWorker) (he : e ∈ s.owned.entries) :
      (e.2.record.isRunning && !e.2.process.any s.launcher.isAlive) = decide (s.HasExited e.2) := by
    have sound := h.sound e.1 e.2 (SortedMap.mem_entries.1 he)
    have holds := sound.process
    cases process : e.2.process with
    | none =>
      rw [process] at holds
      have idle : e.2.record.lifecycle ≠ .running := fun running => by simpa using holds.2 running
      simp [HasExited, WorkerRecord.isRunning, idle]
    | some pid => simp [HasExited, WorkerRecord.isRunning, process, Bool.decide_and]
  rw [exited, departed, ← List.filterMap_eq_map, List.filterMap_filter]
  refine List.filterMap_congr fun e he => ?_
  rw [← test e he]
  rfl

theorem Tended.sweep_tended (h : s.Tended) : s.sweep.2.Tended :=
  (stable_lifeTurns.of_sweep s).turns.tended h

/-- **A sweep stops those workers that have departed, and nobody else.** -/
theorem Tended.swept_sweep (h : s.Tended) : Swept s.departed s s.sweep.2 := by
  have swept := h.swept_foldl (nodup_departed s) fun e he => ?_
  · rwa [← h.exited_eq] at swept
  · obtain ⟨found, running, -⟩ := mem_departed.1 he
    exact ⟨found, by rw [WorkerRecord.isRunning, running]; rfl⟩

/-- Nobody is left after a sweep who has departed. -/
theorem Tended.departed_sweep (h : s.Tended) : s.sweep.2.departed = [] := by
  have swept := h.swept_sweep
  refine List.eq_nil_iff_forall_not_mem.2 fun e he => ?_
  obtain ⟨found, exited⟩ := mem_departed.1 he
  by_cases was : e.1 ∈ s.departed.map (·.1)
  · -- those who had departed do not run any more
    obtain ⟨e', he', same⟩ := List.mem_map.1 was
    rw [← same, swept.stopped e' he', remains] at found
    split at found
    · cases found
    · have worker := Option.some_injective _ found
      have running := exited.1
      rw [← worker] at running
      cases running
  · -- nothing has happened to the process of anyone else
    rw [swept.others e.1 was] at found
    have untouched (pid : ℕ) (held : e.2.process = some pid) :
        s.sweep.2.launcher.process? pid = s.launcher.process? pid := by
      refine swept.processes pid fun e' he' holds => was ?_
      rw [h.injective ((processOf?_found found).trans held)
        ((processOf?_found (mem_departed.1 he').1).trans holds)]
      exact List.mem_map_of_mem he'
    have before := mem_departed.2 ⟨found, (hasExited_congr untouched).1 exited⟩
    exact was (List.mem_map_of_mem before)

/-- **A sweep is exact.** The result is the number of workers that ran although their process had
exited; each of them is stopped then, or gone if it is deleted on a stop, and everybody is told so
once, and nobody else is touched. A second sweep finds nothing to do. -/
theorem sweep_exact {node : NodeIdentity} {settings : Settings} (h : Reachable node settings s) :
    s.sweep.1 = s.departed.length ∧ Swept s.departed s s.sweep.2 ∧
      s.sweep.2.sweep = (0, s.sweep.2) := by
  have tended := h.tended
  refine ⟨?_, tended.swept_sweep, ?_⟩
  · rw [sweep, tended.exited_eq, List.length_map]
  · have none : s.sweep.2.exited = [] := by
      rw [tended.sweep_tended.exited_eq, tended.departed_sweep, List.map_nil]
    rw [sweep, none]
    rfl

/-- A worker has written a line before its process exits; one that is deleted on its stop exits too.
Another one goes on, and one has not been started. -/
def closing : List Moment := [
  .perform (.create lobbyPlan),
  .perform (.start lobbyId),
  .perform (.create guestPlan),
  .perform (.start secondId),
  .perform (.create lobbyPlan),
  .perform (.start (Uuid.ofNat 3).random),
  .perform (.create lobbyPlan),
  .happen (.emit lobbyId "bye"),
  .happen (.exit lobbyId),
  .happen (.exit secondId)]

/-- Two of the four have departed then. -/
theorem sweep_closing :
    (Reachable lobbyNode lobbySettings (lobbyEmpty.live closing) ∧
      (lobbyEmpty.live closing).departed.map (·.1) = [lobbyId, secondId] ∧
      (lobbyEmpty.live closing).sweep.2.logs? lobbyId = some ["bye"] ∧
      (lobbyEmpty.live closing).sweep.2.owned.size = 3) ∧
    (lobbyEmpty.live closing).sweep.1 = (lobbyEmpty.live closing).departed.length ∧
      Swept (lobbyEmpty.live closing).departed (lobbyEmpty.live closing)
        (lobbyEmpty.live closing).sweep.2 ∧
      (lobbyEmpty.live closing).sweep.2.sweep = (0, (lobbyEmpty.live closing).sweep.2) := by
  have reachable : Reachable lobbyNode lobbySettings (lobbyEmpty.live closing) :=
    isNew_lobbyEmpty.reachable.live closing
  exact ⟨⟨reachable, by decide +kernel, by decide +kernel, by decide +kernel⟩,
    sweep_exact reachable⟩

end Supervisor

end WorkerCluster
