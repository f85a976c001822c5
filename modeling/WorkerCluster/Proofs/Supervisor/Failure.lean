import WorkerCluster.Proofs.Runs
import WorkerCluster.Proofs.Supervisor.History
import WorkerCluster.Proofs.Supervisor.Starting

/-!
# Launches that fail

What is left behind when the process of a worker cannot be launched.

* `failedStart_of_none` says what a start leaves behind then: all is as it was, but what had been
  queued for the worker is in its plan.
* `Supervisor.Rests` holds for a worker that has stopped and is still there although it is deleted
  when it stops. `pass_rests` says that only a restart that cannot launch the worker again brings
  that about, `rests_iff_stranded` what that means for a history.
-/

namespace WorkerCluster

namespace OwnedWorker

/-- A worker that has stopped, although it is deleted when it stops. -/
def IsLeftOver (w : OwnedWorker) : Prop :=
  w.record.lifecycle = .stopped ∧ w.record.plan.deleteOnStop = true

instance (w : OwnedWorker) : Decidable w.IsLeftOver :=
  inferInstanceAs (Decidable (_ ∧ _))

/-- A worker that was not left over is not left over now. -/
def Calm (v w : OwnedWorker) : Prop := w.IsLeftOver → v.IsLeftOver

instance isPreorder_calm : IsPreorder OwnedWorker Calm where
  refl _ := id
  trans _ _ _ h h' left := h (h' left)

end OwnedWorker

namespace Supervisor

/-- A worker of the node has stopped and is still there, although it is deleted when it stops. -/
def Rests (s : Supervisor) (id : Uuid) : Prop := ∃ w ∈ s.owned.find? id, w.IsLeftOver

instance (s : Supervisor) (id : Uuid) : Decidable (s.Rests id) :=
  inferInstanceAs (Decidable (∃ w ∈ s.owned.find? id, w.IsLeftOver))

/-- A worker runs that is deleted when it stops, and that could not be launched again if it did. -/
def Strands (s : Supervisor) (id : Uuid) : Prop :=
  ∃ w ∈ s.owned.find? id,
    w.record.isRunning = true ∧ w.record.plan.deleteOnStop = true ∧ s.CannotLaunch w

/-- What a start that fails leaves behind. -/
structure FailedStart (s : Supervisor) (id : Uuid) (w : OwnedWorker) (t : Supervisor) : Prop where
  /-- The worker was not running. -/
  down : w.IsDown
  /-- Its process could not be launched. -/
  cause : s.CannotLaunch w
  /-- Apart from the workers, nothing changes but the files of the host: nobody is told anything,
  and nothing is launched. -/
  rest : ∃ files, t = { s with owned := t.owned, host := { s.host with files } }
  /-- Every other worker is as it was. -/
  others : ∀ id', id' ≠ id → t.owned.find? id' = s.owned.find? id'
  /-- So are the last lines of all consoles. -/
  logs : ∀ id', t.logs? id' = s.logs? id'
  /-- What had been queued for the worker is in its plan. -/
  worker : t.owned.find? id = some w.applyQueued
  /-- So the workers are as they were only if nothing had been queued. -/
  same : t.owned = s.owned ↔ w.HasEmptyQueues

variable {s t u : Supervisor} {id id' : Uuid} {w v : OwnedWorker}

/-! ### Starts that fail -/

/-- A worker that is not deleted and cannot be started is down. -/
theorem isDown_of_start_none (found : s.owned.find? id = some w)
    (present : w.record.lifecycle ≠ .deleted) (failed : (s.start id).1 = none) : w.IsDown := by
  cases h : w.record.lifecycle with
  | prepared => exact .inl h
  | stopped => exact .inr h
  | running => simp only [start, found, h, reduceCtorEq] at failed
  | deleted => exact absurd h present

/-- **A start that fails changes nothing but the plan of the worker, which has what had been queued
for it**, and the files of the host. -/
theorem failedStart_of_none (found : s.owned.find? id = some w)
    (present : w.record.lifecycle ≠ .deleted) (failed : (s.start id).1 = none) :
    FailedStart s id w (s.start id).2 := by
  have down := isDown_of_start_none found present failed
  rw [start_of_down found down] at failed ⊢
  obtain ⟨files, ⟨cause, h⟩ | ⟨-, pid, launcher, h⟩⟩ :=
    launch_cases (s.setOwned id w.applyQueued) id w.applyQueued
  · rw [h]
    refine ⟨down, cause, ⟨files, rfl⟩, fun id' ne => ?_, fun id' => ?_, ?_, ?_⟩
    · exact (SortedMap.find?_insert ..).trans (if_neg ne)
    · show ((s.owned.insert id w.applyQueued).find? id').map _ = (s.owned.find? id').map _
      rw [SortedMap.find?_insert]
      split
      · next e => rw [e, found]; rfl
      · rfl
    · exact (SortedMap.find?_insert ..).trans (if_pos rfl)
    · show s.owned.insert id w.applyQueued = s.owned ↔ _
      rw [← OwnedWorker.applyQueued_eq_self]
      constructor
      · intro same
        have now : (s.owned.insert id w.applyQueued).find? id = some w := by rw [same, found]
        rw [SortedMap.find?_insert, if_pos rfl] at now
        exact Option.some_injective _ now
      · intro same
        rw [same]
        exact SortedMap.insert_eq_self found
  · rw [h] at failed
    cases failed

/-- The state in which a template is queued for a worker that cannot be launched. -/
def unlaunchable : Supervisor :=
  lobbyEmpty.live [
    .perform (.create lobbyPlan),
    .perform (.addTemplate lobbyId ⟨"lobby", "base", "local"⟩),
    .happen (.failLaunches true)]

theorem start_unlaunchable : (unlaunchable.start lobbyId).1 = none := by
  rw [← Option.isNone_iff_eq_none]
  decide

/-- The template is in its plan when it has failed to start. -/
theorem failedStart_unlaunchable :
    ∃ w, unlaunchable.owned.find? lobbyId = some w ∧ w.record.lifecycle ≠ .deleted ∧
      (unlaunchable.start lobbyId).1 = none ∧
      FailedStart unlaunchable lobbyId w (unlaunchable.start lobbyId).2 := by
  have there : ∃ w ∈ unlaunchable.owned.find? lobbyId, w.record.lifecycle ≠ .deleted := by decide
  obtain ⟨w, found, present⟩ := there
  exact ⟨w, found, present, start_unlaunchable,
    failedStart_of_none found present start_unlaunchable⟩

/-- So a start that fails does not leave every worker as it was. -/
theorem not_unchanged_of_start_none :
    ¬ ∀ (s : Supervisor) (id : Uuid), (∀ what, s.launcher.failing what = true) →
      (s.start id).1 = none → (s.start id).2.owned.find? id = s.owned.find? id := by
  intro unchanged
  have templates := congrArg (Option.map (·.record.plan.templates))
    (unchanged unlaunchable lobbyId (fun _ => rfl) start_unlaunchable)
  revert templates
  decide

/-! ### Workers that rest -/

/-- If nobody is left over who was not before, nobody comes to rest. -/
theorem Continues.rests (h : s.Continues OwnedWorker.Calm t) (rests : t.Rests id) : s.Rests id :=
  let ⟨w, found, left⟩ := rests
  let ⟨v, before, calm⟩ := h id w found
  ⟨v, before, calm left⟩

/-- Who rests after a worker has been replaced. -/
theorem rests_insert (h : t.owned = s.owned.insert id v) :
    t.Rests id' ↔ id' = id ∧ v.IsLeftOver ∨ id' ≠ id ∧ s.Rests id' := by
  rw [Rests, h, SortedMap.find?_insert]
  by_cases e : id' = id <;> simp [e, Rests]

/-! ### Operations in which nobody comes to rest -/

theorem create_rests {plan : WorkerPlan} (rests : (s.create plan).2.Rests id) : s.Rests id := by
  obtain ⟨w, found, left⟩ := rests
  obtain ⟨-, port, rfl⟩ | ⟨-, before⟩ := create_find? found
  · exact Lifecycle.noConfusion left.1
  · exact ⟨w, before, left⟩

theorem start_calm (s : Supervisor) (id : Uuid) :
    s.Continues OwnedWorker.Calm (s.start id).2 := by
  refine start_continues (fun _ _ left => left) (fun w pid _ left => ?_) s id
  exact Lifecycle.noConfusion left.1

/-- Whoever is stopped and stays is not one that is deleted on a stop. -/
theorem stable_calm : Stable (Continues OwnedWorker.Calm) := by
  refine stable_continues (fun l force w _ stays left => ?_) (fun _ _ left => left)
    fun _ _ left => left
  have plan := left.2
  rw [ended_record] at plan
  exact absurd (stays.symm.trans plan) Bool.false_ne_true

theorem queue_calm (s : Supervisor) (id : Uuid) {f : OwnedWorker → OwnedWorker}
    (same : ∀ w, (f w).record = w.record) : s.Continues OwnedWorker.Calm (s.queue id f).2 :=
  queue_continues s id fun w left => by rwa [OwnedWorker.IsLeftOver, same] at left

theorem perform_calm (s : Supervisor) {step : Step} (other : ∀ id, step ≠ .restart id)
    (makes : ∀ plan, step ≠ .create plan) : s.Continues OwnedWorker.Calm (s.perform step).2 := by
  cases step with
  | create plan => exact absurd rfl (makes plan)
  | start id => exact start_calm s id
  | restart id => exact absurd rfl (other id)
  | reach id target =>
    cases target with
    | running => exact start_calm s id
    | _ => exact stable_calm.of_plain s trivial
  | addTemplate id c | addInclusion id c | addDeployment id c =>
    exact queue_calm s id fun _ => by rfl
  | hear w => exact (hear_hearings s w).continues
  | replace node l => exact (replace_hearings s node l).continues
  | forget node => exact continues_of_owned_eq rfl
  | _ => exact stable_calm.of_plain s trivial

/-- In no operation but a restart does anybody come to rest. -/
theorem perform_rests {step : Step} (other : ∀ id, step ≠ .restart id)
    (rests : (s.perform step).2.Rests id) : s.Rests id := by
  by_cases makes : ∃ plan, step = .create plan
  · obtain ⟨plan, rfl⟩ := makes
    exact create_rests rests
  · exact (perform_calm s other fun plan h => makes ⟨plan, h⟩).rests rests

/-! ### Restarts -/

theorem isLeftOver_ended (l : Launcher) (force : Bool) (w : OwnedWorker) :
    (ended l force w).1.applyQueued.IsLeftOver ↔ w.record.plan.deleteOnStop = true := by
  show (ended l force w).1.record.lifecycle = .stopped ∧
    (ended l force w).1.record.plan.deleteOnStop = true ↔ _
  rw [ended_record]
  exact and_iff_right rfl

/-- A restart of a worker that runs leaves it at rest exactly if it strands it. -/
theorem rests_restart (found : s.owned.find? id = some w) (running : w.record.isRunning = true) :
    (s.restart id).2.Rests id' ↔ id' = id ∧ s.Strands id ∨ id' ≠ id ∧ s.Rests id' := by
  have strands : s.Strands id ↔ w.record.plan.deleteOnStop = true ∧ s.CannotLaunch w := by
    simp [Strands, found, running]
  -- first the worker stops, then what has been queued is taken into its plan
  let e := ended s.launcher false w
  let stopped := ({ s with launcher := e.2 }.setOwned id e.1).publish e.1.record
  let ready := stopped.setOwned id e.1.applyQueued
  have down : e.1.IsDown := .inr (by rw [ended_record]; rfl)
  have cause : ready.CannotLaunch e.1.applyQueued ↔ s.CannotLaunch w := by
    show s.host.files.makeDirs e.1.directory = none ∨ e.2.failing (s.launchOf e.1) = true ↔ _
    rw [ended_directory, ended_failing, launchOf_ended]
    rfl
  have others : id' ≠ id → (stopped.Rests id' ↔ s.Rests id') := by
    intro ne
    rw [rests_insert (s := s) (v := e.1) rfl]
    simp [ne]
  have there : stopped.owned.find? id = some e.1 := by simp [stopped, setOwned, publish]
  rw [restart_of_running found running, start_of_down there down, strands]
  obtain ⟨files, ⟨cannot, h⟩ | ⟨can, pid, launcher, h⟩⟩ := launch_cases ready id e.1.applyQueued
  · -- the launch fails
    rw [h, rests_insert (s := stopped) (v := e.1.applyQueued) rfl, isLeftOver_ended]
    by_cases same : id' = id
    · simp [same, cause.1 cannot]
    · simp [same, others same]
  · rw [h, rests_insert (s := ready) (v := e.1.applyQueued.launched pid) rfl,
      rests_insert (s := stopped) (v := e.1.applyQueued) rfl]
    by_cases same : id' = id
    · simp [same, mt cause.2 can, OwnedWorker.IsLeftOver, OwnedWorker.launched]
    · simp [same, others same]

/-- **A worker comes to rest only when a restart strands it.** -/
theorem pass_rests {m : Moment} (rests : (s.pass m).Rests id) :
    s.Rests id ∨ m = .perform (.restart id) ∧ s.Strands id := by
  cases m with
  | perform step =>
    by_cases restarts : ∃ id', step = .restart id'
    · obtain ⟨id', rfl⟩ := restarts
      have after : (s.restart id').2.Rests id := rests
      cases found : s.owned.find? id' with
      | none =>
        rw [restart, halt, found] at after
        exact .inl after
      | some w =>
        cases running : w.record.isRunning with
        | true =>
          rcases (rests_restart found running).1 after with ⟨rfl, strands⟩ | ⟨-, before⟩
          · exact .inr ⟨rfl, strands⟩
          · exact .inl before
        | false =>
          rw [restart_of_not_running found running] at after
          exact .inl ((start_calm s id').rests after)
    · exact .inl (perform_rests (fun id' h => restarts ⟨id', h⟩) rests)
  | happen event => exact .inl (by cases event <;> exact rests)
  | files files => exact .inl rests

/-- Whoever is stranded rests. -/
theorem Strands.rests (h : s.Strands id) : (s.pass (.perform (.restart id))).Rests id := by
  have ⟨w, found, running, _⟩ := h
  exact (rests_restart found running).2 (.inl ⟨rfl, h⟩)

/-- **A worker rests after a history exactly if a restart in it stranded the worker, which has
rested ever since.** -/
theorem rests_iff_stranded (new : s.IsNew) (history : List Moment) (id : Uuid) :
    (s.live history).Rests id ↔
      ∃ past later, history = past ++ .perform (.restart id) :: later ∧ (s.live past).Strands id ∧
        ∀ h, h <+: later → (s.live (past ++ .perform (.restart id) :: h)).Rests id := by
  constructor
  · intro rests
    have fresh : ¬ s.Rests id := by
      rintro ⟨w, found, -⟩
      rw [new.owned] at found
      cases found
    obtain ⟨past, m, later, rfl, ⟨rfl, strands⟩, since⟩ :=
      foldl_since (f := pass) (P := (·.Rests id)) (fun _ _ => pass_rests) fresh rests
    exact ⟨past, later, rfl, strands, since⟩
  · rintro ⟨past, later, rfl, -, since⟩
    exact since later (List.prefix_refl _)

/-! ### A worker that is stranded -/

/-- The plan of a worker that is deleted when it stops. -/
def guestPlan : WorkerPlan := { lobbyPlan with deleteOnStop := true }

/-- A worker is started; when it is restarted, it cannot be launched any more. -/
def failedRestart : List Moment := [
  .perform (.create guestPlan),
  .perform (.start lobbyId),
  .happen (.failLaunches true),
  .perform (.restart lobbyId)]

theorem live_failedRestart : (lobbyEmpty.live failedRestart).Rests lobbyId := by decide

/-- It rests then, since the restart stranded it. -/
theorem rests_failedRestart :
    lobbyEmpty.IsNew ∧ (lobbyEmpty.live failedRestart).Rests lobbyId ∧
      ∃ past later, failedRestart = past ++ .perform (.restart lobbyId) :: later ∧
        (lobbyEmpty.live past).Strands lobbyId ∧
        ∀ h, h <+: later →
          (lobbyEmpty.live (past ++ .perform (.restart lobbyId) :: h)).Rests lobbyId :=
  ⟨isNew_lobbyEmpty, live_failedRestart,
    (rests_iff_stranded isNew_lobbyEmpty failedRestart lobbyId).1 live_failedRestart⟩

/-- So it is not true that nobody ever rests. -/
theorem not_never_rests :
    ¬ ∀ (node : NodeIdentity) (settings : Settings) (s : Supervisor), Reachable node settings s →
      ∀ id, ¬ s.Rests id := fun never =>
  never _ _ _ (isNew_lobbyEmpty.reachable.live failedRestart) lobbyId live_failedRestart

end Supervisor

end WorkerCluster
