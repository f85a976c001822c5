import WorkerCluster.Proofs.Supervisor.Processes
import WorkerCluster.Proofs.Supervisor.Starting

/-!
# What is queued for workers

* `Changes` are templates, inclusions and deployments. `OwnedWorker.changes` are those in the plan
  of a worker, followed by those that are still queued for it.
* `Supervisor.accepted` lists what operations have queued for a worker in a history.
* `pass_changes` says that nothing else is ever added to the changes of a worker, and nothing taken
  from them; `pass_launches` that nothing is queued any more for a worker whose process has just
  been launched.
* `changes_once_in_order` is the main statement, for whole histories.
-/

namespace WorkerCluster

/-- What is done to the files of a worker, in order. -/
structure Changes where
  templates : List Template := []
  inclusions : List Inclusion := []
  deployments : List Deployment := []
  deriving DecidableEq

namespace Changes

/-- Some changes, and then others. -/
instance : Append Changes where
  append a b := {
    templates := a.templates ++ b.templates
    inclusions := a.inclusions ++ b.inclusions
    deployments := a.deployments ++ b.deployments }

theorem append_eq (a b : Changes) : a ++ b = {
    templates := a.templates ++ b.templates
    inclusions := a.inclusions ++ b.inclusions
    deployments := a.deployments ++ b.deployments } := rfl

theorem append_assoc (a b c : Changes) : a ++ b ++ c = a ++ (b ++ c) := by
  simp only [append_eq, List.append_assoc]

@[simp] theorem append_empty (a : Changes) : a ++ ({} : Changes) = a := by
  simp only [append_eq, List.append_nil]

end Changes

/-- The changes that a plan asks for. -/
def WorkerPlan.changes (plan : WorkerPlan) : Changes :=
  ⟨plan.templates, plan.inclusions, plan.deployments⟩

namespace OwnedWorker

/-- What is queued for a worker. -/
def queued (w : OwnedWorker) : Changes := ⟨w.templates, w.inclusions, w.deployments⟩

/-- The changes in the plan of a worker, and then those that are still queued for it. -/
def changes (w : OwnedWorker) : Changes := w.record.plan.changes ++ w.queued

/-- What has been queued stands behind what was in the plan, and does so still when it is taken into
the plan. -/
theorem changes_applyQueued (w : OwnedWorker) : w.applyQueued.changes = w.changes :=
  Changes.append_empty w.changes

theorem changes_ended (l : Launcher) (force : Bool) (w : OwnedWorker) :
    (Supervisor.ended l force w).1.changes = w.changes := by
  cases process : w.process <;> simp only [Supervisor.ended, process] <;> rfl

end OwnedWorker

namespace Supervisor

/-- What an operation is to queue, and for whom. -/
def Step.queued? : Step → Option (Uuid × Changes)
  | .addTemplate id t => some (id, { templates := [t] })
  | .addInclusion id i => some (id, { inclusions := [i] })
  | .addDeployment id d => some (id, { deployments := [d] })
  | _ => none

/-- Whether an answer is that an operation on a worker could be done. -/
def Answer.accepts : Answer → Bool
  | .record r => r.isSome
  | _ => false

/-- What is queued for a worker at a moment. -/
def acceptedAt (s : Supervisor) (id : Uuid) : Moment → Changes
  | .perform step =>
    match step.queued? with
    | some (id', c) => if id' = id ∧ (s.perform step).1.accepts = true then c else {}
    | none => {}
  | _ => {}

/-- What is queued for a worker in a history, in order. -/
def accepted (s : Supervisor) (id : Uuid) : List Moment → Changes
  | [] => {}
  | m :: history => s.acceptedAt id m ++ (s.pass m).accepted id history

/-- Whether at a moment a worker is to be started. -/
def Moment.Starts (id : Uuid) : Moment → Prop
  | .perform (.start i) | .perform (.restart i) | .perform (.reach i .running) => i = id
  | _ => False

/-- One process has been launched from one state to the other, that of a worker which runs now and
for which nothing is queued any more. -/
def Launches (id : Uuid) (s t : Supervisor) : Prop :=
  ∃ w what, t.launcher.launches = s.launcher.launches ++ [what] ∧ what.worker = w.record.id ∧
    t.owned.find? id = some w ∧ w.record.isRunning = true ∧ w.HasEmptyQueues

variable {s t : Supervisor} {id id' : Uuid} {w : OwnedWorker} {m : Moment}

/-! ### Changes of workers -/

/-- Plain operations neither queue anything nor take anything away. -/
theorem stable_carries_changes : Stable (Carries OwnedWorker.changes) :=
  stable_continues (fun l force w _ _ => OwnedWorker.changes_ended l force w) (fun _ _ => rfl)
    fun _ _ => rfl

theorem start_carries (s : Supervisor) (id : Uuid) :
    s.Carries OwnedWorker.changes (s.start id).2 :=
  start_continues (fun w _ => OwnedWorker.changes_applyQueued w)
    (fun w _ _ => OwnedWorker.changes_applyQueued w) s id

theorem restart_carries (s : Supervisor) (id : Uuid) :
    s.Carries OwnedWorker.changes (s.restart id).2 := by
  have halted : s.Carries OwnedWorker.changes (s.halt false false id).2 :=
    halt_continues (fun l force w _ => OwnedWorker.changes_ended l force w) s false false id
  obtain after | after := restart_cases s id <;> rw [after]
  · exact halted
  · exact halted.trans (start_carries _ id)

/-- What is queued stands behind everything else, if the worker is there. -/
theorem queue_changes {f : OwnedWorker → OwnedWorker} {c : Changes}
    (adds : ∀ w, (f w).changes = w.changes ++ c)
    (found : (s.queue id' f).2.owned.find? id = some w) :
    ∃ v, s.owned.find? id = some v ∧
      w.changes = v.changes ++ if id' = id ∧ (s.queue id' f).1.isSome = true then c else {} := by
  unfold queue at found ⊢
  split at found
  · exact ⟨w, found, by simp⟩
  · next v there =>
    change (s.owned.insert id' (f v)).find? id = some w at found
    rw [SortedMap.find?_insert] at found
    split at found
    · next same =>
      cases found
      subst same
      exact ⟨v, there, by simp [adds]⟩
    · next other => exact ⟨w, found, by simp [Ne.symm other]⟩

/-- No operation but those that queue something and those that make workers has to do with the
changes of workers. -/
theorem perform_carries (s : Supervisor) {step : Step} (silent : step.queued? = none)
    (makes : ∀ plan, step ≠ .create plan) :
    s.Carries OwnedWorker.changes (s.perform step).2 := by
  cases step with
  | create plan => exact absurd rfl (makes plan)
  | start id => exact start_carries s id
  | restart id => exact restart_carries s id
  | reach id target =>
    cases target with
    | running => exact start_carries s id
    | _ => exact stable_carries_changes.of_plain s trivial
  | addTemplate => cases silent
  | addInclusion => cases silent
  | addDeployment => cases silent
  | hear w => exact (hear_hearings s w).continues
  | replace node l => exact (replace_hearings s node l).continues
  | forget node => exact continues_of_owned_eq rfl
  | _ => exact stable_carries_changes.of_plain s trivial

/-- **The changes of a worker are those of its plan when it is made, and at every other moment those
from before and what is queued for it then.** -/
theorem pass_changes (found : (s.pass m).owned.find? id = some w) :
    (∃ plan, m = .perform (.create plan) ∧ s.drawnAt m = [id] ∧ w.changes = plan.changes) ∨
      id ∉ s.drawnAt m ∧
        ∃ v, s.owned.find? id = some v ∧ w.changes = v.changes ++ s.acceptedAt id m := by
  have same : w.changes = w.changes ++ ({} : Changes) := (Changes.append_empty _).symm
  cases m with
  | happen event =>
    have before : s.owned.find? id = some w := by cases event <;> exact found
    exact .inr ⟨List.not_mem_nil, w, before, same⟩
  | files files => exact .inr ⟨List.not_mem_nil, w, found, same⟩
  | perform step =>
    cases step with
    | create plan =>
      obtain ⟨drawn, port, rfl⟩ | ⟨drawn, before⟩ := create_find? found
      · exact .inl ⟨plan, rfl, drawn, Changes.append_empty plan.changes⟩
      · exact .inr ⟨drawn, w, before, same⟩
    | addTemplate id' c | addInclusion id' c | addDeployment id' c =>
      refine .inr ⟨List.not_mem_nil, queue_changes (fun v => ?_) found⟩
      simp [OwnedWorker.changes, OwnedWorker.queued, Changes.append_eq]
    | _ =>
      obtain ⟨v, before, carried⟩ :=
        perform_carries s (by rfl) (by rintro plan ⟨⟩) id w found
      refine .inr ⟨List.not_mem_nil, v, before, carried.trans ?_⟩
      exact (Changes.append_empty _).symm

/-! ### Launches -/

/-- Plain operations launch nothing. -/
theorem stable_launches : Stable fun s t => t.launcher.launches = s.launcher.launches where
  refl _ := rfl
  trans h h' := h'.trans h
  stop _ _ _ _ := (ended_released _ _ _).ages.1.launches
  delete _ released := released.ages.1.launches
  write _ _ written := (Launcher.ages_write written).launches
  connect _ _ := rfl
  flush _ _ := (Launcher.ages_drain _ _).launches

theorem halt_launches (s : Supervisor) (force deleting : Bool) (id : Uuid) :
    (s.halt force deleting id).2.launcher.launches = s.launcher.launches := by
  obtain same | ⟨w, -, -, after⟩ := halt_cases s force deleting id
  · rw [same]
  · split at after <;> rw [after] <;> exact (ended_released _ _ _).ages.1.launches

theorem start_launches (s : Supervisor) (id : Uuid) :
    (s.start id).2.launcher.launches = s.launcher.launches ∨ Launches id s (s.start id).2 := by
  obtain same | ⟨w, files, -, -, -, ⟨-, after⟩ | ⟨-, after⟩⟩ := start_cases s id
  · rw [same]
    exact .inl rfl
  · rw [after]
    exact .inl rfl
  · rw [after]
    refine .inr ⟨w.applyQueued.launched (s.launcher.runs.length + 1),
      (s.setOwned id w.applyQueued).launchOf w.applyQueued,
      List.map_append, rfl, ?_, rfl, rfl, rfl, rfl⟩
    simp [withLaunched, setOwned, publish]

theorem restart_launches (s : Supervisor) (id : Uuid) :
    (s.restart id).2.launcher.launches = s.launcher.launches ∨ Launches id s (s.restart id).2 := by
  have halted := halt_launches s false false id
  obtain after | after := restart_cases s id <;> rw [after]
  · exact .inl halted
  · obtain same | ⟨w, what, more, launched⟩ := start_launches (s.halt false false id).2 id
    · exact .inl (same.trans halted)
    · exact .inr ⟨w, what, halted ▸ more, launched⟩

/-- **Nothing is queued any more for a worker whose process has just been launched**, and nothing is
launched but when a worker is to be started. -/
theorem pass_launches (s : Supervisor) (m : Moment) :
    (s.pass m).launcher.launches = s.launcher.launches ∨
      ∃ id, m.Starts id ∧ Launches id s (s.pass m) := by
  have started {id : Uuid} (starts : m.Starts id)
      (h : (s.pass m).launcher.launches = s.launcher.launches ∨ Launches id s (s.pass m)) :
      (s.pass m).launcher.launches = s.launcher.launches ∨
        ∃ id, m.Starts id ∧ Launches id s (s.pass m) := h.imp_right fun h => ⟨id, starts, h⟩
  cases m with
  | happen event => exact .inl (happen_ages s event).launches
  | files files => exact .inl rfl
  | perform step =>
    cases step with
    | create plan => exact .inl (congrArg Launcher.launches (create_launcher s plan))
    | start id => exact started rfl (start_launches s id)
    | restart id => exact started rfl (restart_launches s id)
    | reach id target =>
      cases target with
      | running => exact started rfl (start_launches s id)
      | _ => exact .inl (stable_launches.of_plain s trivial)
    | addTemplate id c | addInclusion id c | addDeployment id c =>
      left
      cases found : s.owned.find? id <;>
        simp [pass, perform, addTemplate, addInclusion, addDeployment, queue, found, setOwned]
    | hear w => exact .inl (congrArg Launcher.launches (hear_hearings s w).launcher_eq)
    | replace node l =>
      exact .inl (congrArg Launcher.launches (replace_hearings s node l).launcher_eq)
    | forget node => exact .inl rfl
    | _ => exact .inl (stable_launches.of_plain s trivial)

/-! ### Whole histories -/

theorem accepted_concat (s : Supervisor) (id : Uuid) (h : List Moment) (m : Moment) :
    s.accepted id (h ++ [m]) = s.accepted id h ++ (s.live h).acceptedAt id m := by
  induction h generalizing s with
  | nil => exact Changes.append_empty (s.acceptedAt id m)
  | cons m' h ih =>
    rw [List.cons_append, accepted, accepted, ih, Changes.append_assoc, live, live, List.foldl_cons]

/-- **What is queued for a worker is taken up once and in order, and by the next launch.** Whatever
happens, the changes in the plan of a worker and then those that are still queued are the ones with
which it was made and then all that were accepted for it since; and whenever its process is
launched, nothing is queued for it any more. -/
theorem changes_once_in_order (new : s.IsNew) (history : List Moment) :
    (∀ id w, (s.live history).owned.find? id = some w → ∃ past plan later,
      history = past ++ .perform (.create plan) :: later ∧
        (s.live past).drawnAt (.perform (.create plan)) = [id] ∧
        let made := (s.live past).pass (.perform (.create plan))
        id ∉ made.drawn later ∧ w.changes = plan.changes ++ made.accepted id later) ∧
    ∀ m, ((s.live history).pass m).launcher.launches = (s.live history).launcher.launches ∨
      ∃ id, m.Starts id ∧ Launches id (s.live history) ((s.live history).pass m) := by
  refine ⟨fun id w found => ?_, pass_launches _⟩
  induction history using List.reverseRecOn generalizing w with
  | nil =>
    have before : s.owned.find? id = some w := found
    rw [new.owned] at before
    cases before
  | append_singleton history m ih =>
    rw [live_concat] at found
    obtain ⟨plan, rfl, drawn, changes⟩ | ⟨drawn, v, before, changes⟩ := pass_changes found
    · refine ⟨history, plan, [], rfl, drawn, List.not_mem_nil, ?_⟩
      rw [changes, accepted, Changes.append_empty]
    · obtain ⟨past, plan, later, rfl, made, others, since⟩ := ih v before
      have now : ((s.live past).pass (.perform (.create plan))).live later =
          s.live (past ++ .perform (.create plan) :: later) := by
        rw [live_append]
        rfl
      refine ⟨past, plan, later ++ [m], by simp, made, ?_, ?_⟩
      · rw [drawn_concat, now, List.mem_append, not_or]
        exact ⟨others, drawn⟩
      · rw [changes, since, Changes.append_assoc, accepted_concat, now]

/-- Templates are queued for a worker before and after a start that fails, and when it runs; in the
end it is restarted. -/
def patient : List Moment := [
  .perform (.create { lobbyPlan with templates := [⟨"lobby", "base", "local"⟩] }),
  .perform (.addTemplate lobbyId ⟨"lobby", "maps", "local"⟩),
  .happen (.failLaunches true),
  .perform (.start lobbyId),
  .perform (.addTemplate lobbyId ⟨"lobby", "skins", "local"⟩),
  .happen (.failLaunches false),
  .perform (.start lobbyId),
  .perform (.addTemplate lobbyId ⟨"lobby", "menus", "local"⟩),
  .perform (.addTemplate (Uuid.ofNat 2) ⟨"lobby", "lost", "local"⟩)]

/-- The last template is still queued then, and a restart takes it up. -/
theorem changes_patient :
    (lobbyEmpty.IsNew ∧
      ((lobbyEmpty.live patient).owned.find? lobbyId).map
          (fun w => (w.record.plan.templates.map (·.name), w.templates.map (·.name))) =
        some (["base", "maps", "skins"], ["menus"]) ∧
      ((lobbyEmpty.live patient).pass (.perform (.restart lobbyId))).launcher.launches.length = 2) ∧
    (∀ id w, (lobbyEmpty.live patient).owned.find? id = some w → ∃ past plan later,
      patient = past ++ .perform (.create plan) :: later ∧
        (lobbyEmpty.live past).drawnAt (.perform (.create plan)) = [id] ∧
        let made := (lobbyEmpty.live past).pass (.perform (.create plan))
        id ∉ made.drawn later ∧ w.changes = plan.changes ++ made.accepted id later) ∧
    ∀ m, ((lobbyEmpty.live patient).pass m).launcher.launches =
        (lobbyEmpty.live patient).launcher.launches ∨
      ∃ id, m.Starts id ∧
        Launches id (lobbyEmpty.live patient) ((lobbyEmpty.live patient).pass m) :=
  ⟨⟨isNew_lobbyEmpty, by decide, by decide⟩, changes_once_in_order isNew_lobbyEmpty patient⟩

end Supervisor

end WorkerCluster
