import WorkerCluster.Proofs.Host.Files
import WorkerCluster.Proofs.Supervisor.Turn

/-!
# Starts and restarts

* `Supervisor.CannotLaunch` says when the process of a worker cannot be launched, and
  `Supervisor.withLaunched` what becomes of the supervisor if it can. `launch_of_can` and
  `launch_of_cannot` take a launch apart.
* `start_cases` says what a start does, and `restart_of_running` what a restart is made of.
-/

namespace WorkerCluster

namespace OwnedWorker

/-- Nothing has been queued for the next start. -/
def HasEmptyQueues (w : OwnedWorker) : Prop :=
  w.templates = [] ∧ w.inclusions = [] ∧ w.deployments = []

theorem applyQueued_eq_self {w : OwnedWorker} : w.applyQueued = w ↔ w.HasEmptyQueues := by
  constructor
  · intro h
    exact ⟨(congrArg templates h).symm, (congrArg inclusions h).symm,
      (congrArg deployments h).symm⟩
  · obtain ⟨record, process, logs, directory, templates, inclusions, deployments⟩ := w
    rintro ⟨rfl, rfl, rfl⟩
    simp [applyQueued]

end OwnedWorker

namespace Supervisor

/-- The process of a worker cannot be launched: its directory cannot be made, or the launch
fails. -/
def CannotLaunch (s : Supervisor) (w : OwnedWorker) : Prop :=
  s.host.files.makeDirs w.directory = none ∨ s.launcher.failing (s.launchOf w) = true

/-- The state in which the process of a worker has been launched, and the files are given ones. -/
def withLaunched (s : Supervisor) (id : Uuid) (w : OwnedWorker) (files : FileTree) : Supervisor :=
  let runs := s.launcher.runs ++ [(s.launchOf w, ({} : Process))]
  let launched := w.launched (s.launcher.runs.length + 1)
  ({ s with
    host := { s.host with files }
    launcher := { s.launcher with runs } }.setOwned id launched).publish launched.record

variable {s t : Supervisor} {id : Uuid} {w : OwnedWorker}

/-! ### Launches -/

/-- What is launched for a worker depends on the node and its settings alone. -/
theorem launchOf_congr (node : t.node = s.node) (settings : t.settings = s.settings)
    (w : OwnedWorker) : t.launchOf w = s.launchOf w := by
  rw [launchOf, launchOf, environment, environment, node, settings]

theorem launch_of_can (id : Uuid) (can : ¬ s.CannotLaunch w) :
    ∃ files, s.host.files.makeDirs w.directory = some files ∧
      s.launch id w =
        (some (w.launched (s.launcher.runs.length + 1)).record, s.withLaunched id w files) := by
  rw [CannotLaunch, not_or, Bool.not_eq_true] at can
  obtain ⟨made, succeeds⟩ := can
  obtain ⟨files, made⟩ := Option.ne_none_iff_exists'.1 made
  refine ⟨files, made, ?_⟩
  rw [launch, made]
  dsimp only
  rw [Launcher.launch, if_neg]
  · rfl
  · exact Bool.eq_false_iff.1 succeeds

/-- If a process cannot be launched, nothing happens but that directories may be made. -/
theorem launch_of_cannot (id : Uuid) (cannot : s.CannotLaunch w) :
    ∃ files, files.files = s.host.files.files ∧
      s.launch id w = (none, { s with host := { s.host with files } }) := by
  cases made : s.host.files.makeDirs w.directory with
  | none => exact ⟨s.host.files, rfl, by rw [launch, made]⟩
  | some files =>
    have failing : s.launcher.failing (s.launchOf w) = true := by
      simpa [CannotLaunch, made] using cannot
    refine ⟨files, FileTree.files_makeDirs made, ?_⟩
    rw [launch, made]
    dsimp only
    rw [Launcher.launch, if_pos]
    exact failing

/-- Either a process cannot be launched, and nothing but files may change, or it is launched. -/
theorem launch_cases (s : Supervisor) (id : Uuid) (w : OwnedWorker) :
    ∃ files,
      (s.CannotLaunch w ∧ s.launch id w = (none, { s with host := { s.host with files } })) ∨
      (¬ s.CannotLaunch w ∧ ∃ pid launcher,
        s.launch id w = (some (w.launched pid).record,
          (({ s with host := { s.host with files }, launcher }.setOwned id
            (w.launched pid)).publish (w.launched pid).record))) := by
  by_cases cannot : s.CannotLaunch w
  · obtain ⟨files, -, after⟩ := launch_of_cannot id cannot
    exact ⟨files, .inl ⟨cannot, after⟩⟩
  · obtain ⟨files, -, after⟩ := launch_of_can id cannot
    exact ⟨files, .inr ⟨cannot, _, _, after⟩⟩

/-! ### Starts -/

/-- A worker that is down is launched once what has been queued is in its plan. -/
theorem start_of_down (found : s.owned.find? id = some w) (down : w.IsDown) :
    s.start id = (s.setOwned id w.applyQueued).launch id w.applyQueued := by
  rcases down with h | h <;> simp only [start, found, h]

theorem start_of_not_down (found : s.owned.find? id = some w) (up : ¬ w.IsDown) :
    (s.start id).2 = s := by
  cases h : w.record.lifecycle with
  | prepared => exact absurd (.inl h) up
  | stopped => exact absurd (.inr h) up
  | running => simp only [start, found, h]
  | deleted => simp only [start, found, h]

/-- A start does nothing, or it takes what has been queued into the plan of a worker and launches
its process if it can. -/
theorem start_cases (s : Supervisor) (id : Uuid) : (s.start id).2 = s ∨
    ∃ w files, s.owned.find? id = some w ∧ w.IsDown ∧ files.files = s.host.files.files ∧
      (s.CannotLaunch w ∧
          (s.start id).2 = { s.setOwned id w.applyQueued with host := { s.host with files } } ∨
        ¬ s.CannotLaunch w ∧
          (s.start id).2 = (s.setOwned id w.applyQueued).withLaunched id w.applyQueued files) := by
  cases found : s.owned.find? id with
  | none => exact .inl (by rw [start, found])
  | some w =>
    by_cases down : w.IsDown
    · rw [start_of_down found down]
      refine .inr ⟨w, ?_⟩
      by_cases cannot : (s.setOwned id w.applyQueued).CannotLaunch w.applyQueued
      · obtain ⟨files, same, after⟩ := launch_of_cannot id cannot
        exact ⟨files, rfl, down, same, .inl ⟨cannot, by rw [after]; rfl⟩⟩
      · obtain ⟨files, made, after⟩ := launch_of_can id cannot
        exact ⟨files, rfl, down, FileTree.files_makeDirs made, .inr ⟨cannot, by rw [after]⟩⟩
    · exact .inl (start_of_not_down found down)

/-- A start comes down to what becomes of a worker for which nothing is queued any more, and of one
that has been launched then. -/
theorem start_continues {R : OwnedWorker → OwnedWorker → Prop} [Std.Refl R]
    (queued : ∀ w, w.IsDown → R w w.applyQueued)
    (launched : ∀ w pid, w.IsDown → R w (w.applyQueued.launched pid)) (s : Supervisor) (id : Uuid) :
    s.Continues R (s.start id).2 := by
  obtain same | ⟨w, files, found, down, -, ⟨-, after⟩ | ⟨-, after⟩⟩ := start_cases s id
  · rw [same]
    exact continues_of_owned_eq rfl
  · rw [after]
    exact continues_of_edit found rfl (queued w down)
  · rw [after]
    exact continues_of_edit found (SortedMap.insert_insert_self ..) (launched w _ down)

/-! ### Restarts -/

theorem ended_failing (l : Launcher) (force : Bool) (w : OwnedWorker) :
    (ended l force w).2.failing = l.failing := by
  have update (l : Launcher) (pid : ℕ) (f : Process → Process) :
      (l.update pid f).failing = l.failing := by
    unfold Launcher.update
    split <;> rfl
  cases hp : w.process with
  | none => simp [ended, hp]
  | some pid =>
    cases force <;>
      simp [ended, hp, endProcess, Launcher.drain, Launcher.stop, Launcher.kill, update]

/-- For a worker that has been stopped the same is launched again. -/
theorem launchOf_ended (s : Supervisor) (l : Launcher) (force : Bool) (w : OwnedWorker) :
    s.launchOf (ended l force w).1 = s.launchOf w := by
  rw [launchOf, environment, ended_record, ended_directory]
  rfl

/-- A worker that is restarted is stopped and started, whether it is deleted on a stop or not. -/
theorem restart_of_running (found : s.owned.find? id = some w)
    (running : w.record.isRunning = true) :
    s.restart id =
      (({ s with launcher := (ended s.launcher false w).2 }.setOwned id
        (ended s.launcher false w).1).publish (ended s.launcher false w).1.record).start id := by
  simp only [restart, halt, found, running, Bool.not_true, Bool.false_eq_true, if_false,
    Bool.false_and]

theorem restart_of_not_running (found : s.owned.find? id = some w)
    (idle : w.record.isRunning = false) : s.restart id = s.start id := by
  simp only [restart, halt, found, idle, Bool.not_false, if_true]

end Supervisor

end WorkerCluster
