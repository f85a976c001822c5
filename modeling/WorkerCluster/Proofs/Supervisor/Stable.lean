import WorkerCluster.Proofs.Runs
import WorkerCluster.Proofs.SortedMap
import WorkerCluster.Supervisor.Step

/-!
# Operations that start nothing

Stopping workers, deleting them and dealing with their consoles and connections comes down to a few
changes.

* `Supervisor.withStopped` and `Supervisor.without` are the states after a stop and after a
  deletion; `halt_cases` and `delete_cases` say when they are reached.
* `Supervisor.Stable` is a relation that holds between the states before and after each of those
  changes. `Stable.of_plain` says that it holds for every operation that is made of them;
  `Supervisor.Steady` is one that holds for all of them but connections.
* `Supervisor.Continues` is one that does in most cases: whoever is there was there before, and has
  become what it is in a given way. `stable_continues` asks for single workers only.
  `Supervisor.Carries` is the case in which some part of a worker is what it was.
-/

namespace WorkerCluster

namespace OwnedWorker

/-- A worker whose process has connected back, or is gone from its connection. -/
def connect (w : OwnedWorker) (connected : Bool) : OwnedWorker :=
  { w with record := { w.record with connected } }

/-- A part of a worker is as it was. -/
def Same {α : Type} (part : OwnedWorker → α) (v w : OwnedWorker) : Prop := part w = part v

instance isPreorder_same {α : Type} (part : OwnedWorker → α) :
    IsPreorder OwnedWorker (Same part) where
  refl _ := rfl
  trans _ _ _ h h' := h'.trans h

end OwnedWorker

namespace Supervisor

/-- The files that are left when a worker has been deleted. -/
def filesWithout (s : Supervisor) (w : OwnedWorker) : FileTree :=
  if !w.record.plan.keepsFiles && s.host.files.isDirectory w.directory then
    s.host.files.removeDir w.directory
  else s.host.files

/-- What may have become of the launcher when a worker is deleted: its process, if it has one, has
been stopped or ended. -/
inductive Released (w : OwnedWorker) (l : Launcher) : Launcher → Prop
  | idle (none : w.process = none) : Released w l l
  | stopped {pid : Nat} (some : w.process = some pid) : Released w l (l.stop pid)
  | ended {pid : Nat} (some : w.process = some pid) (force : Bool) :
      Released w l (endProcess l force pid).2

/-- The state in which the process of a worker has been ended. -/
def withStopped (s : Supervisor) (force : Bool) (id : Uuid) (w : OwnedWorker) : Supervisor :=
  ({ s with launcher := (ended s.launcher force w).2 }.setOwned id
    (ended s.launcher force w).1).publish (ended s.launcher force w).1.record

/-- The state in which a worker is gone, when its process has been let go. -/
def without (s : Supervisor) (id : Uuid) (w : OwnedWorker) (launcher : Launcher) : Supervisor :=
  { s with
    owned := s.owned.erase id
    launcher
    host := { s.host with files := s.filesWithout w } }.publish (w.record.down .deleted)

/-- Whether an operation on the workers of the node is one that neither makes nor starts any, nor
queues anything for one. -/
def Step.IsPlain : Step → Prop
  | .stop _ | .kill _ | .delete _ | .reach _ .stopped | .reach _ .deleted | .reach _ .prepared
  | .deleteAll | .run _ _ | .setConnected _ _ | .sweep | .flushAll => True
  | _ => False

variable {s t u : Supervisor} {id : Uuid} {v w : OwnedWorker}

/-! ### Stops and deletions -/

theorem delete_of_none (h : s.owned.find? id = none) : s.delete id = (none, s) := by
  simp [delete, h]

theorem delete_of_some (found : s.owned.find? id = some w) :
    s.delete id = (some (w.record.down .deleted),
      { s with
        owned := s.owned.erase id
        launcher := match w.process with
          | some pid => s.launcher.stop pid
          | none => s.launcher
        host := { s.host with files := s.filesWithout w } }.publish (w.record.down .deleted)) := by
  simp only [delete, found]
  rfl

theorem ended_record (l : Launcher) (force : Bool) (w : OwnedWorker) :
    (ended l force w).1.record = w.record.down .stopped := by
  cases hp : w.process <;> simp [ended, hp]

theorem ended_process (l : Launcher) (force : Bool) (w : OwnedWorker) :
    (ended l force w).1.process = none := by
  cases hp : w.process <;> simp [ended, hp]

theorem ended_directory (l : Launcher) (force : Bool) (w : OwnedWorker) :
    (ended l force w).1.directory = w.directory := by
  cases hp : w.process <;> simp [ended, hp]

theorem ended_released (l : Launcher) (force : Bool) (w : OwnedWorker) :
    Released w l (ended l force w).2 := by
  cases hp : w.process with
  | none =>
    rw [show (ended l force w).2 = l by simp [ended, hp]]
    exact .idle hp
  | some pid =>
    rw [show (ended l force w).2 = (endProcess l force pid).2 by simp [ended, hp]]
    exact .ended hp force

/-- A worker that is deleted on its stop is deleted as if it had been running. -/
theorem halt_delete (s : Supervisor) (id : Uuid) (force : Bool) (w : OwnedWorker) :
    ({ s with launcher := (ended s.launcher force w).2 }.setOwned id
        (ended s.launcher force w).1).delete id =
      (some (w.record.down .deleted),
        { s with
          owned := s.owned.erase id
          launcher := (ended s.launcher force w).2
          host := { s.host with files := s.filesWithout w } }.publish
            (w.record.down .deleted)) := by
  rw [delete_of_some (w := (ended s.launcher force w).1) (by simp [setOwned])]
  simp only [ended_process, ended_record, filesWithout, ended_directory, setOwned,
    SortedMap.erase_insert_self]
  rfl

theorem delete_cases (s : Supervisor) (id : Uuid) : (s.delete id).2 = s ∨
    ∃ w launcher, s.owned.find? id = some w ∧ Released w s.launcher launcher ∧
      (s.delete id).2 = s.without id w launcher := by
  cases found : s.owned.find? id with
  | none => exact .inl (by rw [delete_of_none found])
  | some w =>
    refine .inr ⟨w, _, rfl, ?_, by rw [delete_of_some found]; rfl⟩
    cases process : w.process with
    | none => exact .idle process
    | some pid => exact .stopped process

/-- A worker that runs is stopped, or deleted if that is what its stop means. -/
theorem halt_of_running (found : s.owned.find? id = some w) (running : w.record.isRunning = true)
    (force deleting : Bool) :
    (s.halt force deleting id).2 =
      if deleting && w.record.plan.deleteOnStop then s.without id w (ended s.launcher force w).2
      else s.withStopped force id w := by
  have plan : (ended s.launcher force w).1.record.plan = w.record.plan := by
    rw [ended_record]
    rfl
  simp only [halt, found, running, Bool.not_true, Bool.false_eq_true, if_false, plan]
  split
  · rw [halt_delete]
    rfl
  · rfl

/-- A stop does nothing, or it is that of a worker that runs. -/
theorem halt_cases (s : Supervisor) (force deleting : Bool) (id : Uuid) :
    (s.halt force deleting id).2 = s ∨
    ∃ w, s.owned.find? id = some w ∧ w.record.isRunning = true ∧
      if deleting && w.record.plan.deleteOnStop then
        (s.halt force deleting id).2 = s.without id w (ended s.launcher force w).2
      else (s.halt force deleting id).2 = s.withStopped force id w := by
  cases found : s.owned.find? id with
  | none => exact .inl (by rw [halt, found])
  | some w =>
    cases running : w.record.isRunning with
    | false => exact .inl (by simp only [halt, found, running, Bool.not_false, if_true])
    | true =>
      refine .inr ⟨w, rfl, running, ?_⟩
      rw [halt_of_running found running]
      split <;> rfl

/-! ### Relations between states -/

/-- A relation that holds between the states before and after every change of which plain operations
are made, connections apart. -/
structure Steady (R : Supervisor → Supervisor → Prop) : Prop where
  refl (s : Supervisor) : R s s
  trans {s t u : Supervisor} : R s t → R t u → R s u
  /-- A worker is stopped that stays then. -/
  stop {s : Supervisor} {id : Uuid} {w : OwnedWorker} (force : Bool) :
    s.owned.find? id = some w → w.record.isRunning = true → w.record.plan.deleteOnStop = false →
      R s (s.withStopped force id w)
  /-- A worker is deleted. -/
  delete {s : Supervisor} {id : Uuid} {w : OwnedWorker} {launcher : Launcher} :
    s.owned.find? id = some w → Released w s.launcher launcher → R s (s.without id w launcher)
  /-- A line is written to the console of a worker. -/
  write {s : Supervisor} {id : Uuid} {w : OwnedWorker} {pid : ℕ} {line : String}
    {launcher : Launcher} : s.owned.find? id = some w → w.process = some pid →
      s.launcher.write pid line = some launcher → R s { s with launcher }
  /-- The lines that a process has written are taken. -/
  flush {s : Supervisor} {id : Uuid} {w : OwnedWorker} {pid : ℕ} :
    s.owned.find? id = some w → w.process = some pid →
      R s ({ s with launcher := (s.launcher.drain pid).2 }.setOwned id
        { w with logs := w.logs.extend (s.launcher.drain pid).1 })

/-- A relation that holds between the states before and after every change of which plain operations
are made. -/
structure Stable (R : Supervisor → Supervisor → Prop) : Prop extends Steady R where
  /-- A worker has connected back, or its connection is gone. -/
  connect {s : Supervisor} {id : Uuid} {w : OwnedWorker} {connected : Bool} :
    s.owned.find? id = some w → w.record.connected ≠ connected →
      R s ((s.setOwned id (w.connect connected)).publish (w.connect connected).record)

namespace Steady

variable {R : Supervisor → Supervisor → Prop}

theorem of_delete (h : Steady R) (s : Supervisor) (id : Uuid) : R s (s.delete id).2 := by
  obtain same | ⟨w, launcher, found, released, after⟩ := delete_cases s id
  · rw [same]
    exact h.refl s
  · rw [after]
    exact h.delete found released

theorem of_halt (h : Steady R) (s : Supervisor) (force : Bool) (id : Uuid) :
    R s (s.halt force true id).2 := by
  obtain same | ⟨w, found, running, after⟩ := halt_cases s force true id
  · rw [same]
    exact h.refl s
  · split at after
    · rw [after]
      exact h.delete found (ended_released _ _ _)
    · next stays =>
      rw [after]
      rw [Bool.true_and, Bool.not_eq_true] at stays
      exact h.stop force found running stays

theorem of_run (h : Steady R) (s : Supervisor) (id : Uuid) (command : String) :
    R s (s.run id command).2 := by
  unfold run
  split
  · exact h.refl s
  · next w found =>
    split
    · next launcher written =>
      obtain ⟨pid, process, written⟩ := Option.bind_eq_some_iff.1 written
      exact h.write found process written
    · exact h.refl s

theorem of_flush (h : Steady R) (s : Supervisor) (id : Uuid) : R s (s.flush id).2 := by
  unfold Supervisor.flush
  split
  · exact h.refl s
  · next w found =>
    split
    · exact h.refl s
    · next pid process => exact h.flush found process

theorem of_deleteAll (h : Steady R) (s : Supervisor) : R s s.deleteAll.2 := by
  refine foldl_lifts h.refl h.trans ?_ s.owned.keys (0, s)
  intro x id
  have deleted := h.of_delete x.2 id
  dsimp only
  split <;> rename_i answer <;> rwa [answer] at deleted

theorem of_sweep (h : Steady R) (s : Supervisor) : R s s.sweep.2 :=
  List.foldlRecOn s.exited _ (motive := R s) (h.refl s)
    fun _ before id _ => h.trans before (h.of_halt _ false id)

theorem of_flushAll (h : Steady R) (s : Supervisor) : R s s.flushAll.2 := by
  refine foldl_lifts h.refl h.trans ?_ s.owned.keys (0, s)
  intro x id
  exact h.of_flush x.2 id

/-- What holds for single changes holds for plain operations in which nobody is connected. -/
theorem of_plain (h : Steady R) (s : Supervisor) {step : Step} (plain : step.IsPlain)
    (other : ∀ id connected, step ≠ .setConnected id connected) : R s (s.perform step).2 := by
  cases step with
  | stop id => exact h.of_halt s false id
  | kill id => exact h.of_halt s true id
  | delete id => exact h.of_delete s id
  | reach id target =>
    cases target with
    | prepared => exact h.refl s
    | running => exact plain.elim
    | stopped => exact h.of_halt s false id
    | deleted => exact h.of_delete s id
  | deleteAll => exact h.of_deleteAll s
  | run id command => exact h.of_run s id command
  | setConnected id connected => exact absurd rfl (other id connected)
  | sweep => exact h.of_sweep s
  | flushAll => exact h.of_flushAll s
  | _ => exact plain.elim

end Steady

namespace Stable

variable {R : Supervisor → Supervisor → Prop}

theorem of_setConnected (h : Stable R) (s : Supervisor) (id : Uuid) (connected : Bool) :
    R s (s.setConnected id connected).2 := by
  unfold setConnected
  split
  · exact h.refl s
  · next w found =>
    split
    · exact h.refl s
    · next changes => exact h.connect found changes

/-- **A relation that holds for single changes holds for plain operations.** -/
theorem of_plain (h : Stable R) (s : Supervisor) {step : Step} (plain : step.IsPlain) :
    R s (s.perform step).2 := by
  cases step with
  | setConnected id connected => exact h.of_setConnected s id connected
  | _ => exact h.toSteady.of_plain s plain nofun

end Stable

/-! ### What becomes of single workers -/

section

variable {R : OwnedWorker → OwnedWorker → Prop}

/-- Whoever is there in the second state was there in the first, and has become what it is in a
given way. -/
def Continues (R : OwnedWorker → OwnedWorker → Prop) (s t : Supervisor) : Prop :=
  ∀ id w, t.owned.find? id = some w → ∃ v, s.owned.find? id = some v ∧ R v w

/-- Whoever is there in the second state was there in the first, and a part of it is as it was. -/
abbrev Carries {α : Type} (part : OwnedWorker → α) : Supervisor → Supervisor → Prop :=
  Continues (OwnedWorker.Same part)

theorem Continues.mono {R' : OwnedWorker → OwnedWorker → Prop} (h : s.Continues R t)
    (le : ∀ v w, R v w → R' v w) : s.Continues R' t := fun id w found =>
  let ⟨v, before, becomes⟩ := h id w found
  ⟨v, before, le v w becomes⟩

theorem Continues.trans [IsTrans OwnedWorker R] (h : s.Continues R t) (h' : t.Continues R u) :
    s.Continues R u := by
  intro id w found
  obtain ⟨v, there, later⟩ := h' id w found
  obtain ⟨v', before, first⟩ := h id v there
  exact ⟨v', before, IsTrans.trans _ _ _ first later⟩

variable [Std.Refl R]

theorem continues_of_owned_eq (owned : t.owned = s.owned) : s.Continues R t :=
  fun _ w found => ⟨w, owned ▸ found, Std.Refl.refl w⟩

/-- One worker may become another one in the given way. -/
theorem continues_of_edit (found : s.owned.find? id = some w)
    (owned : t.owned = s.owned.insert id v) (becomes : R w v) : s.Continues R t := by
  intro id' w' found'
  rw [owned, SortedMap.find?_insert] at found'
  split at found'
  · next same =>
    cases found'
    exact ⟨w, same ▸ found, becomes⟩
  · exact ⟨w', found', Std.Refl.refl w'⟩

theorem continues_of_erase (owned : t.owned = s.owned.erase id) : s.Continues R t := by
  intro id' w' found'
  rw [owned, SortedMap.find?_erase] at found'
  split at found'
  · cases found'
  · exact ⟨w', found', Std.Refl.refl w'⟩

theorem queue_continues (s : Supervisor) (id : Uuid) {f : OwnedWorker → OwnedWorker}
    (becomes : ∀ w, R w (f w)) : s.Continues R (s.queue id f).2 := by
  unfold queue
  split
  · exact continues_of_owned_eq rfl
  · next w found => exact continues_of_edit found rfl (becomes w)

/-- A stop comes down to what becomes of the worker that is stopped. -/
theorem halt_continues (stop : ∀ l force w, w.record.isRunning = true → R w (ended l force w).1)
    (s : Supervisor) (force deleting : Bool) (id : Uuid) :
    s.Continues R (s.halt force deleting id).2 := by
  obtain same | ⟨w, found, running, after⟩ := halt_cases s force deleting id
  · rw [same]
    exact continues_of_owned_eq rfl
  · split at after <;> rw [after]
    · exact continues_of_erase rfl
    · exact continues_of_edit found rfl (stop _ _ _ running)

variable [IsTrans OwnedWorker R]

/-- It is enough to look at what becomes of a worker that is stopped and stays, and of one whose
last lines change. -/
theorem steady_continues (stop : ∀ l force w, w.record.isRunning = true →
      w.record.plan.deleteOnStop = false → R w (ended l force w).1)
    (log : ∀ (w : OwnedWorker) logs, R w { w with logs }) : Steady (Continues R) where
  refl _ := continues_of_owned_eq rfl
  trans := Continues.trans
  stop _ found running stays := continues_of_edit found rfl (stop _ _ _ running stays)
  delete _ _ := continues_of_erase rfl
  write _ _ _ := continues_of_owned_eq rfl
  flush found _ := continues_of_edit found rfl (log _ _)

/-- For all plain operations, connections have to be looked at as well. -/
theorem stable_continues (stop : ∀ l force w, w.record.isRunning = true →
      w.record.plan.deleteOnStop = false → R w (ended l force w).1)
    (connect : ∀ w connected, R w (w.connect connected))
    (log : ∀ (w : OwnedWorker) logs, R w { w with logs }) : Stable (Continues R) where
  toSteady := steady_continues stop log
  connect found _ := continues_of_edit found rfl (connect _ _)

end

end Supervisor

end WorkerCluster
