import WorkerCluster.Proofs.Supervisor.Processes

/-!
# Who holds which process

* `Supervisor.Tended` holds if the workers fit together and each of them holds no process but one
  that was launched for it. So no process is held twice.
* `Turn.tended` says that it stays so; no fresh ids are needed for that.
* `Supervisor.unread` is what the process of a worker has written and nobody has taken yet;
  `ended_eq` and `Released.process?` say what a stop leaves of the worker and of other processes.
-/

namespace WorkerCluster

/-- A worker that is down holds no process. -/
theorem OwnedWorker.Sound.idle_of_down {node : NodeId} {id : Uuid} {w : OwnedWorker}
    (h : w.Sound node id) (down : w.IsDown) : w.process = none := by
  cases process : w.process with
  | none => rfl
  | some pid =>
    have running := h.process.1 (by rw [process]; rfl)
    rcases down with down | down <;> rw [running] at down <;> cases down

namespace Supervisor

/-- Every worker fits together, and holds no process but one that was launched for it. -/
structure Tended (s : Supervisor) : Prop where
  sound : AllOwned (fun id w => w.Sound s.node.id id) s
  own : ∀ id pid, s.processOf? id = some pid → s.launcher.workerOf? pid = some id

/-- The lines that the process of a worker has written and nobody has taken yet. -/
def unread (s : Supervisor) (id : Uuid) : List String := (s.processOf? id).elim [] s.launcher.output

variable {s t : Supervisor} {id id' : Uuid} {v w : OwnedWorker} {pid : ℕ}

/-! ### Nothing is held twice -/

theorem Tended.of_same (h : s.Tended) (sound : AllOwned (fun id w => w.Sound t.node.id id) t)
    (worker : ∀ pid, t.launcher.workerOf? pid = s.launcher.workerOf? pid)
    (process : ∀ id pid, t.processOf? id = some pid → s.processOf? id = some pid) : t.Tended where
  sound
  own id pid holds := (worker pid).trans (h.own id pid (process id pid holds))

/-- A worker may be replaced by one that holds the same process, or none. -/
theorem processOf?_of_edit (found : s.owned.find? id = some w)
    (owned : t.owned = s.owned.insert id v) (same : v.process = w.process ∨ v.process = none)
    (id' : Uuid) (pid : ℕ) (holds : t.processOf? id' = some pid) : s.processOf? id' = some pid := by
  rw [processOf?_insert owned] at holds
  split at holds
  · next e =>
    obtain same | same := same
    · rw [e, processOf?_found found, ← same, holds]
    · rw [same] at holds
      cases holds
  · exact holds

theorem Turn.tended (h : s.Tended) (turn : Turn s t) : t.Tended := by
  have sound := turn.sound h.sound
  cases turn with
  | @create plan port accepted room free =>
    refine h.of_same sound (fun _ => rfl) fun id pid holds => ?_
    rw [processOf?_insert (w := s.newWorker plan s.host.ids.draw.1 port) rfl] at holds
    split at holds
    · cases holds
    · exact holds
  | applyQueued found down =>
    exact h.of_same sound (fun _ => rfl) (processOf?_of_edit found rfl (.inl rfl))
  | files files => exact h.of_same sound (fun _ => rfl) fun _ _ holds => holds
  | @launch id w pid launcher found down launched =>
    refine ⟨sound, fun id' q holds => ?_⟩
    have uuid : (s.launchOf w).worker.uuid = id := (h.sound id w found).uuid
    rw [processOf?_insert (w := w.launched pid) rfl] at holds
    show launcher.workerOf? q = _
    rw [Launcher.launch_workerOf? launched]
    split at holds
    · next e =>
      cases holds
      rw [if_pos rfl, uuid, e]
    · have before := h.own id' q holds
      rw [if_neg (Launcher.launch_ne launched before), before]
  | stop force found running =>
    exact h.of_same sound (ended_released _ _ _).ages.1.workerOf?
      (processOf?_of_edit found rfl (.inr (ended_process _ _ _)))
  | delete found released =>
    refine h.of_same sound released.ages.1.workerOf? fun id' pid holds => ?_
    rw [processOf?_erase rfl] at holds
    split at holds
    · cases holds
    · exact holds
  | write found process written =>
    exact h.of_same sound (Launcher.ages_write written).workerOf? fun _ _ holds => holds
  | enqueue templates inclusions deployments found =>
    exact h.of_same sound (fun _ => rfl) (processOf?_of_edit found rfl (.inl rfl))
  | connect found changes =>
    exact h.of_same sound (fun _ => rfl) (processOf?_of_edit found rfl (.inl rfl))
  | flush found process =>
    exact h.of_same sound (Launcher.ages_drain _ _).workerOf?
      (processOf?_of_edit found rfl (.inl rfl))
  | happen event =>
    refine h.of_same sound (happen_ages s event).workerOf? fun id pid holds => ?_
    cases event <;> exact holds

theorem Turns.tended (h : s.Tended) (turns : Turns s t) : t.Tended :=
  path_keeps (P := Tended) (fun _ _ h turn => turn.tended h) h turns

/-- **In every reachable state each worker holds no process but one of its own.** -/
theorem Reachable.tended {node : NodeIdentity} {settings : Settings}
    (h : Reachable node settings s) : s.Tended := by
  refine h.ind (motive := Tended)
    (fun launcher host _ => ⟨fun _ _ found => ?_, fun _ _ holds => ?_⟩)
    (fun s t h turn => turn.tended h) fun s t h hearing => ?_
  · cases found
  · cases holds
  · refine h.of_same ?_ (fun pid => by rw [hearing.launcher_eq]) fun id pid holds => ?_
    · rw [hearing.node_eq]
      exact h.sound.congr hearing.owned_eq
    · rwa [processOf?, hearing.owned_eq] at holds

/-- No process is held twice. -/
theorem Tended.injective (h : s.Tended) (holds : s.processOf? id = some pid)
    (holds' : s.processOf? id' = some pid) : id = id' :=
  Option.some_injective _ ((h.own id pid holds).symm.trans (h.own id' pid holds'))

/-- A stop launches nothing. -/
theorem halt_ages (s : Supervisor) (force deleting : Bool) (id : Uuid) :
    s.launcher.Ages (s.halt force deleting id).2.launcher := by
  obtain same | ⟨w, -, -, after⟩ := halt_cases s force deleting id
  · rw [same]
    exact .refl _
  · split at after <;> rw [after] <;> exact (ended_released _ _ _).ages.1

/-! ### What is left to take -/

theorem unread_found (found : s.owned.find? id = some w) :
    s.unread id = w.process.elim [] s.launcher.output := by
  rw [unread, processOf?_found found]

/-- What is left of a worker that is stopped: its last lines are followed by those that its process
has written since. -/
theorem ended_eq (l : Launcher) (force : Bool) (w : OwnedWorker) :
    (ended l force w).1 = { w with
      record := w.record.down .stopped
      process := none
      logs := w.logs.extend (w.process.elim [] l.output) } := by
  cases process : w.process with
  | none =>
    simp only [ended, process]
    rfl
  | some pid =>
    have lines : (endProcess l force pid).1 = l.output pid := by
      rw [endProcess, Launcher.drain_fst]
      cases force
      · exact Launcher.output_stop l pid pid
      · exact Launcher.output_kill l pid pid
    simp only [ended, process, lines]
    rfl

/-- Whatever becomes of the process of a worker that is let go, nothing happens to others. -/
theorem Released.process? {l l' : Launcher} (h : Released w l l') (other : w.process ≠ some pid) :
    l'.process? pid = l.process? pid := by
  cases h with
  | idle none => rfl
  | stopped some =>
    refine Launcher.process?_update.trans (if_neg ?_)
    rintro rfl
    exact other some
  | @ended q some force =>
    have ne : pid ≠ q := by
      rintro rfl
      exact other some
    refine (Launcher.process?_update.trans (if_neg ne)).trans ?_
    cases force
    · show (l.stop q).process? pid = _
      exact Launcher.process?_update.trans (if_neg ne)
    · show (l.kill q).process? pid = _
      exact Launcher.process?_update.trans (if_neg ne)

/-- So nothing is taken from them. -/
theorem Released.output {l l' : Launcher} (h : Released w l l') (other : w.process ≠ some pid) :
    l'.output pid = l.output pid := by
  rw [Launcher.output, h.process? other, Launcher.output]

end Supervisor

end WorkerCluster
