import WorkerCluster.Proofs.Host.Launcher
import WorkerCluster.Proofs.Supervisor.History

/-!
# Processes of workers

Who holds the processes that have been launched.

* `Supervisor.processOf?` is the process that a worker holds. `Supervisor.Attended` holds if that is
  the last one launched for the worker, and if every process that is alive is held.
* `Attended.ages`, `Attended.release` and `Attended.launch` are the three ways in which turns go on
  from there; `lasting_attended` puts them together.
* `Supervised` says that a process that is alive is that of exactly one worker, which runs;
  `supervised_of_fresh` is the main statement: so it is, whatever happens.
-/

namespace WorkerCluster

namespace Supervisor

/-- The process that a worker of the node holds. -/
def processOf? (s : Supervisor) (id : Uuid) : Option ℕ := (s.owned.find? id).bind (·.process)

/-- Workers and processes belong together. -/
structure Attended (s : Supervisor) : Prop where
  /-- What a worker holds is the last process that was launched for it. -/
  last : ∀ id pid, s.processOf? id = some pid → s.launcher.last? id = some pid
  /-- A process that is alive is held by the worker for which it was launched. -/
  held : ∀ id pid, s.launcher.isAlive pid = true → s.launcher.workerOf? pid = some id →
    s.processOf? id = some pid

variable {s t : Supervisor} {id : Uuid} {w : OwnedWorker}

/-- Nothing is left to itself, and nothing is started twice. -/
structure Supervised (s : Supervisor) : Prop where
  /-- A process that is alive is that of exactly one worker, which runs and for which no process has
  been launched since. -/
  alive : ∀ pid, s.launcher.isAlive pid = true → ∃ id w,
    (s.owned.find? id = some w ∧ w.process = some pid) ∧
      (∀ id' w', s.owned.find? id' = some w' → w'.process = some pid → id' = id) ∧
      w.record.lifecycle = .running ∧ s.launcher.last? id = some pid
  /-- No process is alive that was launched for a worker that does not run or is gone. -/
  dead : ∀ id, (∀ w, s.owned.find? id = some w → w.record.lifecycle ≠ .running) →
    ∀ pid, s.launcher.workerOf? pid = some id → s.launcher.isAlive pid = false
  /-- Of the processes that were launched for a worker, one at most is alive. -/
  single : ∀ id pid pid', s.launcher.workerOf? pid = some id → s.launcher.workerOf? pid' = some id →
    s.launcher.isAlive pid = true → s.launcher.isAlive pid' = true → pid = pid'

/-! ### What workers hold -/

theorem processOf?_found (found : s.owned.find? id = some w) : s.processOf? id = w.process := by
  rw [processOf?, found, Option.bind_some]

theorem processOf?_insert (ht : t.owned = s.owned.insert id w) (id' : Uuid) :
    t.processOf? id' = if id' = id then w.process else s.processOf? id' := by
  rw [processOf?, ht, SortedMap.find?_insert]
  split <;> rfl

/-- A worker may change in all but its process. -/
theorem processOf?_insert_of_process {v : OwnedWorker} (ht : t.owned = s.owned.insert id v)
    (h : s.processOf? id = v.process) (id' : Uuid) : t.processOf? id' = s.processOf? id' := by
  rw [processOf?_insert ht]
  split
  · rename_i e
    rw [e, h]
  · rfl

theorem processOf?_erase (ht : t.owned = s.owned.erase id) (id' : Uuid) :
    t.processOf? id' = if id' = id then none else s.processOf? id' := by
  rw [processOf?, ht, SortedMap.find?_erase]
  split <;> rfl

/-- Whatever becomes of the process of a worker that is let go, it does not live on. -/
theorem Released.ages {l l' : Launcher} (h : Released w l l') :
    l.Ages l' ∧ ∀ pid, w.process = some pid → l'.isAlive pid = false := by
  cases h with
  | idle none =>
    refine ⟨.refl l, fun pid some => ?_⟩
    rw [none] at some
    cases some
  | @stopped pid some =>
    refine ⟨l.ages_stop pid, fun q held => ?_⟩
    cases some.symm.trans held
    exact l.isAlive_stop pid
  | @ended pid some force =>
    have ages : l.Ages (if force then l.kill pid else l.stop pid) := by
      cases force
      · exact l.ages_stop pid
      · exact l.ages_kill pid
    have dead : (if force then l.kill pid else l.stop pid).isAlive pid = false := by
      cases force
      · exact l.isAlive_stop pid
      · exact l.isAlive_kill pid
    have drain : Launcher.Ages _ (endProcess l force pid).2 := Launcher.ages_drain _ pid
    refine ⟨ages.trans drain, fun q held => ?_⟩
    cases some.symm.trans held
    exact Bool.eq_false_iff.2 fun alive => by rw [drain.alive pid alive] at dead; cases dead

/-- What the script lets happen launches nothing and brings nothing back. -/
theorem happen_ages (s : Supervisor) (event : Event) :
    s.launcher.Ages (s.happen event).2.launcher := by
  cases event with
  | failLaunches failing => exact ⟨rfl, fun _ alive => alive⟩
  | failSome failing => exact ⟨rfl, fun _ alive => alive⟩
  | exit worker => exact Launcher.ages_script fun _ alive => nomatch alive
  | emit worker line => exact Launcher.ages_script fun _ alive => alive
  | now time => exact .refl _

/-! ### Turns -/

/-- Nothing is launched, and the workers hold what they held. -/
theorem Attended.ages (h : s.Attended) (ages : s.launcher.Ages t.launcher)
    (process : ∀ id, t.processOf? id = s.processOf? id) : t.Attended where
  last id pid holds := by
    rw [ages.last?]
    exact h.last id pid (process id ▸ holds)
  held id pid alive worker := by
    rw [process]
    exact h.held id pid (ages.alive pid alive) (ages.workerOf? pid ▸ worker)

/-- A worker lets its process go, which is not alive any more. -/
theorem Attended.release (h : s.Attended) (id : Uuid) (ages : s.launcher.Ages t.launcher)
    (gone : ∀ pid, s.processOf? id = some pid → t.launcher.isAlive pid = false)
    (process : ∀ id', t.processOf? id' = if id' = id then none else s.processOf? id') :
    t.Attended where
  last id' pid holds := by
    rw [process] at holds
    split at holds
    · cases holds
    · rw [ages.last?]
      exact h.last id' pid holds
  held id' pid alive worker := by
    have held := h.held id' pid (ages.alive pid alive) (ages.workerOf? pid ▸ worker)
    have other : id' ≠ id := by
      rintro rfl
      rw [gone pid held] at alive
      cases alive
    rw [process, if_neg other, held]

/-- A worker that holds no process gets one. -/
theorem Attended.launch (h : s.Attended) {what : Launch} {pid : ℕ}
    (launched : s.launcher.launch what = some (pid, t.launcher))
    (idle : s.processOf? what.worker.uuid = none)
    (process : ∀ id, t.processOf? id =
      if id = what.worker.uuid then some pid else s.processOf? id) : t.Attended where
  last id q holds := by
    rw [process] at holds
    rw [Launcher.launch_last? launched]
    split at holds
    · rename_i e
      rw [if_pos e.symm, holds]
    · rename_i ne
      rw [if_neg (Ne.symm ne)]
      exact h.last id q holds
  held id q alive worker := by
    rw [Launcher.launch_workerOf? launched] at worker
    rw [process]
    split at worker
    · rename_i e
      cases worker
      rw [if_pos rfl, e]
    · rename_i ne
      have before := ((Launcher.launch_isAlive launched q).1 alive).resolve_left ne
      have held := h.held id q before worker
      have other : id ≠ what.worker.uuid := by
        rintro rfl
        rw [idle] at held
        cases held
      rw [if_neg other, held]

theorem lasting_attended : Lasting fun _ s => s.Attended where
  create {made s plan port} known h fresh := by
    have none : s.processOf? s.host.ids.draw.1 = none := by
      rw [processOf?, known.unknown _ fresh, Option.bind_none]
    exact h.ages (.refl _) (processOf?_insert_of_process rfl none)
  life {made s t} known h turn := by
    obtain ⟨turn, ids⟩ := turn
    cases turn with
    | create accepted room free => exact absurd ids (IdSupply.draw_ne _)
    | applyQueued found down =>
      exact h.ages (.refl _) (processOf?_insert_of_process rfl ((processOf?_found found).trans rfl))
    | files files => exact h.ages (.refl _) fun _ => rfl
    | @launch id w pid launcher found down launched =>
      have sound := known.sound id w found
      have idle : w.process = none := by
        cases hp : w.process with
        | none => rfl
        | some q =>
          have running := sound.process.1 (by rw [hp]; rfl)
          rcases down with down | down <;> rw [running] at down <;> cases down
      have uuid : (s.launchOf w).worker.uuid = id := sound.uuid
      refine h.launch launched ?_ ?_
      · rw [uuid, processOf?_found found, idle]
      · rw [uuid]
        exact processOf?_insert (w := w.launched pid) rfl
    | @stop id w force found running =>
      obtain ⟨ages, gone⟩ := (ended_released s.launcher force w).ages
      refine h.release id ages (fun pid held => gone pid ?_) ?_
      · rw [← processOf?_found found, held]
      · rw [← ended_process s.launcher force w]
        exact processOf?_insert rfl
    | @delete id w launcher found released =>
      obtain ⟨ages, gone⟩ := released.ages
      refine h.release id ages (fun pid held => gone pid ?_) (processOf?_erase rfl)
      rw [← processOf?_found found, held]
    | write found process written => exact h.ages (Launcher.ages_write written) fun _ => rfl
    | enqueue templates inclusions deployments found =>
      exact h.ages (.refl _) (processOf?_insert_of_process rfl ((processOf?_found found).trans rfl))
    | connect found changes =>
      exact h.ages (.refl _) (processOf?_insert_of_process rfl ((processOf?_found found).trans rfl))
    | flush found process =>
      exact h.ages (Launcher.ages_drain _ _)
        (processOf?_insert_of_process rfl ((processOf?_found found).trans rfl))
    | happen event =>
      refine h.ages (happen_ages s event) fun _ => ?_
      cases event <;> rfl
  hearing _ h hearing := by
    refine h.ages ?_ fun id => ?_
    · cases hearing <;> exact .refl _
    · rw [processOf?, hearing.owned_eq, processOf?]

/-! ### Supervision -/

theorem IsNew.attended (new : s.IsNew) : s.Attended where
  last id pid holds := by
    rw [processOf?, new.owned] at holds
    cases holds
  held id pid alive worker := by
    rw [Launcher.workerOf?, Launcher.launches, new.runs] at worker
    split at worker <;> cases worker

theorem Attended.supervised (h : s.Attended)
    (sound : AllOwned (fun id w => w.Sound s.node.id id) s) : s.Supervised where
  alive pid alive := by
    obtain ⟨id, worker⟩ := Launcher.exists_workerOf? alive
    have held := h.held id pid alive worker
    obtain ⟨w, found, process⟩ := Option.bind_eq_some_iff.1 held
    refine ⟨id, w, ⟨found, process⟩, fun id' w' found' process' => ?_, ?_, h.last id pid held⟩
    · -- either worker holds the last process that was launched for it
      have last := h.last id' pid ((processOf?_found found').trans process')
      exact Option.some_injective _ ((Launcher.workerOf?_last? last).symm.trans worker)
    · exact (sound id w found).process.1 (by rw [process]; rfl)
  dead id down pid worker := by
    refine Bool.eq_false_iff.2 fun alive => ?_
    obtain ⟨w, found, process⟩ := Option.bind_eq_some_iff.1 (h.held id pid alive worker)
    exact down w found ((sound id w found).process.1 (by rw [process]; rfl))
  single id pid pid' worker worker' alive alive' := by
    -- either process is the one that the worker holds
    have held := h.held id pid alive worker
    have held' := h.held id pid' alive' worker'
    exact Option.some_injective _ (held.symm.trans held')

/-- **Whatever happens, every process that is alive is that of exactly one worker, which runs, and
the last one that was launched for it**, if no id is drawn twice. -/
theorem supervised_of_fresh (new : s.IsNew) (history : List Moment)
    (fresh : (s.drawn history).Nodup) : (s.live history).Supervised := by
  obtain ⟨known, attended⟩ := lasting_attended.live new new.attended history fresh
  exact attended.supervised known.sound

/-! ### A small history -/

/-- The id of the second worker that is made. -/
def secondId : Uuid := (Uuid.ofNat 2).random

/-- One worker is restarted; the process of another one exits. -/
def twoWorkers : List Moment := [
  .perform (.create lobbyPlan),
  .perform (.start lobbyId),
  .perform (.restart lobbyId),
  .perform (.create lobbyPlan),
  .perform (.start secondId),
  .happen (.exit secondId)]

/-- Of three processes the second is alive then. -/
theorem supervised_twoWorkers :
    ((lobbyEmpty.drawn twoWorkers).Nodup ∧
      [1, 2, 3].map (lobbyEmpty.live twoWorkers).launcher.isAlive = [false, true, false]) ∧
      (lobbyEmpty.live twoWorkers).Supervised :=
  ⟨by decide +kernel, supervised_of_fresh isNew_lobbyEmpty twoWorkers (by decide +kernel)⟩

end Supervisor

end WorkerCluster
