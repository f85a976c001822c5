import WorkerCluster.Proofs.Message
import WorkerCluster.Proofs.Supervisor.View

/-!
# What a supervisor answers

The records that operations yield are those of workers that fit together, so JSON can hold them.

* `WorkerRecord.Shown` is what JSON needs of a record, its properties apart.
* `create_shown` and `execute_shown` go through the operations; `serve_portable` is what comes of
  them for answers to other nodes.
-/

namespace WorkerCluster

/-- Nothing is said about the use of the processor but that it is a number. -/
theorem ProcessUsage.isFinite_of_pid (pid : UInt32) :
    ({ pid } : ProcessUsage).cpuUsage.isFinite = true :=
  (rfl : Binary64.zero.isFinite = true)

/-- What a node shows of a worker, the properties apart. -/
structure WorkerRecord.Shown (w : WorkerRecord) : Prop where
  /-- Its address has a host. -/
  host : w.address.host ≠ ""
  /-- The use of the processor is a number. -/
  usage : w.process.cpuUsage.isFinite = true

theorem WorkerRecord.Shown.down {w : WorkerRecord} (h : w.Shown) (l : Lifecycle) :
    (w.down l).Shown := ⟨h.host, ProcessUsage.isFinite_of_pid _⟩

theorem WorkerRecord.Shown.ended {w : OwnedWorker} (h : w.record.Shown) (l : Launcher)
    (force : Bool) : (Supervisor.ended l force w).1.record.Shown := by
  rw [Supervisor.ended_record]
  exact h.down _

namespace Supervisor

variable {s : Supervisor} {id : Uuid} {w : OwnedWorker}

theorem Healthy.shown (hs : s.Healthy) (found : s.owned.find? id = some w) : w.record.Shown := by
  obtain ⟨sound, host⟩ := hs id w found
  refine ⟨host, ?_⟩
  rw [sound.usage]
  exact ProcessUsage.isFinite_of_pid _

/-- What an operation yields is a record that can be shown, if it is one. -/
def Shows (r : Option WorkerRecord) : Prop := ∀ w ∈ r, w.Shown

theorem shows_none : Shows none := fun _ h => nomatch h

theorem shows_some {w : WorkerRecord} (h : w.Shown) : Shows (some w) :=
  fun _ hv => Option.mem_some_iff.1 hv ▸ h

/-! ### Operations -/

theorem create_shown (hosts : s.node.Portable) (plan : WorkerPlan) : Shows (s.create plan).1 := by
  rcases create_cases s plan with h | ⟨port, -, -, -, h⟩
  · rw [h]
    exact shows_none
  · rw [h]
    exact shows_some ⟨advertisedHost_ne hosts, ProcessUsage.isFinite_of_pid _⟩

theorem launch_shown (hw : w.record.Shown) : Shows (s.launch id w).1 := by
  unfold launch
  split
  · exact shows_none
  · dsimp only
    split
    · exact shows_none
    · exact shows_some ⟨hw.host, ProcessUsage.isFinite_of_pid _⟩

theorem start_shown (hs : s.Healthy) (id : Uuid) : Shows (s.start id).1 := by
  unfold start
  split
  · exact shows_none
  · next w found =>
    have shown : w.record.Shown := hs.shown found
    have queued : w.applyQueued.record.Shown := ⟨shown.host, shown.usage⟩
    split
    · exact shows_some shown
    · exact shows_none
    · exact launch_shown queued
    · exact launch_shown queued

theorem delete_shown (hs : s.Healthy) (id : Uuid) : Shows (s.delete id).1 := by
  cases found : s.owned.find? id with
  | none =>
    rw [delete_of_none found]
    exact shows_none
  | some w =>
    rw [delete_of_some found]
    exact shows_some ((hs.shown found).down _)

theorem halt_shown (hs : s.Healthy) (force deleting : Bool) (id : Uuid) :
    Shows (s.halt force deleting id).1 := by
  unfold halt
  split
  · exact shows_none
  · next w found =>
    have shown : w.record.Shown := hs.shown found
    split
    · exact shows_some shown
    · dsimp only
      split
      · rw [halt_delete]
        exact shows_some (shown.down _)
      · exact shows_some (shown.ended _ _)

theorem restart_shown (hosts : s.node.Portable) (hs : s.Healthy) (id : Uuid) :
    Shows (s.restart id).1 := by
  have halted : Turns s (s.halt false false id).2 := (halt_turns s false false id).turns
  have healthy : (s.halt false false id).2.Healthy := halted.healthy hosts hs
  unfold restart
  split
  · exact shows_none
  · next h =>
    rw [h] at healthy
    exact start_shown healthy id

theorem run_shown (hs : s.Healthy) (id : Uuid) (command : String) : Shows (s.run id command).1 := by
  unfold run
  split
  · exact shows_none
  · next w found =>
    split
    · exact shows_some (hs.shown found)
    · exact shows_none

theorem queue_shown (hs : s.Healthy) (id : Uuid) (f : OwnedWorker → OwnedWorker) :
    Shows (s.queue id f).1 := by
  unfold queue
  split
  · exact shows_none
  · next w found => exact shows_some (hs.shown found)

/-! ### Answers -/

/-- **Whatever a healthy supervisor answers can be shown.** -/
theorem execute_shown (hosts : s.node.Portable) (hs : s.Healthy) (q : WorkerRequest) :
    Shows (s.execute q).1.record? := by
  obtain ⟨id, operation⟩ := q
  cases operation with
  | start => exact start_shown hs id
  | stop => exact halt_shown hs false true id
  | kill => exact halt_shown hs true true id
  | restart => exact restart_shown hosts hs id
  | delete => exact delete_shown hs id
  | run command => exact run_shown hs id command
  | addTemplate t => exact queue_shown hs id _
  | addInclusion i => exact queue_shown hs id _
  | addDeployment d => exact queue_shown hs id _
  | logs => exact shows_none

theorem serve_shown (hosts : s.node.Portable) (hs : s.Healthy) (q : RemoteRequest) :
    Shows (s.serve q).1.record? := by
  cases q with
  | worker q => exact execute_shown hosts hs q
  | create plan => exact create_shown hosts plan

/-- A supervisor itself refuses nothing. -/
theorem serve_ne_refused (s : Supervisor) (q : RemoteRequest) (reason : String) :
    (s.serve q).1 ≠ .refused reason := by
  cases q with
  | worker q =>
    obtain ⟨id, operation⟩ := q
    cases operation <;> exact RemoteResponse.noConfusion
  | create plan => exact RemoteResponse.noConfusion

end Supervisor

/-- The properties that an answer holds are as JSON holds them. -/
def RemoteResponse.Canonical (a : RemoteResponse) : Prop :=
  ∀ w ∈ a.record?, w.plan.properties.Canonical ∧ w.properties.Canonical

/-- **JSON can hold what a healthy supervisor answers**, if it can hold the properties. -/
theorem Supervisor.serve_portable {s : Supervisor} (hosts : s.node.Portable) (hs : s.Healthy)
    {q : RemoteRequest} (canonical : (s.serve q).1.Canonical) : (s.serve q).1.Portable := by
  have shown := serve_shown hosts hs q
  cases answer : (s.serve q).1 with
  | record r =>
    rw [answer] at shown canonical
    intro w hw
    exact ⟨(shown w hw).host, (shown w hw).usage, (canonical w hw).1, (canonical w hw).2⟩
  | logs lines => trivial
  | refused reason => trivial

end WorkerCluster
