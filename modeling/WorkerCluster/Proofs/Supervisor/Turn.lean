import Mathlib.Logic.Relation
import WorkerCluster.Proofs.Supervisor.Stable

/-!
# Turns of a supervisor

Whatever a supervisor does is a sequence of turns, of which each changes one worker at most and says
at most one thing about it, or a sequence of hearings, of which each changes what it remembers about
the workers of others.

* `Supervisor.Turn` and `Supervisor.Hearing` list both with all that is known when one is taken;
  `Supervisor.LifeTurn` is a turn in which no worker is made.
* `perform_turns`, `perform_life` and `perform_hearings` take the operations apart; one that fails
  takes the turns up to the point where it fails.
* `Reachable.ind` carries a property of the beginning through all of them to every reachable state.
-/

namespace WorkerCluster

namespace OwnedWorker

/-- A worker whose process has just been launched. -/
def launched (w : OwnedWorker) (pid : Nat) : OwnedWorker :=
  { w with
    record := { w.record with lifecycle := .running, process := { pid := pid.toUInt32 } }
    process := some pid }

/-- A worker for which more has been queued. -/
def enqueue (w : OwnedWorker) (templates : List Template) (inclusions : List Inclusion)
    (deployments : List Deployment) : OwnedWorker :=
  { w with
    templates := w.templates ++ templates
    inclusions := w.inclusions ++ inclusions
    deployments := w.deployments ++ deployments }

/-- A worker that may be started. -/
def IsDown (w : OwnedWorker) : Prop :=
  w.record.lifecycle = .prepared ∨ w.record.lifecycle = .stopped

end OwnedWorker

namespace Supervisor

/-- The worker that is made from a plan. -/
def newWorker (s : Supervisor) (plan : WorkerPlan) (uuid : Uuid) (port : UInt16) : OwnedWorker :=
  let id : WorkerId := ⟨uuid, plan.task, s.nextNumber plan.task, s.node.id⟩
  { record := s.newRecord plan id port
    logs := .empty s.settings.logLines.toNat
    directory := s.directoryFor id plan.keepsFiles }

/-- A turn that a supervisor takes. -/
inductive Turn (s : Supervisor) : Supervisor → Prop
  /-- A worker is made. -/
  | create {plan : WorkerPlan} {port : UInt16} (accepted : s.accepts plan = true)
      (room : s.hasMemory plan = true)
      (free : s.allocatePort (plan.port.getD s.settings.startPort) = some port) :
      Turn s (({ s with host := { s.host with ids := s.host.ids.draw.2 } }.setOwned
        s.host.ids.draw.1 (s.newWorker plan s.host.ids.draw.1 port)).publish
        (s.newWorker plan s.host.ids.draw.1 port).record)
  /-- What has been queued is taken into the plan. -/
  | applyQueued {id : Uuid} {w : OwnedWorker} (found : s.owned.find? id = some w)
      (down : w.IsDown) : Turn s (s.setOwned id w.applyQueued)
  /-- The files change. -/
  | files (files : FileTree) : Turn s { s with host := { s.host with files } }
  /-- The process of a worker is launched. -/
  | launch {id : Uuid} {w : OwnedWorker} {pid : Nat} {launcher : Launcher}
      (found : s.owned.find? id = some w) (down : w.IsDown)
      (launched : s.launcher.launch (s.launchOf w) = some (pid, launcher)) :
      Turn s (({ s with launcher }.setOwned id (w.launched pid)).publish (w.launched pid).record)
  /-- The process of a worker is ended. -/
  | stop {id : Uuid} {w : OwnedWorker} (force : Bool) (found : s.owned.find? id = some w)
      (running : w.record.isRunning = true) :
      Turn s (({ s with launcher := (ended s.launcher force w).2 }.setOwned id
        (ended s.launcher force w).1).publish (ended s.launcher force w).1.record)
  /-- A worker is deleted. -/
  | delete {id : Uuid} {w : OwnedWorker} {launcher : Launcher}
      (found : s.owned.find? id = some w) (released : Released w s.launcher launcher) :
      Turn s ({ s with
        owned := s.owned.erase id
        launcher
        host := { s.host with files := s.filesWithout w } }.publish (w.record.down .deleted))
  /-- A line is written to the console of a worker. -/
  | write {id : Uuid} {w : OwnedWorker} {pid : Nat} {line : String} {launcher : Launcher}
      (found : s.owned.find? id = some w) (process : w.process = some pid)
      (written : s.launcher.write pid line = some launcher) : Turn s { s with launcher }
  /-- Something is queued for a worker. -/
  | enqueue {id : Uuid} {w : OwnedWorker} (templates : List Template)
      (inclusions : List Inclusion) (deployments : List Deployment)
      (found : s.owned.find? id = some w) :
      Turn s (s.setOwned id (w.enqueue templates inclusions deployments))
  /-- A worker has connected back, or its connection is gone. -/
  | connect {id : Uuid} {w : OwnedWorker} {connected : Bool} (found : s.owned.find? id = some w)
      (changes : w.record.connected ≠ connected) :
      Turn s ((s.setOwned id (w.connect connected)).publish (w.connect connected).record)
  /-- The lines that a process has written are taken. -/
  | flush {id : Uuid} {w : OwnedWorker} {pid : Nat} (found : s.owned.find? id = some w)
      (process : w.process = some pid) :
      Turn s ({ s with launcher := (s.launcher.drain pid).2 }.setOwned id
        { w with logs := w.logs.extend (s.launcher.drain pid).1 })
  /-- The script lets something happen. -/
  | happen (event : Event) : Turn s (s.happen event).2

/-- Turns one after the other. -/
abbrev Turns : Supervisor → Supervisor → Prop := Relation.ReflTransGen Turn

/-- A turn in the lives of the workers that there are: no id is drawn for a new one. -/
def LifeTurn (s t : Supervisor) : Prop := Turn s t ∧ t.host.ids = s.host.ids

/-- Such turns one after the other. -/
abbrev LifeTurns : Supervisor → Supervisor → Prop := Relation.ReflTransGen LifeTurn

/-- Something that a supervisor hears about the workers of others. -/
inductive Hearing (s : Supervisor) : Supervisor → Prop
  /-- Another node speaks about one of its workers. -/
  | hear {w : WorkerRecord} (foreign : w.owner ≠ s.node.id) (present : w.lifecycle ≠ .deleted) :
      Hearing s { s with remote := s.remote.insert w.uuid w }
  /-- Another node has deleted a worker. -/
  | lose {w : WorkerRecord} (foreign : w.owner ≠ s.node.id) (gone : w.lifecycle = .deleted) :
      Hearing s { s with remote := s.remote.erase w.uuid }
  /-- The workers of a node are forgotten. -/
  | forget (node : NodeId) :
      Hearing s { s with remote := s.remote.filter fun _ w => w.owner != node }

/-- Hearings one after the other. -/
abbrev Hearings : Supervisor → Supervisor → Prop := Relation.ReflTransGen Hearing

/-- Whether an operation is one on the workers of the node. -/
def Step.IsOwn : Step → Prop
  | .hear _ | .replace _ _ | .forget _ => False
  | _ => True

variable {s t : Supervisor} {id : Uuid} {w : OwnedWorker}

/-! ### Creation -/

/-- Making a worker either does nothing or is one turn. -/
theorem create_cases (s : Supervisor) (plan : WorkerPlan) :
    s.create plan = (none, s) ∨
      ∃ port, s.accepts plan = true ∧ s.hasMemory plan = true ∧
        s.allocatePort (plan.port.getD s.settings.startPort) = some port ∧
        s.create plan =
          (some (s.newWorker plan s.host.ids.draw.1 port).record,
            ({ s with host := { s.host with ids := s.host.ids.draw.2 } }.setOwned s.host.ids.draw.1
              (s.newWorker plan s.host.ids.draw.1 port)).publish
              (s.newWorker plan s.host.ids.draw.1 port).record) := by
  by_cases h : (!s.accepts plan || !s.hasMemory plan) = true
  · exact .inl (if_pos h)
  · have hok : s.accepts plan = true ∧ s.hasMemory plan = true := by simpa using h
    cases hp : s.allocatePort (plan.port.getD s.settings.startPort) with
    | none => exact .inl (by rw [create, if_neg h, hp])
    | some port => exact .inr ⟨port, hok.1, hok.2, rfl, by rw [create, if_neg h, hp]; rfl⟩

theorem create_turns (s : Supervisor) (plan : WorkerPlan) : Turns s (s.create plan).2 := by
  rcases create_cases s plan with h | ⟨port, accepted, room, free, h⟩
  · rw [h]
  · rw [h]
    exact .single (.create accepted room free)

/-! ### Starting and stopping -/

theorem launch_turns (found : s.owned.find? id = some w) (down : w.IsDown) :
    LifeTurns s (s.launch id w).2 := by
  unfold launch
  split
  · exact .refl
  · rename_i files hfiles
    -- the directory stays if the launch fails
    have first : LifeTurns s { s with host := { s.host with files } } := .single ⟨.files files, rfl⟩
    dsimp only
    split
    · exact first
    · rename_i pid launcher hlaunch
      exact first.tail ⟨.launch found down hlaunch, rfl⟩

theorem start_turns (s : Supervisor) (id : Uuid) : LifeTurns s (s.start id).2 := by
  unfold start
  split
  · exact .refl
  · rename_i w found
    have rest (down : w.IsDown) :
        LifeTurns s ((s.setOwned id w.applyQueued).launch id w.applyQueued).2 := by
      -- the plan keeps what has been queued, also if the launch fails
      have first : LifeTurn s (s.setOwned id w.applyQueued) := ⟨.applyQueued found down, rfl⟩
      have found' : (s.setOwned id w.applyQueued).owned.find? id = some w.applyQueued := by
        simp [setOwned]
      exact (launch_turns found' down).head first
    cases hl : w.record.lifecycle with
    | prepared => exact rest (.inl hl)
    | running => exact .refl
    | stopped => exact rest (.inr hl)
    | deleted => exact .refl

/-- Plain operations are sequences of turns. -/
theorem stable_lifeTurns : Stable LifeTurns where
  refl _ := .refl
  trans := Relation.ReflTransGen.trans
  stop force found running _ := .single ⟨.stop force found running, rfl⟩
  delete found released := .single ⟨.delete found released, rfl⟩
  write found process written := .single ⟨.write found process written, rfl⟩
  connect found changes := .single ⟨.connect found changes, rfl⟩
  flush found process := .single ⟨.flush found process, rfl⟩

theorem halt_turns (s : Supervisor) (force deleting : Bool) (id : Uuid) :
    LifeTurns s (s.halt force deleting id).2 := by
  obtain same | ⟨w, found, running, after⟩ := halt_cases s force deleting id
  · rw [same]
  · split at after <;> rw [after]
    · exact .single ⟨.delete found (ended_released _ _ _), rfl⟩
    · exact .single ⟨.stop force found running, rfl⟩

/-- A restart is a stop, and then a start if there was a worker to stop. -/
theorem restart_cases (s : Supervisor) (id : Uuid) :
    (s.restart id).2 = (s.halt false false id).2 ∨
      (s.restart id).2 = ((s.halt false false id).2.start id).2 := by
  unfold restart
  split
  · next halted => exact .inl (by rw [halted])
  · next halted => exact .inr (by rw [halted])

theorem restart_turns (s : Supervisor) (id : Uuid) : LifeTurns s (s.restart id).2 := by
  have halted := halt_turns s false false id
  obtain after | after := restart_cases s id <;> rw [after]
  · exact halted
  · exact halted.trans (start_turns _ id)

/-- Queueing is one turn, if the worker is there and its queues grow at their ends. -/
theorem queue_turns (s : Supervisor) (id : Uuid) {f : OwnedWorker → OwnedWorker}
    (t : List Template) (i : List Inclusion) (d : List Deployment)
    (hf : ∀ w, f w = w.enqueue t i d) : LifeTurns s (s.queue id f).2 := by
  unfold queue
  split
  · exact .refl
  · rename_i w found
    rw [hf]
    exact .single ⟨.enqueue t i d found, rfl⟩

/-! ### Operations -/

/-- **Every operation on the workers of the node but that of making one is a sequence of turns in
their lives.** -/
theorem perform_life (s : Supervisor) {step : Step} (own : step.IsOwn)
    (makes : ∀ plan, step ≠ .create plan) : LifeTurns s (s.perform step).2 := by
  cases step with
  | create plan => exact absurd rfl (makes plan)
  | start id => exact start_turns s id
  | restart id => exact restart_turns s id
  | reach id target =>
    cases target with
    | running => exact start_turns s id
    | _ => exact stable_lifeTurns.of_plain s trivial
  | addTemplate id t => exact queue_turns s id [t] [] [] fun w => by simp [OwnedWorker.enqueue]
  | addInclusion id i => exact queue_turns s id [] [i] [] fun w => by simp [OwnedWorker.enqueue]
  | addDeployment id d => exact queue_turns s id [] [] [d] fun w => by simp [OwnedWorker.enqueue]
  | hear w => exact own.elim
  | replace node l => exact own.elim
  | forget node => exact own.elim
  | _ => exact stable_lifeTurns.of_plain s trivial

theorem LifeTurns.turns (h : LifeTurns s t) : Turns s t :=
  Relation.ReflTransGen.mono (fun _ _ turn => turn.1) _ _ h

/-- Every operation on the workers of the node is a sequence of turns. -/
theorem perform_turns (s : Supervisor) {step : Step} (own : step.IsOwn) :
    Turns s (s.perform step).2 := by
  by_cases makes : ∃ plan, step = .create plan
  · obtain ⟨plan, rfl⟩ := makes
    exact create_turns s plan
  · exact (perform_life s own fun plan h => makes ⟨plan, h⟩).turns

theorem hear_hearings (s : Supervisor) (w : WorkerRecord) : Hearings s (s.hear w).2 := by
  unfold hear
  split
  · exact .refl
  · rename_i foreign
    split
    · rename_i gone
      exact .single (.lose foreign gone)
    · rename_i present
      exact .single (.hear foreign present)

theorem replace_hearings (s : Supervisor) (node : NodeId) (l : List WorkerRecord) :
    Hearings s (s.replace node l).2 := by
  have first : Hearings s (s.forget node).2 := .single (.forget node)
  refine first.trans (foldl_lifts (fun _ => .refl) .trans ?_ _ (0, (s.forget node).2))
  intro x w
  have h := hear_hearings x.2 w
  dsimp only
  split <;> rename_i hw <;> rwa [hw] at h

/-- Every other operation is a sequence of hearings. -/
theorem perform_hearings (s : Supervisor) {step : Step} (other : ¬ step.IsOwn) :
    Hearings s (s.perform step).2 := by
  cases step with
  | hear w => exact hear_hearings s w
  | replace node l => exact replace_hearings s node l
  | forget node => exact .single (.forget node)
  | _ => exact absurd trivial other

/-- What holds in the beginning and is kept by every turn and every hearing holds in every reachable
state. -/
theorem Reachable.ind {node : NodeIdentity} {settings : Settings} {motive : Supervisor → Prop}
    (start : ∀ launcher host, launcher.runs = [] → motive { node, settings, launcher, host })
    (turn : ∀ s t, motive s → Turn s t → motive t)
    (hearing : ∀ s t, motive s → Hearing s t → motive t)
    (h : Reachable node settings s) : motive s := by
  induction h with
  | start launcher host fresh => exact start launcher host fresh
  | @perform s _ step ih =>
    by_cases own : step.IsOwn
    · exact path_keeps turn ih (perform_turns s own)
    · exact path_keeps hearing ih (perform_hearings s own)
  | happen _ event ih => exact turn _ _ ih (.happen event)
  | files _ files ih => exact turn _ _ ih (.files files)

end Supervisor

end WorkerCluster
