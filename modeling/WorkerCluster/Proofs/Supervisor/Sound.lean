import WorkerCluster.Proofs.Supervisor.Turn

/-!
# The tables of a supervisor

What is true of every entry of both tables at every time.

* `Supervisor.Kept` is a property of owned workers that new ones have and no turn takes away;
  `Turn.kept` carries it from one state to the next.
* `OwnedWorker.Sound` and `Supervisor.SoundRemote` say how the parts of an entry fit together.
* `tables_sound_of_reachable` is the main statement: so do those of all entries at all times.
-/

namespace WorkerCluster

namespace Supervisor

variable {s t : Supervisor}

/-! ### What no turn changes -/

theorem Turn.node_eq (h : Turn s t) : t.node = s.node := by
  cases h with
  | happen event => cases event <;> rfl
  | _ => rfl

theorem Turn.settings_eq (h : Turn s t) : t.settings = s.settings := by
  cases h with
  | happen event => cases event <;> rfl
  | _ => rfl

theorem Turn.remote_eq (h : Turn s t) : t.remote = s.remote := by
  cases h with
  | happen event => cases event <;> rfl
  | _ => rfl

theorem Hearing.node_eq (h : Hearing s t) : t.node = s.node := by cases h <;> rfl

theorem Hearing.settings_eq (h : Hearing s t) : t.settings = s.settings := by cases h <;> rfl

theorem Hearing.owned_eq (h : Hearing s t) : t.owned = s.owned := by cases h <;> rfl

theorem Hearing.launcher_eq (h : Hearing s t) : t.launcher = s.launcher := by cases h <;> rfl

theorem Hearing.outbox_eq (h : Hearing s t) : t.outbox = s.outbox := by cases h <;> rfl

theorem Turns.node_eq (h : Turns s t) : t.node = s.node := path_eq (fun _ _ h => h.node_eq) h

theorem Turns.settings_eq (h : Turns s t) : t.settings = s.settings :=
  path_eq (fun _ _ h => h.settings_eq) h

theorem Turns.remote_eq (h : Turns s t) : t.remote = s.remote :=
  path_eq (fun _ _ h => h.remote_eq) h

theorem Hearings.node_eq (h : Hearings s t) : t.node = s.node := path_eq (fun _ _ h => h.node_eq) h

theorem Hearings.settings_eq (h : Hearings s t) : t.settings = s.settings :=
  path_eq (fun _ _ h => h.settings_eq) h

theorem Hearings.owned_eq (h : Hearings s t) : t.owned = s.owned :=
  path_eq (fun _ _ h => h.owned_eq) h

theorem Hearings.launcher_eq (h : Hearings s t) : t.launcher = s.launcher :=
  path_eq (fun _ _ h => h.launcher_eq) h

theorem Hearings.continues {R : OwnedWorker → OwnedWorker → Prop} [Std.Refl R]
    (h : Hearings s t) : s.Continues R t := continues_of_owned_eq h.owned_eq

theorem Hearings.outbox_eq (h : Hearings s t) : t.outbox = s.outbox :=
  path_eq (fun _ _ h => h.outbox_eq) h

theorem Reachable.node_eq {node : NodeIdentity} {settings : Settings}
    (h : Reachable node settings s) : s.node = node :=
  h.ind (motive := fun s => s.node = node) (fun _ _ _ => rfl)
    (fun _ _ hs turn => turn.node_eq.trans hs) fun _ _ hs hearing => hearing.node_eq.trans hs

theorem Reachable.settings_eq {node : NodeIdentity} {settings : Settings}
    (h : Reachable node settings s) : s.settings = settings :=
  h.ind (motive := fun s => s.settings = settings) (fun _ _ _ => rfl)
    (fun _ _ hs turn => turn.settings_eq.trans hs)
    fun _ _ hs hearing => hearing.settings_eq.trans hs

/-! ### Properties of single workers -/

/-- A property of the workers of a node that new ones have and that nothing that happens to a worker
takes away. -/
structure Kept (node : NodeIdentity) (settings : Settings) (P : Uuid → OwnedWorker → Prop) :
    Prop where
  create {s : Supervisor} {plan : WorkerPlan} {port : UInt16} (uuid : Uuid) :
    s.node = node → s.settings = settings → s.accepts plan = true →
      P uuid (s.newWorker plan uuid port)
  applyQueued {id : Uuid} {w : OwnedWorker} : P id w → w.IsDown → P id w.applyQueued
  launched {id : Uuid} {w : OwnedWorker} (pid : Nat) : P id w → w.IsDown → P id (w.launched pid)
  ended {id : Uuid} {w : OwnedWorker} (l : Launcher) (force : Bool) :
    P id w → w.record.isRunning = true → P id (ended l force w).1
  enqueue {id : Uuid} {w : OwnedWorker} (t : List Template) (i : List Inclusion)
    (d : List Deployment) : P id w → P id (w.enqueue t i d)
  connect {id : Uuid} {w : OwnedWorker} (connected : Bool) : P id w → P id (w.connect connected)
  log {id : Uuid} {w : OwnedWorker} (logs : LogTail) : P id w → P id { w with logs }

/-- Every worker of the node has a property. -/
def AllOwned (P : Uuid → OwnedWorker → Prop) (s : Supervisor) : Prop :=
  ∀ id w, s.owned.find? id = some w → P id w

section

variable {P : Uuid → OwnedWorker → Prop}

theorem AllOwned.insert (h : AllOwned P s) {id : Uuid} {w : OwnedWorker} (hw : P id w)
    (ht : t.owned = s.owned.insert id w) : AllOwned P t := by
  intro id' w' found
  rw [ht, SortedMap.find?_insert] at found
  split at found
  · rename_i e
    cases found
    exact e ▸ hw
  · exact h id' w' found

theorem AllOwned.erase (h : AllOwned P s) {id : Uuid} (ht : t.owned = s.owned.erase id) :
    AllOwned P t := by
  intro id' w' found
  rw [ht, SortedMap.find?_erase] at found
  split at found
  · cases found
  · exact h id' w' found

theorem AllOwned.congr (h : AllOwned P s) (ht : t.owned = s.owned) : AllOwned P t := by
  intro id w found
  exact h id w (ht ▸ found)

/-- A turn keeps what is true of every worker. -/
theorem Turn.kept (hP : Kept s.node s.settings P) (hs : AllOwned P s) (h : Turn s t) :
    AllOwned P t := by
  cases h with
  | create accepted room free => exact hs.insert (hP.create _ rfl rfl accepted) rfl
  | applyQueued found down => exact hs.insert (hP.applyQueued (hs _ _ found) down) rfl
  | files files => exact hs
  | launch found down launched => exact hs.insert (hP.launched _ (hs _ _ found) down) rfl
  | stop force found running => exact hs.insert (hP.ended _ _ (hs _ _ found) running) rfl
  | delete found released => exact hs.erase rfl
  | write found process written => exact hs
  | enqueue t i d found => exact hs.insert (hP.enqueue t i d (hs _ _ found)) rfl
  | connect found changes => exact hs.insert (hP.connect _ (hs _ _ found)) rfl
  | flush found process => exact hs.insert (hP.log _ (hs _ _ found)) rfl
  | happen event => exact hs.congr (by cases event <;> rfl)

/-- What every new worker has and nothing takes away, every worker has in every reachable state. -/
theorem Reachable.kept {node : NodeIdentity} {settings : Settings} (hP : Kept node settings P)
    (h : Reachable node settings s) : AllOwned P s := by
  suffices s.node = node ∧ s.settings = settings ∧ AllOwned P s from this.2.2
  apply h.ind (motive := fun s => s.node = node ∧ s.settings = settings ∧ AllOwned P s)
  · intro launcher host _
    exact ⟨rfl, rfl, fun _ _ found => nomatch found⟩
  · rintro s t ⟨rfl, rfl, hs⟩ turn
    exact ⟨turn.node_eq, turn.settings_eq, turn.kept hP hs⟩
  · rintro s t ⟨rfl, rfl, hs⟩ hearing
    exact ⟨hearing.node_eq, hearing.settings_eq, hs.congr hearing.owned_eq⟩

end

end Supervisor

/-! ### Soundness -/

/-- How the parts of a worker of a node fit together. -/
structure OwnedWorker.Sound (node : NodeId) (id : Uuid) (w : OwnedWorker) : Prop where
  /-- It is kept under its own id. -/
  uuid : w.record.uuid = id
  /-- The node owns it. -/
  owner : w.record.owner = node
  /-- Its plan names the node. -/
  planOwner : w.record.plan.owner = some node
  /-- Its plan names the task of which it is an instance. -/
  task : w.record.plan.task = w.record.task
  /-- Its plan names the port on which it listens. -/
  port : w.record.plan.port = some w.record.address.port
  /-- It is not deleted. -/
  present : w.record.lifecycle ≠ .deleted
  /-- It has a process exactly while it runs. -/
  process : w.process.isSome = true ↔ w.record.lifecycle = .running
  /-- While it does not run, it uses nothing. -/
  idle : w.record.lifecycle ≠ .running → w.record.process = {}
  /-- Nothing is known about what its process uses but which process that is. -/
  usage : w.record.process = { pid := w.record.process.pid }

namespace Supervisor

/-- What a node remembers about a worker of another node. -/
structure SoundRemote (node : NodeId) (id : Uuid) (w : WorkerRecord) : Prop where
  /-- It is kept under its own id. -/
  uuid : w.uuid = id
  /-- Another node owns it. -/
  owner : w.owner ≠ node
  /-- It is not deleted. -/
  present : w.lifecycle ≠ .deleted

variable {s t : Supervisor}

theorem kept_sound (node : NodeIdentity) (settings : Settings) :
    Kept node settings fun id w => w.Sound node.id id where
  create {s plan port} uuid hn _ accepted := by
    subst hn
    refine ⟨rfl, rfl, rfl, rfl, rfl, ?_, ?_, fun _ => rfl, rfl⟩
    · exact Lifecycle.noConfusion
    · simp [newWorker, newRecord]
  applyQueued h _ :=
    ⟨h.uuid, h.owner, h.planOwner, h.task, h.port, h.present, h.process, h.idle, h.usage⟩
  launched pid h _ := by
    refine ⟨h.uuid, h.owner, h.planOwner, h.task, h.port, ?_, ?_, fun hne => absurd rfl hne, rfl⟩
    · exact Lifecycle.noConfusion
    · simp [OwnedWorker.launched]
  ended {id w} l force h _ := by
    have hr := ended_record l force w
    have hp := ended_process l force w
    generalize (ended l force w).1 = v at hr hp ⊢
    -- only the record and the process matter
    cases v
    dsimp only at hr hp
    subst hr hp
    refine ⟨h.uuid, h.owner, h.planOwner, h.task, h.port, ?_, ?_, fun _ => rfl, rfl⟩
    · exact Lifecycle.noConfusion
    · simp [WorkerRecord.down]
  enqueue _ _ _ h :=
    ⟨h.uuid, h.owner, h.planOwner, h.task, h.port, h.present, h.process, h.idle, h.usage⟩
  connect _ h :=
    ⟨h.uuid, h.owner, h.planOwner, h.task, h.port, h.present, h.process, h.idle, h.usage⟩
  log _ h :=
    ⟨h.uuid, h.owner, h.planOwner, h.task, h.port, h.present, h.process, h.idle, h.usage⟩

/-- What is heard keeps the table of remote workers sound. -/
theorem Hearing.remote_sound (hs : ∀ id w, s.remote.find? id = some w → SoundRemote s.node.id id w)
    (h : Hearing s t) : ∀ id w, t.remote.find? id = some w → SoundRemote t.node.id id w := by
  intro id w found
  cases h with
  | hear foreign present =>
    rw [SortedMap.find?_insert] at found
    split at found
    · rename_i e
      cases found
      exact ⟨e.symm, foreign, present⟩
    · exact hs id w found
  | lose foreign gone =>
    rw [SortedMap.find?_erase] at found
    split at found
    · cases found
    · exact hs id w found
  | forget node =>
    rw [SortedMap.find?_filter] at found
    exact hs id w (Option.filter_eq_some_iff.1 found).1

theorem Reachable.owned_sound {node : NodeIdentity} {settings : Settings}
    (h : Reachable node settings s) : AllOwned (fun id w => w.Sound node.id id) s :=
  h.kept (kept_sound node settings)

theorem Reachable.remote_sound {node : NodeIdentity} {settings : Settings}
    (h : Reachable node settings s) (id : Uuid) (w : WorkerRecord)
    (found : s.remote.find? id = some w) : SoundRemote node.id id w := by
  have all := h.ind
    (motive := fun s => ∀ id w, s.remote.find? id = some w → SoundRemote s.node.id id w)
    (fun _ _ _ _ _ found => nomatch found)
    (fun s t hs turn => by rw [turn.node_eq, turn.remote_eq]; exact hs)
    fun s t hs hearing => hearing.remote_sound hs
  exact h.node_eq ▸ all id w found

/-- **Both tables are sound in every reachable state**, and the supervisor stays that of its
node. -/
theorem tables_sound_of_reachable {node : NodeIdentity} {settings : Settings}
    (h : Reachable node settings s) :
    s.node = node ∧
      (∀ e ∈ s.owned.entries, e.2.Sound node.id e.1) ∧
      (∀ e ∈ s.remote.entries, SoundRemote node.id e.1 e.2) :=
  ⟨h.node_eq, fun e he => h.owned_sound e.1 e.2 (SortedMap.mem_entries.1 he),
    fun e he => h.remote_sound e.1 e.2 (SortedMap.mem_entries.1 he)⟩

/-! ### A small run -/

/-- A node without listeners. -/
def lobbyNode : NodeIdentity := ⟨"node-1", []⟩

/-- Room for a few workers. -/
def lobbySettings : Settings := ⟨30000, ["services"], 100, 4, 2048, "secret"⟩

/-- The plan of a worker that stays when it stops. -/
def lobbyPlan : WorkerPlan where
  task := "Lobby"
  owner := none
  program := ⟨"java", [], 512, .empty⟩
  groups := []
  templates := []
  inclusions := []
  deployments := []
  port := none
  deleteOnStop := false
  keepsFiles := false
  properties := .empty

/-- A worker of another node. -/
def lobbyRecord : WorkerRecord where
  created := 0
  id := ⟨.ofNat 2, "Lobby", 1, "node-2"⟩
  address := ⟨"127.0.0.1", 30000⟩
  connected := false
  lifecycle := .prepared
  process := {}
  plan := lobbyPlan
  properties := .empty

/-- The id of the first worker that is made. -/
def lobbyId : Uuid := (Uuid.ofNat 1).random

/-- The state without workers. -/
def lobbyEmpty : Supervisor := { node := lobbyNode, settings := lobbySettings }

/-- The state in which a worker has been made and started. -/
def lobbyRunning : Supervisor :=
  ((lobbyEmpty.perform (.create lobbyPlan)).2.perform (.start lobbyId)).2

/-- The state in which another one has been heard of. -/
def lobby : Supervisor := (lobbyRunning.perform (.hear lobbyRecord)).2

theorem reachable_lobbyEmpty : Reachable lobbyNode lobbySettings lobbyEmpty := .start {} {} rfl

theorem reachable_lobby : Reachable lobbyNode lobbySettings lobby :=
  .perform (.perform (.perform reachable_lobbyEmpty (.create lobbyPlan)) (.start lobbyId))
    (.hear lobbyRecord)

/-- Both tables hold a worker then, and both are sound. -/
theorem tables_sound_lobby :
    lobby.owned.keys = [lobbyId] ∧ lobby.remote.keys = [.ofNat 2] ∧
      lobby.node = lobbyNode ∧
      (∀ e ∈ lobby.owned.entries, e.2.Sound lobbyNode.id e.1) ∧
      (∀ e ∈ lobby.remote.entries, SoundRemote lobbyNode.id e.1 e.2) :=
  ⟨by decide, by decide, tables_sound_of_reachable reachable_lobby⟩

end Supervisor

end WorkerCluster
