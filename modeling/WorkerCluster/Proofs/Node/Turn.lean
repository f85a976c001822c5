import WorkerCluster.Node.Run
import WorkerCluster.Proofs.Replica
import WorkerCluster.Proofs.Roster
import WorkerCluster.Proofs.Supervisor.Sound

/-!
# Turns of a node

Whatever a node does, one of its parts does it, and what that part has to tell goes out.

* `Node.Turn` lists what the parts may do. `make_turns` takes every move of a node apart.
* `Reachable.ind` carries a property of the beginning through all turns to every reachable node,
  `Reachable.supervisor_ind` one of the supervisor.
* `Reachable.configured` says what of its configuration a node keeps at all times.
-/

namespace WorkerCluster

/-! ### Requests -/

namespace Supervisor

theorem execute_turns (s : Supervisor) (q : WorkerRequest) : Turns s (s.execute q).2 := by
  obtain ⟨id, operation⟩ := q
  cases operation with
  | start => exact (start_turns s id).turns
  | stop => exact (halt_turns s false true id).turns
  | kill => exact (halt_turns s true true id).turns
  | restart => exact (restart_turns s id).turns
  | delete => exact (stable_lifeTurns.of_delete s id).turns
  | run command => exact (stable_lifeTurns.of_run s id command).turns
  | addTemplate t =>
    exact (queue_turns s id [t] [] [] fun w => by simp [OwnedWorker.enqueue]).turns
  | addInclusion i =>
    exact (queue_turns s id [] [i] [] fun w => by simp [OwnedWorker.enqueue]).turns
  | addDeployment d =>
    exact (queue_turns s id [] [] [d] fun w => by simp [OwnedWorker.enqueue]).turns
  | logs => exact .refl

theorem serve_turns (s : Supervisor) (q : RemoteRequest) : Turns s (s.serve q).2 := by
  cases q with
  | worker q => exact execute_turns s q
  | create plan => exact create_turns s plan

theorem dispatch_turns (s : Supervisor) (isConnected : NodeId → Bool) (q : WorkerRequest) :
    Turns s (s.dispatch isConnected q).2 := by
  unfold dispatch
  split
  · exact execute_turns s q
  all_goals exact .refl

theorem dispatchCreate_turns (s : Supervisor) (isConnected : NodeId → Bool) (plan : WorkerPlan) :
    Turns s (s.dispatchCreate isConnected plan).2 := by
  have made : Turns s (s.create plan).2 := create_turns s plan
  unfold dispatchCreate
  dsimp only
  split
  · exact made
  · split
    · exact made
    · split
      · exact .refl
      · exact .refl

end Supervisor

namespace Node

/-! ### Turns -/

/-- The supervisor has come to another state, and what it tells goes out. -/
def supervised (n : Node) (s : Supervisor) : Node :=
  { n with supervisor := { s with outbox := [] } }.postAll (s.outbox.map .worker)

/-- The replica has come to another state, and what it tells goes out. -/
def replicated (n : Node) (r : Replica) : Node :=
  { n with replica := { r with outbox := [] } }.postAll (r.outbox.map (.cluster .all))

/-- Something that one part of a node does. -/
inductive Turn (n : Node) : Node → Prop
  /-- The supervisor takes turns. -/
  | supervise {s : Supervisor} (path : Supervisor.Turns n.supervisor s) : Turn n (n.supervised s)
  /-- The supervisor hears about the workers of others. -/
  | overhear {s : Supervisor} (path : Supervisor.Hearings n.supervisor s) : Turn n (n.supervised s)
  /-- A client changes the replica. -/
  | change (c : Replica.Change) : Turn n (n.replicated (n.replica.change c))
  /-- The replica follows a message. -/
  | apply (m : ClusterMessage) : Turn n (n.replicated (n.replica.apply m).2)
  /-- A peer has been connected. -/
  | connect (peer : NodeId) : Turn n { n with roster := (n.roster.connect peer).2 }
  /-- A peer is gone. -/
  | disconnect (peer : NodeId) : Turn n { n with roster := (n.roster.disconnect peer).2 }
  /-- A peer has said something about itself. -/
  | hear (status : NodeStatus) : Turn n { n with roster := (n.roster.hear status).2 }
  /-- The node says something about itself. -/
  | roll (status : NodeStatus) (own : status.node = n.identity) :
      Turn n { n with roster := n.roster.roll status }
  /-- The process of the node is measured. -/
  | measure : Turn n { n with probe := n.probe.take.2 }
  /-- There is something to send, or it is taken. -/
  | mail (outbox : List Letter) : Turn n { n with outbox }

/-- Turns one after the other. -/
abbrev Turns : Node → Node → Prop := Relation.ReflTransGen Turn

variable {n t : Node}

theorem turns_supervise {α : Type} {act : Supervisor → α × Supervisor}
    (path : ∀ s, Supervisor.Turns s (act s).2) : Turns n (n.onSupervisor act).2 :=
  .single (.supervise (path n.supervisor))

theorem turns_overhear {α : Type} {act : Supervisor → α × Supervisor}
    (path : ∀ s, Supervisor.Hearings s (act s).2) : Turns n (n.onSupervisor act).2 :=
  .single (.overhear (path n.supervisor))

/-! ### Scheduling -/

theorem scale_turns (n : Node) (here : NodeStatus) (groups : List GroupSpec) (t : TaskSpec) :
    Turns n (n.scale here groups t).2 := by
  have made : Turns n (n.onSupervisor (·.create (t.plan groups))).2 :=
    turns_supervise fun s => s.create_turns (t.plan groups)
  unfold scale
  split
  · split
    · next m created => rwa [created] at made
    · next w m created =>
      rw [created] at made
      exact made.trans (turns_supervise fun s => (s.start_turns w.uuid).turns)
  · exact .refl

theorem autoscale_turns (n : Node) : Turns n n.autoscale.2 := by
  unfold autoscale
  split
  · exact .refl
  · next here _ =>
    refine foldl_lifts (fun _ => .refl) .trans ?_ n.replica.tasks.values (0, n)
    intro x t
    exact scale_turns x.2 here n.replica.groups.values t

theorem dispatch_turns (n : Node) (q : WorkerRequest) : Turns n (n.dispatch q).2 :=
  turns_supervise fun s => s.dispatch_turns n.roster.isConnected q

theorem dispatchCreate_turns (n : Node) (plan : WorkerPlan) : Turns n (n.dispatchCreate plan).2 :=
  turns_supervise fun s => s.dispatchCreate_turns n.roster.isConnected plan

theorem dispatchTask_turns (n : Node) (task : String) : Turns n (n.dispatchTask task).2 := by
  unfold dispatchTask
  split
  · split
    · exact dispatchCreate_turns ..
    · exact .refl
  · exact .refl

/-! ### Errands -/

theorem peerConnected_turns (n : Node) (peer : NodeId) : Turns n (n.peerConnected peer) := by
  have first : Turns n { n with roster := (n.roster.connect peer).2 } := .single (.connect peer)
  unfold peerConnected
  dsimp only
  split
  · exact first.tail (.mail _)
  · exact first

theorem peerDisconnected_turns (n : Node) (peer : NodeId) : Turns n (n.peerDisconnected peer) := by
  have first : Turns n { n with roster := (n.roster.disconnect peer).2 } :=
    .single (.disconnect peer)
  unfold peerDisconnected
  dsimp only
  split
  · exact first.trans (turns_overhear fun _ => .single (.forget peer))
  · exact first

theorem notice_turns (n : Node) (e : LinkEvent) : Turns n (n.notice e) := by
  cases e with
  | peerConnected peer => exact peerConnected_turns n peer
  | peerDisconnected peer => exact peerDisconnected_turns n peer
  | workerConnected w =>
    exact turns_supervise fun s =>
      (Supervisor.stable_lifeTurns.of_setConnected s w.uuid true).turns
  | workerDisconnected w =>
    exact turns_supervise fun s =>
      (Supervisor.stable_lifeTurns.of_setConnected s w.uuid false).turns

theorem hear_turns (n : Node) (peer : NodeId) (m : ClusterMessage) : Turns n (n.hear peer m) := by
  cases m with
  | status s =>
    unfold hear
    dsimp only
    split
    · exact .single (.hear s)
    · exact .refl
  | workers l => exact turns_overhear fun s => s.replace_hearings peer l
  | tasks l => exact .single (.apply (.tasks l))
  | groups l => exact .single (.apply (.groups l))
  | permissions p => exact .single (.apply (.permissions p))
  | datasets d => exact .single (.apply (.datasets d))

theorem follow_turns (n : Node) (peer : NodeId) (u : WorkerUpdate) : Turns n (n.follow peer u) := by
  unfold follow
  split
  · exact turns_overhear fun s => s.hear_hearings u.record
  · exact .refl

theorem handle_turns (n : Node) (q : ClientRequest) : Turns n (n.handle q).2 := by
  cases q with
  | create plan => exact dispatchCreate_turns n plan
  | createForTask task => exact dispatchTask_turns n task
  | operate request => exact dispatch_turns n request
  | logs worker => exact dispatch_turns n ⟨worker, .logs⟩
  | addTask t => exact .single (.change (.addTask t))
  | removeTask name => exact .single (.change (.removeTask name))
  | addGroup g => exact .single (.change (.addGroup g))
  | removeGroup name => exact .single (.change (.removeGroup name))
  | setPermissions p => exact .single (.change (.setPermissions p))
  | putDocument dataset key j => exact .single (.change (.putDocument dataset key j))
  | removeDocument dataset key => exact .single (.change (.removeDocument dataset key))
  | worker | workers | statuses | status | ownStatus | tasks | groups => exact .refl

theorem perform_turns (n : Node) (e : Errand) : Turns n (n.perform e).2 := by
  cases e with
  | notice e => exact notice_turns n e
  | hear peer m => exact hear_turns n peer m
  | follow peer u => exact follow_turns n peer u
  | serve origin p q => exact turns_supervise fun s => s.serve_turns q
  | handle q => exact handle_turns n q

/-! ### Moves -/

theorem publishStatus_turns (n : Node) : Turns n n.publishStatus.2 :=
  Relation.ReflTransGen.single .measure |>.tail (.roll n.takeStatus.1 rfl) |>.tail (.mail _)

theorem upkeep_turns (n : Node) (second : Bool) : Turns n (n.upkeep second) := by
  have once {f : Node → Node} (hf : ∀ n, Turns n (f n)) (n : Node) :
      Turns n (if second then f n else n) := by
    split
    · exact hf n
    · exact .refl
  have sweep (n : Node) : Turns n (n.onSupervisor (·.sweep)).2 :=
    turns_supervise fun s => (Supervisor.stable_lifeTurns.of_sweep s).turns
  have flush (n : Node) : Turns n (n.onSupervisor (·.flushAll)).2 :=
    turns_supervise fun s => (Supervisor.stable_lifeTurns.of_flushAll s).turns
  exact (once autoscale_turns n).trans <| (sweep _).trans <|
    (once publishStatus_turns _).trans (flush _)

/-- **Every move of a node is a sequence of turns.** -/
theorem make_turns (n : Node) (move : Move) : Turns n (n.make move) := by
  cases move with
  | errand e => exact perform_turns n e
  | supervise step =>
    by_cases own : step.IsOwn
    · exact turns_supervise fun s => s.perform_turns own
    · exact turns_overhear fun s => s.perform_hearings own
  | happen event => exact turns_supervise fun _ => .single (.happen event)
  | autoscale => exact autoscale_turns n
  | publishStatus => exact publishStatus_turns n
  | upkeep second => exact upkeep_turns n second
  | shutdown => exact turns_supervise fun s => (Supervisor.stable_lifeTurns.of_deleteAll s).turns

/-- Whatever moves lead to from a node that can be reached can be reached. -/
theorem Reachable.run {c : Config} (h : Reachable c n) (moves : List Move) :
    Reachable c (n.run moves) := by
  induction moves generalizing n with
  | nil => exact h
  | cons move moves ih => exact ih (h.make move)

/-- What holds in the beginning and is kept by every turn holds of every node at all times. -/
theorem Reachable.ind {c : Config} {motive : Node → Prop}
    (start : ∀ n store probe host, Node.new c store probe host = .ok n → motive n)
    (turn : ∀ n t, motive n → Turn n t → motive t) (h : Reachable c n) : motive n := by
  induction h with
  | start store probe host new => exact start _ store probe host new
  | make _ move ih => exact path_keeps turn ih (make_turns _ move)
  | collect _ ih => exact turn _ _ ih (.mail [])

/-! ### The configuration -/

/-- How a node begins: its supervisor has no workers, its peers are those that it is configured
with, and it has said something about itself. -/
theorem new_parts {c : Config} {store : Store} {probe : Probe} {host : Host}
    (new : Node.new c store probe host = .ok n) :
    n.supervisor = { node := c.identity, settings := c.settings, host } ∧
      ∃ status : NodeStatus, status.node = c.identity ∧
        n.roster = (Roster.new c.identity c.cluster.nodes).roll status := by
  unfold Node.new at new
  cases loaded : Replica.open store with
  | error e =>
    rw [loaded] at new
    cases new
  | ok replica =>
    rw [loaded] at new
    obtain rfl := Except.ok.inj new
    exact ⟨rfl, _, rfl, rfl⟩

/-- What of its configuration a node keeps. -/
structure Configured (c : Config) (n : Node) : Prop where
  home : n.roster.home = c.identity
  node : n.supervisor.node = c.identity
  settings : n.supervisor.settings = c.settings
  /-- What the supervisor tells goes out at once. -/
  outbox : n.supervisor.outbox = []
  /-- The node is no peer of itself. -/
  stranger : n.roster.peers.contains c.identity.id = false

theorem Configured.turn {c : Config} (h : Configured c n) (turn : Turn n t) : Configured c t := by
  have peers (id : NodeId) (f : Peer → Peer) :
      (n.roster.peers.modify id f).contains c.identity.id = false := by
    rw [SortedMap.contains_modify]
    exact h.stranger
  cases turn with
  | supervise path =>
    exact ⟨h.home, path.node_eq.trans h.node, path.settings_eq.trans h.settings, rfl, h.stranger⟩
  | overhear path =>
    exact ⟨h.home, path.node_eq.trans h.node, path.settings_eq.trans h.settings, rfl, h.stranger⟩
  | connect peer => exact ⟨h.home, h.node, h.settings, h.outbox, peers _ _⟩
  | disconnect peer => exact ⟨h.home, h.node, h.settings, h.outbox, peers _ _⟩
  | hear status => exact ⟨h.home, h.node, h.settings, h.outbox, peers _ _⟩
  | change | apply | roll | measure | mail =>
    exact ⟨h.home, h.node, h.settings, h.outbox, h.stranger⟩

theorem Reachable.configured {c : Config} (h : Reachable c n) : Configured c n := by
  refine h.ind (motive := Configured c) (fun n store probe host new => ?_)
    fun _ _ hn turn => hn.turn turn
  obtain ⟨supervisor, status, -, roster⟩ := new_parts new
  refine ⟨?_, ?_, ?_, ?_, ?_⟩
  · rw [roster]
    rfl
  · rw [supervisor]
  · rw [supervisor]
  · rw [supervisor]
  · rw [roster]
    exact Roster.contains_new ..

/-! ### The supervisor -/

/-- What holds of a supervisor without workers, is kept by its turns and by what it hears, and does
not depend on what it has to tell, holds of the supervisor of every node at all times. -/
theorem Reachable.supervisor_ind {c : Config} {motive : Supervisor → Prop}
    (start : ∀ host, motive { node := c.identity, settings := c.settings, host })
    (turn : ∀ s t, motive s → Supervisor.Turn s t → motive t)
    (hearing : ∀ s t, motive s → Supervisor.Hearing s t → motive t)
    (collect : ∀ s, motive s → motive { s with outbox := [] }) (h : Reachable c n) :
    motive n.supervisor := by
  refine h.ind (motive := fun n => motive n.supervisor) (fun n store probe host new => ?_)
    fun n t hn step => ?_
  · rw [(new_parts new).1]
    exact start host
  · cases step with
    | supervise path => exact collect _ (path_keeps turn hn path)
    | overhear path => exact collect _ (path_keeps hearing hn path)
    | _ => exact hn

/-- What every new worker has and nothing takes away, every worker of a node has at all times. -/
theorem Reachable.allOwned {c : Config} {P : Uuid → OwnedWorker → Prop}
    (hP : Supervisor.Kept c.identity c.settings P) (h : Reachable c n) :
    Supervisor.AllOwned P n.supervisor := by
  suffices n.supervisor.node = c.identity ∧ n.supervisor.settings = c.settings ∧
      Supervisor.AllOwned P n.supervisor from this.2.2
  refine h.supervisor_ind (motive := fun s => s.node = c.identity ∧ s.settings = c.settings ∧
    Supervisor.AllOwned P s) ?_ ?_ ?_ ?_
  · intro host
    exact ⟨rfl, rfl, fun _ _ found => nomatch found⟩
  · rintro s t ⟨node, settings, hs⟩ turn
    exact ⟨turn.node_eq.trans node, turn.settings_eq.trans settings,
      turn.kept (node ▸ settings ▸ hP) hs⟩
  · rintro s t ⟨node, settings, hs⟩ hearing
    exact ⟨hearing.node_eq.trans node, hearing.settings_eq.trans settings,
      hs.congr hearing.owned_eq⟩
  · rintro s ⟨node, settings, hs⟩
    exact ⟨node, settings, hs⟩

end Node

end WorkerCluster
