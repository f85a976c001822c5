import WorkerCluster.Proofs.Node.Follow

/-!
# A node that watches the workers of another one

* `Watch` is a node that owns workers and one that receives what it tells, in order. `Watch.Move` is
  what may happen: anything at the owner, a packet that arrives, and what else happens to the
  observer.
* `Watch.Follows` is the invariant: once all that is on its way has arrived, the observer will see
  the workers as they are. `agrees_of_arrived` is the main statement.
-/

namespace WorkerCluster

/-! ### Watching -/

/-- A node that owns workers, and another one that watches them. -/
structure Watch where
  owner : Supervisor
  /-- How much of what the owner has told has arrived. -/
  arrived : ℕ
  observer : Node

namespace Watch

/-- The owner has or had a worker with an id. -/
def Knows (s : Watch) (id : Uuid) : Prop :=
  s.owner.owns id = true ∨ ∃ w ∈ s.owner.outbox, w.uuid = id

/-- The next packet arrives and is followed, if there is one. -/
def next (s : Watch) : Watch :=
  match s.owner.outbox[s.arrived]? with
  | some w => { s with
      arrived := s.arrived + 1
      observer := s.observer.receive (.peer s.owner.node.id) w.packet }
  | none => s

/-- What may happen. -/
inductive Move (s : Watch) : Watch → Prop
  /-- Something happens at the owner. -/
  | act {owner : Supervisor} (change : s.owner.Change owner) : Move s { s with owner }
  /-- The next packet arrives. -/
  | arrive : Move s s.next
  /-- The observer performs an operation on its own workers. -/
  | observe (step : Supervisor.Step) (own : step.IsOwn) :
      Move s { s with observer := (s.observer.onSupervisor (·.perform step)).2 }
  /-- Something happens at the observer. -/
  | script (event : Supervisor.Event) :
      Move s { s with observer := (s.observer.onSupervisor (·.happen event)).2 }
  /-- Another peer speaks about a worker. -/
  | follow {peer : NodeId} {u : WorkerUpdate} (other : peer ≠ s.owner.node.id)
      (fresh : ¬ s.Knows u.record.uuid) :
      Move s { s with observer := (s.observer.perform (.follow peer u)).2 }
  /-- Another peer speaks about all its workers. -/
  | push {peer : NodeId} {l : List WorkerRecord} (other : peer ≠ s.owner.node.id)
      (fresh : ∀ w ∈ l, ¬ s.Knows w.uuid) :
      Move s { s with observer := (s.observer.perform (.hear peer (.workers l))).2 }

/-- What may happen over time. -/
abbrev Moves : Watch → Watch → Prop := Relation.ReflTransGen Move

/-- The observer sees the workers of the owner as they are: exactly those, and of each all but its
plan. -/
def Agrees (s : Watch) : Prop :=
  s.observer.supervisor.facesOf s.owner.node.id = s.owner.ownFaces

/-- What the owner has told that has not arrived. -/
def pending (s : Watch) : List WorkerRecord := s.owner.outbox.drop s.arrived

/-- The observer will see the workers of the owner as they are once all that is pending has arrived,
and remembers none that the owner does not know. -/
structure Follows (node : NodeIdentity) (s : Watch) : Prop where
  node_eq : s.owner.node = node
  distinct : s.observer.supervisor.node.id ≠ node.id
  healthy : s.owner.Healthy
  progress : s.arrived ≤ s.owner.outbox.length
  view : (s.observer.supervisor.facesOf node.id).takeAll s.pending = s.owner.ownFaces
  known : ∀ id, ¬ s.Knows id → (s.observer.supervisor.facesOf node.id).find? id = none
  told : ∀ w ∈ s.pending, Supervisor.Told node.id w

variable {node : NodeIdentity} {s t : Watch}

/-- What the owner has known it knows after all that it tells. -/
theorem Knows.tell {id : Uuid} (knew : s.Knows id) {owner : Supervisor} {l : List WorkerRecord}
    (telling : Supervisor.Telling s.owner owner l) : Knows { s with owner } id := by
  have outbox : owner.outbox = s.owner.outbox ++ l := telling.outbox
  rcases knew with owns | ⟨w, hw, rfl⟩
  · -- a worker is lost only if something is told of it
    by_cases hl : ∃ w ∈ l, w.uuid = id
    · obtain ⟨w, hw, rfl⟩ := hl
      exact .inr ⟨w, outbox ▸ List.mem_append_right _ hw, rfl⟩
    · left
      show owner.owns id = true
      rw [Supervisor.owns_iff] at owns ⊢
      rwa [← telling.faces, Faces.find?_takeAll_of_ne _ fun w hw he => hl ⟨w, hw, he⟩]
  · exact .inr ⟨w, outbox ▸ List.mem_append_left _ hw, rfl⟩

theorem Follows.owner (h : s.Follows node) {owner : Supervisor}
    (tells : Supervisor.Tells s.owner owner) : Follows node { s with owner } := by
  obtain ⟨hn, healthy, l, telling⟩ := tells
  have drop : owner.outbox.drop s.arrived = s.pending ++ l := by
    rw [telling.outbox, List.drop_append_of_le_length h.progress]
    rfl
  refine ⟨hn.trans h.node_eq, h.distinct, healthy, ?_, ?_, ?_, ?_⟩
  · show s.arrived ≤ owner.outbox.length
    rw [telling.outbox, List.length_append]
    exact h.progress.trans (Nat.le_add_right ..)
  · show (s.observer.supervisor.facesOf node.id).takeAll (owner.outbox.drop s.arrived) = _
    rw [drop, Faces.takeAll_append, h.view, telling.faces]
  · intro id unknown
    exact h.known id fun knew => unknown (knew.tell telling)
  · intro w hw
    have hw : w ∈ owner.outbox.drop s.arrived := hw
    rw [drop] at hw
    rcases List.mem_append.1 hw with hw | hw
    · exact h.told w hw
    · exact h.node_eq ▸ telling.told w hw

/-- The observer may do anything that leaves what it remembers of the owner alone. -/
theorem Follows.observer (h : s.Follows node) {observer : Node}
    (hn : observer.supervisor.node = s.observer.supervisor.node)
    (faces : observer.supervisor.facesOf node.id = s.observer.supervisor.facesOf node.id) :
    Follows node { s with observer } where
  node_eq := h.node_eq
  distinct := by rw [hn]; exact h.distinct
  healthy := h.healthy
  progress := h.progress
  view := by rw [faces]; exact h.view
  known := by rw [faces]; exact h.known
  told := h.told

/-- What arrives next is taken in. -/
theorem Follows.next (h : s.Follows node)
    (sendable : ∀ w, s.owner.outbox[s.arrived]? = some w → w.Sendable) : s.next.Follows node := by
  cases next : s.owner.outbox[s.arrived]? with
  | none =>
    rw [Watch.next, next]
    exact h
  | some w =>
    obtain ⟨short, hw⟩ := List.getElem?_eq_some_iff.1 next
    have pending : s.pending = w :: s.owner.outbox.drop (s.arrived + 1) := by
      rw [Watch.pending, List.drop_eq_getElem_cons short, hw]
    have told : Supervisor.Told node.id w :=
      h.told w (by rw [pending]; exact List.mem_cons_self ..)
    rw [Watch.next, next, h.node_eq]
    dsimp only
    rw [Node.receive_packet (sendable w next) told]
    refine ⟨h.node_eq, ?_, h.healthy, short, ?_, ?_, ?_⟩
    · rw [Node.node_follow]
      exact h.distinct
    · rw [Node.facesOf_follow told.owner h.distinct, ← h.view, pending]
      rfl
    · intro id unknown
      rw [Node.facesOf_follow told.owner h.distinct, Faces.find?_take_of_ne]
      · exact h.known id unknown
      · rintro rfl
        exact unknown (.inr ⟨w, List.mem_of_getElem? next, rfl⟩)
    · intro v hv
      exact h.told v (by rw [pending]; exact List.mem_cons_of_mem _ hv)

/-- The observer may do anything with its own workers. -/
theorem Follows.observe (h : s.Follows node) {t : Supervisor}
    (turns : Supervisor.Turns s.observer.supervisor t) {observer : Node}
    (supervisor : observer.supervisor = { t with outbox := [] }) :
    Follows node { s with observer } := by
  refine h.observer ?_ (Supervisor.facesOf_congr ?_ _)
  · rw [supervisor]
    exact turns.node_eq
  · rw [supervisor]
    exact turns.remote_eq

/-- What another peer says about its workers does not matter. -/
theorem Follows.follow (h : s.Follows node) {peer : NodeId} {u : WorkerUpdate}
    (other : peer ≠ s.owner.node.id) (fresh : ¬ s.Knows u.record.uuid) :
    Follows node { s with observer := (s.observer.perform (.follow peer u)).2 } := by
  rw [h.node_eq] at other
  refine h.observer (Node.node_follow peer u) ?_
  show (s.observer.follow peer u).supervisor.facesOf node.id = _
  by_cases own : u.record.owner = peer
  · rw [← Supervisor.facesOf_hear_other (own ▸ other) (h.known _ fresh)]
    exact Supervisor.facesOf_congr (by rw [Node.supervisor_follow_own own]) _
  · rw [Node.follow_other own]

theorem Follows.push (h : s.Follows node) {peer : NodeId} {l : List WorkerRecord}
    (other : peer ≠ s.owner.node.id) (fresh : ∀ w ∈ l, ¬ s.Knows w.uuid) :
    Follows node { s with observer := (s.observer.perform (.hear peer (.workers l))).2 } := by
  rw [h.node_eq] at other
  have heard : (s.observer.perform (.hear peer (.workers l))).2.supervisor =
      { (s.observer.supervisor.replace peer l).2 with outbox := [] } := rfl
  refine h.observer ?_ ?_
  · rw [heard]
    exact (Supervisor.replace_hearings ..).node_eq
  · rw [← Supervisor.facesOf_replace_other other fun w hw => h.known _ (fresh w hw)]
    exact Supervisor.facesOf_congr (by rw [heard]) _

theorem next_owner (s : Watch) : s.next.owner = s.owner := by
  unfold next
  split <;> rfl

theorem le_next (s : Watch) : s.arrived ≤ s.next.arrived := by
  unfold next
  split
  · exact Nat.le_succ _
  · exact le_rfl

theorem Move.outbox_grows (move : s.Move t) : s.owner.outbox <+: t.owner.outbox := by
  cases move with
  | act change => exact change.outbox_grows
  | arrive => rw [next_owner]
  | _ => exact List.prefix_rfl

theorem Move.arrived_le (move : s.Move t) : s.arrived ≤ t.arrived := by
  cases move with
  | arrive => exact s.le_next
  | _ => exact le_rfl

theorem Moves.outbox_grows (moves : Moves s t) : s.owner.outbox <+: t.owner.outbox :=
  path_lifts (R := fun s t => s.owner.outbox <+: t.owner.outbox) (fun _ => List.prefix_rfl)
    List.IsPrefix.trans (fun _ _ h => h.outbox_grows) moves

/-- **Whatever happens, the observer follows**, if what arrives can be read. -/
theorem Move.follows (hosts : ∀ a ∈ node.listeners, a.host ≠ "")
    (sendable : ∀ w, s.owner.outbox[s.arrived]? = some w → w.Sendable)
    (h : s.Follows node) (move : s.Move t) : t.Follows node := by
  have hosts' : ∀ a ∈ s.owner.node.listeners, a.host ≠ "" := h.node_eq.symm ▸ hosts
  cases move with
  | act change => exact h.owner (change.tells hosts' h.healthy)
  | arrive => exact h.next sendable
  | observe step own => exact h.observe (Supervisor.perform_turns _ own) rfl
  | script event => exact h.observe (.single (.happen event)) rfl
  | follow other fresh => exact h.follow other fresh
  | push other fresh => exact h.push other fresh

/-- The observer follows all the time, if all that is told can be read. -/
theorem Moves.follows (hosts : ∀ a ∈ node.listeners, a.host ≠ "") (h : s.Follows node)
    (moves : Moves s t) (sendable : ∀ w ∈ t.owner.outbox.drop s.arrived, w.Sendable) :
    t.Follows node := by
  induction moves using Relation.ReflTransGen.head_induction_on with
  | refl => exact h
  | @head s u move rest ih =>
    refine ih (move.follows hosts (fun w next => sendable w ?_) h) fun w hw => sendable w ?_
    · -- what arrives next has been told, and is never taken back
      obtain ⟨l, hl⟩ := (move.outbox_grows.trans (Moves.outbox_grows rest))
      obtain ⟨short, rfl⟩ := List.getElem?_eq_some_iff.1 next
      rw [← hl, List.drop_append_of_le_length short.le, List.drop_eq_getElem_cons short]
      exact List.mem_append_left _ (List.mem_cons_self ..)
    · exact (List.drop_sublist_drop_left _ move.arrived_le).subset hw

/-- Whoever sees the workers as they are when all that has been told has arrived follows. -/
theorem Follows.start {settings : Settings} (reachable : Supervisor.Reachable node settings s.owner)
    (hosts : ∀ a ∈ node.listeners, a.host ≠ "") (distinct : s.observer.supervisor.node.id ≠ node.id)
    (all : s.arrived = s.owner.outbox.length) (agree : s.Agrees) : s.Follows node where
  node_eq := reachable.node_eq
  distinct := distinct
  healthy := reachable.healthy hosts
  progress := all.le
  view := by
    rw [pending, all, List.drop_length, ← reachable.node_eq]
    exact agree
  known id unknown := by
    rw [← reachable.node_eq, agree]
    refine Option.eq_none_iff_forall_ne_some.2 fun f found => unknown (.inl ?_)
    exact Supervisor.owns_iff.2 ⟨f, found⟩
  told w hw := by
    rw [pending, all, List.drop_length] at hw
    cases hw

/-- **A node that sees the workers of another one as they are, and takes in all that it is told in
order, sees them as they are at the end**, whatever both have done in the meantime. -/
theorem agrees_of_arrived {settings : Settings}
    (reachable : Supervisor.Reachable node settings s.owner)
    (hosts : ∀ a ∈ node.listeners, a.host ≠ "") (distinct : s.observer.supervisor.node.id ≠ node.id)
    (start : s.arrived = s.owner.outbox.length) (agree : s.Agrees) (moves : Moves s t)
    (sendable : ∀ w ∈ t.owner.outbox.drop s.arrived, w.Sendable)
    (done : t.arrived = t.owner.outbox.length) : t.Agrees := by
  have follows := Moves.follows hosts (.start reachable hosts distinct start agree) moves sendable
  have view := follows.view
  rw [pending, done, List.drop_length, Faces.takeAll_nil] at view
  rw [Agrees, follows.node_eq]
  exact view

/-! ### A small run -/

/-- Two nodes without workers. -/
def idle : Watch where
  owner := Supervisor.lobbyEmpty
  arrived := 0
  observer := lobbyObserver

/-- The owner has made a worker and started it. -/
def started : Watch := { idle with owner := Supervisor.lobbyRunning }

/-- The observer has made a worker between the two packets. -/
def caughtUp : Watch :=
  { started.next with
    observer :=
      (started.next.observer.onSupervisor (·.perform (.create Supervisor.lobbyPlan))).2 }.next

theorem idle_moves : Moves idle caughtUp :=
  ((((Relation.ReflTransGen.single (.act (.perform (.create Supervisor.lobbyPlan)))).tail
    (.act (.perform (.start Supervisor.lobbyId)))).tail .arrive).tail
    (.observe (.create Supervisor.lobbyPlan) trivial)).tail .arrive

/-- The observer sees the running worker. -/
theorem agrees_caughtUp :
    (caughtUp.owner.owned.values.map (·.record.lifecycle) = [.running] ∧ caughtUp.arrived = 2) ∧
      caughtUp.Agrees :=
  ⟨by decide +kernel,
    agrees_of_arrived (s := idle) Supervisor.reachable_lobbyEmpty (by decide) (by decide) rfl rfl
      idle_moves lobbyRunning_sendable (by decide +kernel)⟩

end Watch

end WorkerCluster
