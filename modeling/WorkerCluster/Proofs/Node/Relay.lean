import WorkerCluster.Proofs.Node.Follow

/-!
# Packets that overtake one another

Packets are read from a connection in order, but every one is handled by a task of its own, and the
tasks run in any order.

* `Relay` is a node that owns workers, the tasks, and the loop of a node that watches the workers.
  `Relay.Move` is what may happen.
* `Relay.Orderly` is the invariant: whatever the order, no packet is lost, and the records are those
  that come of the packets whose tasks have run and whose errands have been done.
* `seen_of_quiet` is the main statement: at the end the last task to run decides. `overtaken` is a
  run in which that is not the last packet.
-/

namespace WorkerCluster

/-- A node that owns workers, and the loop of another one that watches them. -/
structure Relay where
  owner : Supervisor
  /-- How much of what the owner has told has been read. -/
  read : ℕ
  /-- What has been read and is in the hands of tasks that have not run. -/
  tasks : List WorkerRecord := []
  /-- What tasks that have run had in hand, in the order in which they ran. -/
  handled : List WorkerRecord := []
  /-- The loop of the observer. -/
  loop : Loop Node Errand

namespace Relay

/-- The next packet is read and given to a new task, if there is one. -/
def readNext (s : Relay) : Relay :=
  match s.owner.outbox[s.read]? with
  | some w => { s with read := s.read + 1, tasks := s.tasks ++ [w] }
  | none => s

/-- One of the tasks runs, if there is such a one. It submits what its packet asks for. -/
def runTask (s : Relay) (i : ℕ) : Relay :=
  match s.tasks[i]? with
  | some w => { s with
      tasks := s.tasks.eraseIdx i
      handled := s.handled ++ [w]
      loop := match Errand.ofPacket (.peer s.owner.node.id) w.packet with
        | some e => s.loop.submit (.plain e)
        | none => s.loop }
  | none => s

/-- The loop does the errand that has waited longest, if one waits. -/
def workNext (s : Relay) : Relay :=
  match s.loop.queue with
  | .item e submits :: rest => { s with
      loop := { s.loop with state := (s.loop.state.perform e).2, queue := rest ++ submits } }
  | [] => s

/-- What may happen. -/
inductive Move (s : Relay) : Relay → Prop
  /-- Something happens at the owner. -/
  | act {owner : Supervisor} (change : s.owner.Change owner) : Move s { s with owner }
  /-- The next packet is read. -/
  | read : Move s s.readNext
  /-- A task runs. -/
  | run (i : ℕ) : Move s (s.runTask i)
  /-- The loop does an errand. -/
  | work : Move s s.workNext
  /-- The observer performs an operation on its own workers. -/
  | observe (step : Supervisor.Step) (own : step.IsOwn) :
      Move s { s with
        loop := { s.loop with state := (s.loop.state.onSupervisor (·.perform step)).2 } }

/-- What may happen over time. -/
abbrev Moves : Relay → Relay → Prop := Relation.ReflTransGen Move

/-- All that has been told has been read, all tasks have run, and all errands are done. -/
structure Quiet (s : Relay) : Prop where
  read : s.read = s.owner.outbox.length
  tasks : s.tasks = []
  queue : s.loop.queue = []

/-- What the observer remembers of a worker of the owner. -/
def seen (s : Relay) (id : Uuid) : Option WorkerFace :=
  (s.loop.state.supervisor.facesOf s.owner.node.id).find? id

/-- What the owner has told since an earlier state. -/
def toldSince (s t : Relay) : List WorkerRecord := t.owner.outbox.drop s.owner.outbox.length

/-- What the observer remembers of a worker has the lifecycle that was told last: it is gone if that
is the one of deleted workers. -/
def UpToDate (s t : Relay) (id : Uuid) : Prop :=
  ∀ w, WorkerRecord.latest id (s.toldSince t) = some w →
    (t.seen id).map (·.lifecycle) = w.left.map (·.lifecycle)

/-- What has been read is in the hands of tasks or has been handled, and the observer remembers what
has been done of what has been handled. `before` had been told, and `faces` were remembered, in the
beginning. -/
structure Orderly (node : NodeIdentity) (before : List WorkerRecord) (faces : Faces) (s : Relay) :
    Prop where
  node_eq : s.owner.node = node
  distinct : s.loop.state.supervisor.node.id ≠ node.id
  healthy : s.owner.Healthy
  told : ∃ l, s.owner.outbox = before ++ l ∧ ∀ w ∈ l, Supervisor.Told node.id w
  progress : s.read ≤ s.owner.outbox.length
  kept : ∃ l, s.owner.outbox.take s.read = before ++ l ∧ (s.handled ++ s.tasks).Perm l
  done : ∃ done waiting, s.handled = done ++ waiting ∧
    s.loop.queue = waiting.map (fun w => .plain (.follow node.id ⟨w⟩)) ∧
    s.loop.state.supervisor.facesOf node.id = faces.takeAll done

variable {node : NodeIdentity} {before : List WorkerRecord} {faces : Faces} {s t : Relay}

theorem Orderly.act (h : s.Orderly node before faces) {owner : Supervisor}
    (tells : Supervisor.Tells s.owner owner) : Orderly node before faces { s with owner } := by
  obtain ⟨hn, healthy, l, telling⟩ := tells
  obtain ⟨k, outbox, told⟩ := h.told
  refine ⟨hn.trans h.node_eq, h.distinct, healthy, ⟨k ++ l, ?_, ?_⟩, ?_, ?_, h.done⟩
  · show owner.outbox = _
    rw [telling.outbox, outbox, List.append_assoc]
  · intro w hw
    rcases List.mem_append.1 hw with hw | hw
    · exact told w hw
    · exact h.node_eq ▸ telling.told w hw
  · show s.read ≤ owner.outbox.length
    rw [telling.outbox, List.length_append]
    exact h.progress.trans (Nat.le_add_right ..)
  · -- what has been read stays what it is
    show ∃ l, owner.outbox.take s.read = before ++ l ∧ _
    rw [telling.outbox, List.take_append_of_le_length h.progress]
    exact h.kept

theorem Orderly.readNext (h : s.Orderly node before faces) :
    s.readNext.Orderly node before faces := by
  unfold Relay.readNext
  split
  · rename_i w next
    obtain ⟨short, rfl⟩ := List.getElem?_eq_some_iff.1 next
    refine ⟨h.node_eq, h.distinct, h.healthy, h.told, short, ?_, h.done⟩
    obtain ⟨l, take, perm⟩ := h.kept
    refine ⟨l ++ [s.owner.outbox[s.read]], ?_, ?_⟩
    · rw [List.take_add_one, next, take]
      simp
    · rw [← List.append_assoc]
      exact perm.append_right _
  · exact h

/-- Whatever a task has or had in hand has been told since the beginning. -/
theorem Orderly.mem_told (h : s.Orderly node before faces) {w : WorkerRecord}
    (hw : w ∈ s.handled ++ s.tasks) :
    w ∈ s.owner.outbox.drop before.length ∧ Supervisor.Told node.id w := by
  obtain ⟨l, take, perm⟩ := h.kept
  obtain ⟨k, outbox, told⟩ := h.told
  have read : before ++ l <+: before ++ k := by
    rw [← take, ← outbox]
    exact List.take_prefix _ _
  have mem : w ∈ k := ((List.prefix_append_right_inj _).1 read).subset (perm.subset hw)
  refine ⟨?_, told w mem⟩
  rw [outbox, List.drop_left]
  exact mem

theorem Orderly.runTask (h : s.Orderly node before faces)
    (sendable : ∀ w ∈ s.tasks, w.Sendable) (i : ℕ) : (s.runTask i).Orderly node before faces := by
  unfold Relay.runTask
  split
  · rename_i w next
    have mem : w ∈ s.tasks := List.mem_of_getElem? next
    have told := (h.mem_told (List.mem_append_right _ mem)).2
    rw [h.node_eq, (sendable w mem).ofPacket told]
    refine ⟨h.node_eq, h.distinct, h.healthy, h.told, h.progress, ?_, ?_⟩
    · obtain ⟨l, take, perm⟩ := h.kept
      refine ⟨l, take, .trans ?_ perm⟩
      obtain ⟨short, rfl⟩ := List.getElem?_eq_some_iff.1 next
      rw [List.append_assoc]
      exact (List.getElem_cons_eraseIdx_perm short).append_left _
    · obtain ⟨done, waiting, handled, queue, view⟩ := h.done
      refine ⟨done, waiting ++ [w], ?_, ?_, view⟩
      · rw [handled, List.append_assoc]
      · show s.loop.queue ++ [_] = _
        rw [queue, List.map_append]
        rfl
  · exact h

theorem Orderly.workNext (h : s.Orderly node before faces) :
    s.workNext.Orderly node before faces := by
  obtain ⟨done, waiting, handled, queue, view⟩ := h.done
  unfold Relay.workNext
  split
  · rename_i e submits rest hq
    rw [queue] at hq
    obtain ⟨w, waiting, rfl, item, rfl⟩ := List.map_eq_cons_iff.1 hq
    obtain ⟨rfl, rfl⟩ := Work.item.inj item
    have told : Supervisor.Told node.id w := by
      refine (h.mem_told (List.mem_append_left _ ?_)).2
      rw [handled]
      exact List.mem_append_right _ (List.mem_cons_self ..)
    refine ⟨h.node_eq, ?_, h.healthy, h.told, h.progress, h.kept, done ++ [w], waiting, ?_, ?_, ?_⟩
    · show (s.loop.state.follow node.id ⟨w⟩).supervisor.node.id ≠ node.id
      rw [Node.node_follow]
      exact h.distinct
    · rw [List.append_assoc]
      exact handled
    · exact List.append_nil _
    · show (s.loop.state.follow node.id ⟨w⟩).supervisor.facesOf node.id = _
      rw [Node.facesOf_follow told.owner h.distinct, view, Faces.takeAll_append]
      rfl
  · exact h

theorem Orderly.observe (h : s.Orderly node before faces) {step : Supervisor.Step}
    (own : step.IsOwn) : Orderly node before faces { s with
      loop := { s.loop with state := (s.loop.state.onSupervisor (·.perform step)).2 } } := by
  have turns := Supervisor.perform_turns s.loop.state.supervisor own
  have view : (s.loop.state.onSupervisor (·.perform step)).2.supervisor.facesOf node.id =
      s.loop.state.supervisor.facesOf node.id := Supervisor.facesOf_congr turns.remote_eq _
  refine ⟨h.node_eq, ?_, h.healthy, h.told, h.progress, h.kept, ?_⟩
  · show (s.loop.state.supervisor.perform step).2.node.id ≠ node.id
    rw [turns.node_eq]
    exact h.distinct
  · dsimp only
    rw [view]
    exact h.done

/-- **Whatever happens, no packet is lost**, if what is in the hands of tasks can be read. -/
theorem Move.orderly (hosts : ∀ a ∈ node.listeners, a.host ≠ "")
    (sendable : ∀ w ∈ s.tasks, w.Sendable) (h : s.Orderly node before faces) (move : s.Move t) :
    t.Orderly node before faces := by
  have hosts' : ∀ a ∈ s.owner.node.listeners, a.host ≠ "" := h.node_eq.symm ▸ hosts
  cases move with
  | act change => exact h.act (change.tells hosts' h.healthy)
  | read => exact h.readNext
  | run i => exact h.runTask sendable i
  | work => exact h.workNext
  | observe step own => exact h.observe own

theorem readNext_owner (s : Relay) : s.readNext.owner = s.owner := by
  unfold readNext
  split <;> rfl

theorem runTask_owner (s : Relay) (i : ℕ) : (s.runTask i).owner = s.owner := by
  unfold runTask
  split <;> rfl

theorem workNext_owner (s : Relay) : s.workNext.owner = s.owner := by
  unfold workNext
  split <;> rfl

theorem Move.outbox_grows (move : s.Move t) : s.owner.outbox <+: t.owner.outbox := by
  cases move with
  | act change => exact change.outbox_grows
  | read => rw [readNext_owner]
  | run i => rw [runTask_owner]
  | work => rw [workNext_owner]
  | observe => exact List.prefix_rfl

theorem Moves.outbox_grows (moves : Moves s t) : s.owner.outbox <+: t.owner.outbox :=
  path_lifts (R := fun s t => s.owner.outbox <+: t.owner.outbox) (fun _ => List.prefix_rfl)
    List.IsPrefix.trans (fun _ _ h => h.outbox_grows) moves

/-- No packet is lost at any time, if all that is told can be read. -/
theorem Moves.orderly (hosts : ∀ a ∈ node.listeners, a.host ≠ "")
    (h : s.Orderly node before faces) (moves : Moves s t)
    (sendable : ∀ w ∈ t.owner.outbox.drop before.length, w.Sendable) :
    t.Orderly node before faces := by
  -- from the first move on: all that is told by the end can be read
  induction moves using Relation.ReflTransGen.head_induction_on with
  | refl => exact h
  | @head s u move rest ih =>
    refine ih (move.orderly hosts (fun w hw => sendable w ?_) h)
    obtain ⟨l, hl⟩ := move.outbox_grows.trans (Moves.outbox_grows rest)
    rw [← hl, List.drop_append]
    exact List.mem_append_left _ (h.mem_told (List.mem_append_right _ hw)).1

/-- When all is quiet nothing is on its way. -/
theorem Orderly.start {settings : Settings} (reachable : Supervisor.Reachable node settings s.owner)
    (hosts : ∀ a ∈ node.listeners, a.host ≠ "")
    (distinct : s.loop.state.supervisor.node.id ≠ node.id) (quiet : s.Quiet)
    (fresh : s.handled = []) :
    s.Orderly node s.owner.outbox (s.loop.state.supervisor.facesOf node.id) where
  node_eq := reachable.node_eq
  distinct := distinct
  healthy := reachable.healthy hosts
  told := ⟨[], (List.append_nil _).symm, fun _ h => nomatch h⟩
  progress := quiet.read.le
  kept := by
    refine ⟨[], ?_, ?_⟩
    · rw [quiet.read, List.take_length, List.append_nil]
    · rw [fresh, quiet.tasks]
      rfl
  done := ⟨[], [], by rw [fresh]; rfl, quiet.queue, rfl⟩

/-- When all is quiet, the last task to run about a worker has decided. -/
theorem Orderly.seen_eq (h : s.Orderly node before faces) (quiet : s.Quiet) (id : Uuid) :
    s.seen id = WorkerRecord.leftAfter id s.handled (faces.find? id) := by
  obtain ⟨done, waiting, handled, queue, view⟩ := h.done
  rw [quiet.queue] at queue
  obtain rfl : waiting = [] := List.map_eq_nil_iff.1 queue.symm
  rw [List.append_nil] at handled
  rw [Relay.seen, h.node_eq, view, handled, Faces.find?_takeAll]

/-- **When all is quiet again, the last task to run has decided.** The tasks have had in hand what
has been told, in some order; of every worker the observer remembers what the last of them about it
says; and that is up to date exactly if it has the lifecycle that was told last. -/
theorem seen_of_quiet {settings : Settings}
    (reachable : Supervisor.Reachable node settings s.owner)
    (hosts : ∀ a ∈ node.listeners, a.host ≠ "")
    (distinct : s.loop.state.supervisor.node.id ≠ node.id) (start : s.Quiet)
    (fresh : s.handled = []) (moves : Moves s t) (sendable : ∀ w ∈ s.toldSince t, w.Sendable)
    (quiet : t.Quiet) :
    t.handled.Perm (s.toldSince t) ∧ ∀ id,
      t.seen id = WorkerRecord.leftAfter id t.handled (s.seen id) ∧
      (UpToDate s t id ↔ ∀ w, WorkerRecord.latest id (s.toldSince t) = some w →
        (WorkerRecord.latest id t.handled).map (·.lifecycle) = some w.lifecycle) := by
  have orderly := Moves.orderly hosts (.start reachable hosts distinct start fresh) moves sendable
  have perm : t.handled.Perm (s.toldSince t) := by
    obtain ⟨l, take, perm⟩ := orderly.kept
    rw [quiet.read, List.take_length] at take
    rw [quiet.tasks, List.append_nil] at perm
    rwa [toldSince, take, List.drop_left]
  have seen (id : Uuid) : t.seen id = WorkerRecord.leftAfter id t.handled (s.seen id) := by
    rw [orderly.seen_eq quiet, Relay.seen, reachable.node_eq]
  refine ⟨perm, ?_⟩
  intro id
  refine ⟨seen id, forall₂_congr fun v last => ?_⟩
  -- whatever has been told of the worker, some task has had it in hand
  cases h : WorkerRecord.latest id t.handled with
  | none =>
    obtain ⟨mem, uuid⟩ := WorkerRecord.mem_of_latest last
    exact absurd uuid (WorkerRecord.latest_eq_none.1 h v (perm.symm.subset mem))
  | some w =>
    rw [seen, WorkerRecord.leftAfter_some h]
    simpa using WorkerRecord.left_lifecycle

/-! ### A small run -/

/-- Two nodes without workers. -/
def idle : Relay where
  owner := Supervisor.lobbyEmpty
  read := 0
  loop := { state := lobbyObserver, ticksPerSecond := 10 }

/-- A state in which the owner has made a worker and started it. -/
def started (read : ℕ) (tasks handled : List WorkerRecord) (state : Node)
    (queue : List (Work Errand)) : Relay where
  owner := Supervisor.lobbyRunning
  read := read
  tasks := tasks
  handled := handled
  loop := { state, queue, ticksPerSecond := 10 }

/-- The state when the second task has run before the first one, and both errands are done. -/
def overtaken (made running : WorkerRecord) : Relay :=
  started 2 [] [running, made]
    ((lobbyObserver.follow Supervisor.lobbyNode.id ⟨running⟩).follow
      Supervisor.lobbyNode.id ⟨made⟩) []

theorem readNext_eq {w : WorkerRecord} (next : s.owner.outbox[s.read]? = some w) :
    s.readNext = { s with read := s.read + 1, tasks := s.tasks ++ [w] } := by
  rw [readNext, next]

theorem runTask_eq {i : ℕ} {w : WorkerRecord} {e : Errand} (next : s.tasks[i]? = some w)
    (asks : Errand.ofPacket (.peer s.owner.node.id) w.packet = some e) :
    s.runTask i = { s with
      tasks := s.tasks.eraseIdx i
      handled := s.handled ++ [w]
      loop := s.loop.submit (.plain e) } := by
  rw [runTask, next]
  dsimp only
  rw [asks]

/-- The errand of following a record of the owner. -/
def errand (w : WorkerRecord) : Work Errand := .plain (.follow Supervisor.lobbyNode.id ⟨w⟩)

section

variable {made running : WorkerRecord}

theorem moves_read (outbox : Supervisor.lobbyRunning.outbox = [made, running]) :
    Moves idle (started 2 [made, running] [] lobbyObserver []) := by
  have acted : Moves idle (started 0 [] [] lobbyObserver []) :=
    .tail (b := { idle with owner := (idle.owner.perform (.create Supervisor.lobbyPlan)).2 })
      (.single (.act (.perform _))) (.act (.perform (.start Supervisor.lobbyId)))
  have first : (started 0 [] [] lobbyObserver []).readNext = started 1 [made] [] lobbyObserver [] :=
    readNext_eq (congrArg (·[0]?) outbox)
  have second : (started 1 [made] [] lobbyObserver []).readNext =
      started 2 [made, running] [] lobbyObserver [] := readNext_eq (congrArg (·[1]?) outbox)
  have moves := acted.tail .read
  rw [first] at moves
  replace moves := moves.tail .read
  rwa [second] at moves

/-- The second task is the first to run. -/
theorem moves_run (outbox : Supervisor.lobbyRunning.outbox = [made, running]) :
    Moves (started 2 [made, running] [] lobbyObserver [])
      (started 2 [] [running, made] lobbyObserver [errand running, errand made]) := by
  have asks : ∀ w ∈ Supervisor.lobbyRunning.outbox,
      Errand.ofPacket (.peer Supervisor.lobbyRunning.node.id) w.packet =
        some (.follow Supervisor.lobbyNode.id ⟨w⟩) := fun w hw =>
    (lobbyRunning_sendable w hw).ofPacket (lobbyRunning_told w hw)
  rw [outbox] at asks
  have ahead : (started 2 [made, running] [] lobbyObserver []).runTask 1 =
      started 2 [made] [running] lobbyObserver [errand running] :=
    runTask_eq rfl (asks running (by simp))
  have behind : (started 2 [made] [running] lobbyObserver [errand running]).runTask 0 =
      started 2 [] [running, made] lobbyObserver [errand running, errand made] :=
    runTask_eq rfl (asks made (by simp))
  have moves : Moves _ _ := .single (.run (s := started 2 [made, running] [] lobbyObserver []) 1)
  rw [ahead] at moves
  replace moves := moves.tail (.run 0)
  rwa [behind] at moves

theorem idle_moves (outbox : Supervisor.lobbyRunning.outbox = [made, running]) :
    Moves idle (overtaken made running) :=
  (((moves_read outbox).trans (moves_run outbox)).tail .work).tail .work

end

theorem quiet_idle : idle.Quiet := ⟨rfl, rfl, rfl⟩

theorem quiet_overtaken {made running : WorkerRecord}
    (outbox : Supervisor.lobbyRunning.outbox = [made, running]) :
    (overtaken made running).Quiet := by
  refine ⟨?_, rfl, rfl⟩
  show 2 = Supervisor.lobbyRunning.outbox.length
  rw [outbox]
  rfl

/-- The task that ran last is the one that had the first packet in hand. -/
theorem seen_overtaken : ∃ made running, Moves idle (overtaken made running) ∧
    (overtaken made running).handled.Perm (idle.toldSince (overtaken made running)) ∧ ∀ id,
      (overtaken made running).seen id =
        WorkerRecord.leftAfter id (overtaken made running).handled (idle.seen id) ∧
      (UpToDate idle (overtaken made running) id ↔
        ∀ w, WorkerRecord.latest id (idle.toldSince (overtaken made running)) = some w →
          (WorkerRecord.latest id (overtaken made running).handled).map (·.lifecycle) =
            some w.lifecycle) := by
  obtain ⟨made, running, outbox, -⟩ := lobbyRunning_outbox
  exact ⟨made, running, idle_moves outbox,
    seen_of_quiet Supervisor.reachable_lobbyEmpty (by decide) (by decide) quiet_idle rfl
      (idle_moves outbox) lobbyRunning_sendable (quiet_overtaken outbox)⟩

/-- The worker runs, and is remembered as one that has not been started. -/
theorem overtaken_not_upToDate : ∃ made running,
    (idle.Quiet ∧ Moves idle (overtaken made running) ∧ (overtaken made running).Quiet ∧
      ∀ w ∈ idle.toldSince (overtaken made running), w.Sendable) ∧
    ((overtaken made running).seen Supervisor.lobbyId).map (·.lifecycle) = some .prepared ∧
    ¬ UpToDate idle (overtaken made running) Supervisor.lobbyId := by
  obtain ⟨made, running, outbox, ⟨hmade, prepared⟩, hrunning, runs⟩ := lobbyRunning_outbox
  have orderly := Moves.orderly (by decide)
    (.start (s := idle) Supervisor.reachable_lobbyEmpty (by decide) (by decide) quiet_idle rfl)
    (idle_moves outbox) lobbyRunning_sendable
  have seen : (overtaken made running).seen Supervisor.lobbyId = made.left := by
    rw [orderly.seen_eq (quiet_overtaken outbox), ← hmade]
    exact WorkerRecord.leftAfter_some (WorkerRecord.latest_append_self [running] made) _
  refine ⟨made, running, ⟨quiet_idle, idle_moves outbox, quiet_overtaken outbox,
    lobbyRunning_sendable⟩, ?_, ?_⟩
  · rw [seen, WorkerRecord.left, prepared]
    exact congrArg some prepared
  · intro h
    have last : WorkerRecord.latest Supervisor.lobbyId (idle.toldSince (overtaken made running)) =
        some running := by
      show WorkerRecord.latest Supervisor.lobbyId Supervisor.lobbyRunning.outbox = _
      rw [outbox, ← hrunning]
      exact WorkerRecord.latest_append_self [made] running
    have wrong := h running last
    rw [seen, WorkerRecord.left_lifecycle, prepared, runs] at wrong
    cases wrong

end Relay

end WorkerCluster
