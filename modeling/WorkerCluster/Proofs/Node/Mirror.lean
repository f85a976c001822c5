import WorkerCluster.Link.Backlog
import WorkerCluster.Proofs.Link.Table
import WorkerCluster.Proofs.Node.Memory
import WorkerCluster.Proofs.Node.Turn

/-!
# How a node follows its links

What happens to the links of a node is announced after the table has changed, by whoever has changed
it, so that announcements may overtake one another: a connection may even come to its end before it
is announced that it has come up. Announcements wait in a backlog that holds so many of them and no
more. A pump takes them from there to the loop of the node.

* `Mirror` is the table, the announcements on their way, and the loop. `Mirror.Move` is what may
  happen, `Mirror.run` lets it happen.
* `Mirror.Sound` is what always holds: `Sound.make` says so of one move, `Sound.run` of all.
* `mirrors_iff` is the main statement: when everything has been followed, the node believes in a
  link to a peer exactly if the last announcement about the peer that has been taken says so, and
  there is one exactly if the last change was of that kind.
* `Sound.burst` says what is lost when the pump does not keep up. In the run `hasty` an announcement
  is overtaken.
-/

namespace WorkerCluster

namespace LinkEvent

/-- Whether there is a link to someone, by the last of some events. -/
def lastUp (events : List LinkEvent) (o : Origin) : Bool :=
  (events.filter (·.origin = o)).getLast?.any (·.isUp)

theorem lastUp_concat (events : List LinkEvent) (e : LinkEvent) (o : Origin) :
    lastUp (events ++ [e]) o = if e.origin = o then e.isUp else lastUp events o := by
  unfold lastUp
  rw [List.filter_append]
  by_cases about : e.origin = o
  · simp [about]
  · simp [about]

end LinkEvent

open LinkEvent (lastUp lastUp_concat)

/-! ### Backlogs -/

namespace Backlog

/-- Of a longer row the oldest events are lost. -/
theorem push_sublist (b : Backlog) (e : LinkEvent) :
    (b.push e).events.Sublist (b.events ++ [e]) := by
  unfold push
  dsimp only
  exact List.drop_sublist _ _

theorem length_push (b : Backlog) (e : LinkEvent) : (b.push e).events.length ≤ capacity := by
  unfold push
  dsimp only
  rw [List.length_drop]
  generalize capacity = c
  omega

/-- Of all that has come, the last so many events are there. -/
theorem foldl_push {b : Backlog} (fits : b.events.length ≤ capacity) (l : List LinkEvent) :
    (l.foldl push b).events = (b.events ++ l).drop ((b.events ++ l).length - capacity) := by
  induction l using List.reverseRecOn with
  | nil => rw [List.foldl_nil, List.append_nil, Nat.sub_eq_zero_of_le fits, List.drop_zero]
  | append_singleton l e ih =>
    rw [List.foldl_concat, push, ih, ← List.append_assoc]
    generalize b.events ++ l = all
    generalize capacity = c
    dsimp only
    rw [← List.drop_append_of_le_length (Nat.sub_le ..), List.drop_drop, List.length_drop,
      List.length_append, List.length_singleton]
    congr 1
    omega

end Backlog

/-- The event that the node is to follow. -/
def Errand.notice? : Errand → Option LinkEvent
  | .notice e => some e
  | _ => none

/-! ### Contacts -/

namespace Node

variable {n t u : Node}

/-- The same peers are configured, and the same ones are connected. -/
structure SameContacts (n t : Node) : Prop where
  configured : ∀ p, t.roster.peers.contains p = n.roster.peers.contains p
  connected : ∀ p, t.roster.isConnected p = n.roster.isConnected p

theorem SameContacts.of_roster (same : t.roster = n.roster) : SameContacts n t where
  configured _ := by rw [same]
  connected _ := by rw [same]

theorem SameContacts.trans (h : SameContacts n t) (g : SameContacts t u) : SameContacts n u where
  configured p := (g.configured p).trans (h.configured p)
  connected p := (g.connected p).trans (h.connected p)

theorem roster_scale (n : Node) (here : NodeStatus) (groups : List GroupSpec) (t : TaskSpec) :
    (n.scale here groups t).2.roster = n.roster := by
  unfold scale
  split
  · split
    · next created => exact congrArg (·.2.roster) created.symm
    · next created => exact congrArg (·.2.roster) created.symm
  · rfl

theorem roster_autoscale (n : Node) : n.autoscale.2.roster = n.roster := by
  unfold autoscale
  split
  · rfl
  · next here _ =>
    refine List.foldlRecOn (motive := fun x : ℕ × Node => x.2.roster = n.roster) _ _ rfl ?_
    intro x same t _
    exact (roster_scale x.2 here _ t).trans same

theorem contacts_upkeep (n : Node) (second : Bool) : SameContacts n (n.upkeep second) := by
  cases second with
  | false => exact .of_roster rfl
  | true =>
    have scaled : SameContacts n n.autoscale.2 := .of_roster n.roster_autoscale
    exact scaled.trans ⟨fun _ => rfl, fun _ => rfl⟩

theorem contacts_hear (n : Node) (peer : NodeId) (m : ClusterMessage) :
    SameContacts n (n.hear peer m) := by
  cases m with
  | status s =>
    unfold hear
    dsimp only
    split
    · exact ⟨fun p => SortedMap.contains_modify .., fun p => Roster.isConnected_hear ..⟩
    · exact .of_roster rfl
  | _ => exact .of_roster rfl

theorem contacts_handle (n : Node) (q : ClientRequest) : SameContacts n (n.handle q).2 := by
  cases q with
  | createForTask task =>
    refine .of_roster ?_
    show (n.dispatchTask task).2.roster = _
    unfold dispatchTask
    split
    · split <;> rfl
    · rfl
  | _ => exact .of_roster rfl

/-- Only the links tell a node which peers are connected. -/
theorem contacts_perform (n : Node) {e : Errand} (other : e.notice? = none) :
    SameContacts n (n.perform e).2 := by
  cases e with
  | notice event => cases other
  | hear peer m => exact contacts_hear n peer m
  | follow peer u =>
    refine .of_roster ?_
    show (n.follow peer u).roster = _
    unfold follow
    split <;> rfl
  | serve origin p q => exact .of_roster rfl
  | handle q => exact contacts_handle n q

theorem contains_notice (n : Node) (e : LinkEvent) (p : NodeId) :
    (n.notice e).roster.peers.contains p = n.roster.peers.contains p := by
  cases e with
  | peerConnected peer =>
    show (n.peerConnected peer).roster.peers.contains p = _
    rw [roster_peerConnected]
    exact SortedMap.contains_modify ..
  | peerDisconnected peer =>
    show (n.peerDisconnected peer).roster.peers.contains p = _
    rw [roster_peerDisconnected]
    exact SortedMap.contains_modify ..
  | workerConnected w => rfl
  | workerDisconnected w => rfl

/-- A configured peer is connected if the node has been told so. -/
theorem isConnected_notice (n : Node) (e : LinkEvent) {p : NodeId}
    (configured : n.roster.peers.contains p = true) :
    (n.notice e).roster.isConnected p =
      if e.origin = .peer p then e.isUp else n.roster.isConnected p := by
  cases e with
  | peerConnected peer =>
    show (n.peerConnected peer).roster.isConnected p = _
    rw [roster_peerConnected, Roster.isConnected_connect, configured]
    simp only [LinkEvent.origin, LinkEvent.isUp, Origin.peer.injEq, eq_comm]
  | peerDisconnected peer =>
    show (n.peerDisconnected peer).roster.isConnected p = _
    rw [roster_peerDisconnected, Roster.isConnected_disconnect]
    by_cases same : p = peer
    · simp [LinkEvent.origin, LinkEvent.isUp, same]
    · simp [LinkEvent.origin, same, Ne.symm same]
  | workerConnected w => rfl
  | workerDisconnected w => rfl

end Node

/-! ### The system -/

/-- The links of a node, and the loop of the node that follows them. -/
structure Mirror where
  table : LinkTable
  /-- What has happened to the links and has not been announced. -/
  untold : List LinkEvent := []
  /-- What has been announced and has not been taken. -/
  backlog : Backlog := {}
  loop : Loop Node Errand
  /-- All that has happened to the links, in order. -/
  happened : List LinkEvent := []
  /-- All that has been announced, in order. -/
  announced : List LinkEvent := []
  /-- All that has been taken, in order. -/
  taken : List LinkEvent := []

namespace Mirror

/-- Something that may happen. -/
inductive Move
  /-- The table of links changes. -/
  | change (m : LinkTable.Move)
  /-- One of the changes is announced. -/
  | announce (i : ℕ)
  /-- The pump takes the announcement that has waited longest, and submits it to the loop. -/
  | take
  /-- Something else is submitted to the loop. -/
  | submit (e : Errand)
  /-- The loop does the errand that has waited longest. -/
  | work
  /-- The loop looks after the node. -/
  | upkeep (second : Bool)

/-- The node does not close all its links, and only the pump tells it of them. -/
def Move.Allowed : Move → Prop
  | .change m => m ≠ .closeAll
  | .submit e => e.notice? = none
  | _ => True

/-- Let it happen. -/
def make (s : Mirror) : Move → Mirror
  | .change m =>
    let (effect, table) := s.table.perform m
    { s with
      table
      untold := s.untold ++ effect.event.toList
      happened := s.happened ++ effect.event.toList }
  | .announce i =>
    match s.untold[i]? with
    | none => s
    | some e => { s with
        untold := s.untold.eraseIdx i
        backlog := s.backlog.push e
        announced := s.announced ++ [e] }
  | .take =>
    match s.backlog.pop? with
    | none => s
    | some (e, backlog) => { s with
        backlog
        loop := s.loop.submit (.plain (.notice e))
        taken := s.taken ++ [e] }
  | .submit e => { s with loop := s.loop.submit (.plain e) }
  | .work =>
    match s.loop.queue with
    | [] => s
    | .item e submits :: rest => { s with
        loop := { s.loop with state := (s.loop.state.perform e).2, queue := rest ++ submits } }
  | .upkeep second =>
    { s with loop := { s.loop with state := s.loop.state.upkeep second } }

/-- Let things happen one after the other. -/
def run (s : Mirror) (moves : List Move) : Mirror := moves.foldl make s

/-- The node has no links and believes in none. -/
structure Start (s : Mirror) : Prop where
  untouched : s = { table := { home := s.table.home }, loop := s.loop }
  alone : ∀ p, s.loop.state.roster.isConnected p = false
  queue : s.loop.queue = []

/-- Everything has been announced, taken and done. -/
structure Quiet (s : Mirror) : Prop where
  untold : s.untold = []
  backlog : s.backlog.events = []
  queue : s.loop.queue = []

/-- The node believes in a link to a peer exactly if there is one. -/
def Mirrors (s : Mirror) (p : NodeId) : Prop :=
  s.loop.state.roster.isConnected p = s.table.isLinked p

/-- What always holds. -/
structure Sound (s : Mirror) : Prop where
  table : s.table.Sound
  exact : ∀ o, LinkTable.Exact (s.happened.filter (·.origin = o)) (s.table.link? o).isSome
  /-- Every change is announced once. -/
  announced : (s.announced ++ s.untold).Perm s.happened
  /-- Announcements may be lost, but do not overtake one another any more. -/
  taken : (s.taken ++ s.backlog.events).Sublist s.announced
  room : s.backlog.events.length ≤ Backlog.capacity
  /-- The node believes what it has been told last. -/
  believes : ∃ (done : List LinkEvent) (errands : List Errand),
    s.taken = done ++ errands.filterMap Errand.notice? ∧ s.loop.queue = errands.map .plain ∧
    ∀ p, s.loop.state.roster.peers.contains p = true →
      s.loop.state.roster.isConnected p = lastUp done (.peer p)

variable {s : Mirror}

/-- A node that is started has no links and believes in none. -/
theorem start_of_new {c : Config} {store : Store} {probe : Probe} {host : Host} {n : Node}
    (new : Node.new c store probe host = .ok n) (home : NodeId) (ticksPerSecond : ℕ) :
    Start { table := { home }, loop := { state := n, ticksPerSecond } } where
  untouched := rfl
  alone p := by
    obtain ⟨-, status, -, roster⟩ := Node.new_parts new
    show n.roster.isConnected p = false
    rw [roster]
    exact Roster.isConnected_new c.identity c.cluster.nodes p
  queue := rfl

theorem Start.sound (h : s.Start) : s.Sound := by
  rw [h.untouched]
  refine ⟨LinkTable.sound_new _, fun o => ?_, .refl _, .refl _, Nat.zero_le _, [], [], rfl,
    h.queue, ?_⟩
  · cases o <;> exact .nil
  · exact fun p _ => h.alone p

theorem Sound.change (h : s.Sound) {m : LinkTable.Move} (running : m ≠ .closeAll) :
    (s.make (.change m)).Sound := by
  obtain ⟨o, change, sound⟩ := h.table.perform running
  refine ⟨sound, fun p => ?_, ?_, h.taken, h.room, h.believes⟩
  · show LinkTable.Exact ((s.happened ++ _).filter _) _
    rw [List.filter_append]
    exact (h.exact p).change change
  · show (s.announced ++ (s.untold ++ _)).Perm (s.happened ++ _)
    rw [← List.append_assoc]
    exact h.announced.append_right _

theorem Sound.announce (h : s.Sound) (i : ℕ) : (s.make (.announce i)).Sound := by
  unfold make
  dsimp only
  split
  · exact h
  · next e found =>
    obtain ⟨short, rfl⟩ := List.getElem?_eq_some_iff.1 found
    refine ⟨h.table, h.exact, ?_, ?_, s.backlog.length_push _, h.believes⟩
    · show (s.announced ++ [s.untold[i]] ++ s.untold.eraseIdx i).Perm s.happened
      rw [List.append_assoc]
      exact ((List.getElem_cons_eraseIdx_perm short).append_left _).trans h.announced
    · have kept := (s.backlog.push_sublist s.untold[i]).append_left s.taken
      rw [← List.append_assoc] at kept
      exact kept.trans (h.taken.append_right _)

theorem Sound.take (h : s.Sound) : (s.make .take).Sound := by
  unfold make
  dsimp only
  split
  · exact h
  · next e backlog popped =>
    obtain ⟨done, errands, taken, queue, believes⟩ := h.believes
    unfold Backlog.pop? at popped
    split at popped
    · cases popped
    · next rest events =>
      cases popped
      refine ⟨h.table, h.exact, h.announced, ?_, ?_, done, errands ++ [.notice e], ?_, ?_,
        believes⟩
      · have := h.taken
        rw [events] at this
        simpa using this
      · have := h.room
        rw [events] at this
        exact (Nat.le_succ _).trans this
      · rw [taken]
        simp [Errand.notice?]
      · simp [Loop.submit, queue]

theorem Sound.submit (h : s.Sound) {e : Errand} (other : e.notice? = none) :
    (s.make (.submit e)).Sound := by
  obtain ⟨done, errands, taken, queue, believes⟩ := h.believes
  refine ⟨h.table, h.exact, h.announced, h.taken, h.room, done, errands ++ [e], ?_, ?_, believes⟩
  · show s.taken = _
    rw [taken]
    simp [other]
  · simp [make, Loop.submit, queue]

theorem Sound.work (h : s.Sound) : (s.make .work).Sound := by
  obtain ⟨done, errands, taken, queue, believes⟩ := h.believes
  cases errands with
  | nil =>
    unfold make
    rw [queue]
    exact h
  | cons e errands =>
    unfold make
    rw [queue]
    cases told : e.notice? with
    | none =>
      have same := s.loop.state.contacts_perform told
      refine ⟨h.table, h.exact, h.announced, h.taken, h.room, done, errands, ?_, ?_,
        fun p known => ?_⟩
      · show s.taken = _
        simpa [told] using taken
      · exact List.append_nil _
      · exact (same.connected p).trans (believes p ((same.configured p).symm.trans known))
    | some event =>
      obtain rfl : e = .notice event := by
        cases e <;> cases told
        rfl
      refine ⟨h.table, h.exact, h.announced, h.taken, h.room, done ++ [event], errands, ?_, ?_, ?_⟩
      · show s.taken = _
        simpa [told] using taken
      · exact List.append_nil _
      · intro p known
        replace known : s.loop.state.roster.peers.contains p = true :=
          (s.loop.state.contains_notice event p).symm.trans known
        show (s.loop.state.notice event).roster.isConnected p = _
        rw [Node.isConnected_notice _ event known, lastUp_concat, believes p known]

theorem Sound.upkeep (h : s.Sound) (second : Bool) : (s.make (.upkeep second)).Sound := by
  obtain ⟨done, errands, taken, queue, believes⟩ := h.believes
  have same := s.loop.state.contacts_upkeep second
  refine ⟨h.table, h.exact, h.announced, h.taken, h.room, done, errands, taken, queue,
    fun p known => ?_⟩
  exact (same.connected p).trans (believes p ((same.configured p).symm.trans known))

/-- **One move.** -/
theorem Sound.make (h : s.Sound) {m : Move} (allowed : m.Allowed) : (s.make m).Sound := by
  cases m with
  | change m => exact h.change allowed
  | announce i => exact h.announce i
  | take => exact h.take
  | submit e => exact h.submit allowed
  | work => exact h.work
  | upkeep second => exact h.upkeep second

theorem Sound.run (h : s.Sound) {moves : List Move} (allowed : ∀ m ∈ moves, m.Allowed) :
    (s.run moves).Sound := by
  induction moves generalizing s with
  | nil => exact h
  | cons m moves ih =>
    obtain ⟨first, rest⟩ := List.forall_mem_cons.1 allowed
    exact ih (h.make first) rest

/-! ### Bursts -/

/-- Announcements in the order of the changes come to the backlog one after the other. -/
theorem backlog_announcing (s : Mirror) (n : ℕ) :
    (s.run (List.replicate n (.announce 0))).backlog =
      (s.untold.take n).foldl Backlog.push s.backlog := by
  induction n generalizing s with
  | zero => rfl
  | succ n ih =>
    refine (ih (s.make (.announce 0))).trans ?_
    cases untold : s.untold with
    | nil => simp [make, untold]
    | cons e rest => simp [make, untold]

/-- **A burst drives out all that has waited**: if so many changes and more are announced before the
pump takes any of them, the last ones are all that is left to be taken. -/
theorem Sound.burst (h : s.Sound) {n : ℕ} (long : Backlog.capacity ≤ n)
    (enough : n ≤ s.untold.length) :
    (s.run (List.replicate n (.announce 0))).backlog.events =
      (s.untold.take n).drop (n - Backlog.capacity) := by
  have number : (s.backlog.events ++ s.untold.take n).length - Backlog.capacity =
      s.backlog.events.length + (n - Backlog.capacity) := by
    rw [List.length_append, List.length_take_of_le enough, Nat.add_sub_assoc long]
  rw [backlog_announcing, Backlog.foldl_push h.room, number, List.drop_length_add_append]

/-! ### When everything has been followed -/

/-- There is a link exactly if the last change was of that kind. -/
theorem Sound.isLinked_eq (h : s.Sound) (p : NodeId) :
    s.table.isLinked p = lastUp s.happened (.peer p) := (h.exact (.peer p)).last.symm

/-- The node believes the last that has been taken. -/
theorem Sound.isConnected_eq (h : s.Sound) (quiet : s.Quiet) {p : NodeId}
    (configured : s.loop.state.roster.peers.contains p = true) :
    s.loop.state.roster.isConnected p = lastUp s.taken (.peer p) := by
  obtain ⟨done, errands, taken, queue, believes⟩ := h.believes
  obtain rfl : errands = [] := List.map_eq_nil_iff.1 (queue.symm.trans quiet.queue)
  rw [believes p configured, taken]
  simp

/-- **What a node believes of its links**, when everything has been followed: every change has been
announced once, and what has been taken is a part of what has been announced. The node believes in a
link to a configured peer exactly if the last that has been taken about the peer says so, and there
is one exactly if the last change was of that kind. So the node is right exactly if both say the
same, which they do if nothing about the peer has been lost or overtaken. -/
theorem mirrors_iff (start : s.Start) {moves : List Move} (allowed : ∀ m ∈ moves, m.Allowed)
    (quiet : (s.run moves).Quiet) :
    let t := s.run moves
    t.announced.Perm t.happened ∧ t.taken.Sublist t.announced ∧
      ∀ p, t.loop.state.roster.peers.contains p = true →
        t.loop.state.roster.isConnected p = lastUp t.taken (.peer p) ∧
        t.table.isLinked p = lastUp t.happened (.peer p) ∧
        (t.Mirrors p ↔ lastUp t.taken (.peer p) = lastUp t.happened (.peer p)) ∧
        (t.taken.filter (·.origin = .peer p) = t.happened.filter (·.origin = .peer p) →
          t.Mirrors p) := by
  intro t
  have sound : t.Sound := start.sound.run allowed
  have announced := sound.announced
  rw [quiet.untold, List.append_nil] at announced
  have taken := sound.taken
  rw [quiet.backlog, List.append_nil] at taken
  refine ⟨announced, taken, fun p configured => ?_⟩
  have believed := sound.isConnected_eq quiet configured
  have linked := sound.isLinked_eq p
  have iff : t.Mirrors p ↔ lastUp t.taken (.peer p) = lastUp t.happened (.peer p) := by
    rw [Mirrors, believed, linked]
  refine ⟨believed, linked, iff, fun same => iff.2 ?_⟩
  unfold lastUp
  rw [same]

/-! ### Small runs -/

/-- A node with one peer and no links. -/
def atRest : Mirror :=
  { table := { home := "node-1" }, loop := { state := Node.newcomer, ticksPerSecond := 1 } }

theorem start_atRest : atRest.Start := start_of_new Node.new_newcomer "node-1" 1

/-- The peer connects, another connection takes the place of the first one, both come to their ends,
and the peer connects again. Every change is announced before the next one. -/
def steady : List Move :=
  [.change (.attachPeer "node-2" true), .announce 0, .take, .work,
    .change (.attachPeer "node-2" false), .change (.finish 1 (.peer "node-2")), .take,
    .upkeep true, .change (.finish 2 (.peer "node-2")), .announce 0,
    .submit (.handle .statuses), .change (.attachPeer "node-2" false), .announce 0, .take, .take,
    .work, .work, .work]

theorem steady_mirrored : atRest.Start ∧ (∀ m ∈ steady, m.Allowed) ∧ (atRest.run steady).Quiet ∧
    (atRest.run steady).loop.state.roster.peers.contains "node-2" = true ∧
    (atRest.run steady).table.isLinked "node-2" = true ∧
    (atRest.run steady).Mirrors "node-2" := by
  have allowed : ∀ m ∈ steady, m.Allowed := by
    simp [steady, Move.Allowed, Errand.notice?]
  have quiet : (atRest.run steady).Quiet := ⟨by decide +kernel, by decide +kernel, rfl⟩
  have configured : (atRest.run steady).loop.state.roster.peers.contains "node-2" = true := by
    decide +kernel
  obtain ⟨-, -, believes⟩ := mirrors_iff start_atRest allowed quiet
  obtain ⟨-, -, -, inOrder⟩ := believes "node-2" configured
  exact ⟨start_atRest, allowed, quiet, configured, by decide +kernel, inOrder (by decide +kernel)⟩

/-- A connection comes to its end before it is announced that it has come up. -/
def hasty : List Move :=
  [.change (.attachPeer "node-2" false), .change (.finish 1 (.peer "node-2")), .announce 1,
    .announce 0, .take, .take, .work, .work]

/-- **An announcement that is overtaken leaves a peer connected that has no link.** -/
theorem hasty_not_mirrored : atRest.Start ∧ (∀ m ∈ hasty, m.Allowed) ∧
    (atRest.run hasty).Quiet ∧
    (atRest.run hasty).loop.state.roster.peers.contains "node-2" = true ∧
    (atRest.run hasty).loop.state.roster.isConnected "node-2" = true ∧
    (atRest.run hasty).table.isLinked "node-2" = false := by
  have allowed : ∀ m ∈ hasty, m.Allowed := by
    simp [hasty, Move.Allowed]
  exact ⟨start_atRest, allowed, ⟨by decide +kernel, by decide +kernel, rfl⟩, by decide +kernel,
    by decide +kernel, by decide +kernel⟩

end Mirror

end WorkerCluster
