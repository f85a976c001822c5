import WorkerCluster.Node.Loop
import WorkerCluster.Proofs.Replica

/-!
# Two nodes that share a state

* `Node.Acts` says what a node makes of its replica and what it says to another node: one lemma for
  a client that changes something, for a peer that is connected and for a message that is heard.
* `Pair` is two nodes that are peers of one another, and the messages on their way. `Pair.Move` is
  what may happen: a client changes the state at one of them, one of them is told that it is
  connected, a message arrives.
* `Pair.eventual` is what a node will hold of a part when all that is on its way has arrived. Only
  pushes change it (`make_eventual`, `make_pushes`).
* `agrees_of_quiet` is the main statement: it depends on the last push, and on what was on its way
  towards it, whether both nodes hold the same in the end. `crossing` is a run in which they do not.
-/

namespace WorkerCluster

/-- The change as a client asks for it. -/
def Replica.Change.request : Replica.Change → ClientRequest
  | .addTask t => .addTask t
  | .removeTask name => .removeTask name
  | .addGroup g => .addGroup g
  | .removeGroup name => .removeGroup name
  | .setPermissions p => .setPermissions p
  | .putDocument dataset key document => .putDocument dataset key document
  | .removeDocument dataset key => .removeDocument dataset key

/-- What a letter tells a node about the cluster. -/
def Letter.messageFor (node : NodeId) : Letter → Option ClusterMessage
  | .cluster .all m | .cluster .peers m => some m
  | .cluster (.node n) m => if n = node then some m else none
  | .worker _ => none

/-! ### What a node does to its replica -/

/-- A node goes over to a replica and says something to another node. It stays who it is, and its
peers stay the same. -/
structure Node.Acts (node : NodeId) (n t : Node) (r : Replica) (said : List ClusterMessage) :
    Prop where
  replica : t.replica = { r with outbox := [] }
  said : t.outbox.filterMap (·.messageFor node) = said
  home : t.roster.home = n.roster.home
  peers : ∀ id, t.roster.peers.contains id = n.roster.peers.contains id

/-- A node that has nothing to send. -/
structure Node.Idle (n : Node) : Prop where
  outbox : n.outbox = []
  replica : n.replica.outbox = []

namespace Node

variable {n : Node} {node : NodeId}

theorem Idle.replica_eq (h : n.Idle) : { n.replica with outbox := [] } = n.replica := by
  rw [← h.replica]

theorem Acts.silent (h : n.Idle) : Acts node n n n.replica [] where
  replica := h.replica_eq.symm
  said := by rw [h.outbox]; rfl
  home := rfl
  peers _ := rfl

theorem handle_request (n : Node) (c : Replica.Change) :
    (n.handle c.request).2 = (n.onReplica fun r => ((), r.change c)).2 := by cases c <;> rfl

theorem acts_onReplica {α : Type} (node : NodeId) (act : Replica → α × Replica) (h : n.Idle) :
    Acts node n (n.onReplica act).2 (act n.replica).2 (act n.replica).2.outbox where
  replica := rfl
  said := by
    show (n.outbox ++ (act n.replica).2.outbox.map (Letter.cluster .all)).filterMap _ = _
    rw [h.outbox, List.nil_append, List.filterMap_map]
    exact List.filterMap_some
  home := rfl
  peers _ := rfl

/-- A change does nothing, or the node says what it holds now. -/
theorem acts_change (h : n.Idle) (sound : n.replica.Sound) (c : Replica.Change) :
    (Acts node n (n.handle c.request).2 n.replica [] ∧ (n.replica.change c).outbox = []) ∨
      ∃ r, Replica.Differs c.collection n.replica r ∧
        Acts node n (n.handle c.request).2 r [r.message c.collection] ∧
          (n.replica.change c).outbox ≠ [] := by
  rw [handle_request]
  have acts := acts_onReplica node (fun r => ((), r.change c)) h
  dsimp only at acts
  rcases Replica.announced_change sound c with hc | ⟨r, differs, hc⟩
  · rw [hc, h.replica] at acts
    exact .inl ⟨acts, by rw [hc, h.replica]⟩
  · have outbox : (n.replica.change c).outbox = [r.message c.collection] := by
      rw [hc]
      show r.outbox ++ _ = _
      rw [differs.outbox, h.replica]
      rfl
    rw [outbox] at acts ⊢
    refine .inr ⟨r, differs, ⟨acts.replica.trans ?_, acts.said, acts.home, acts.peers⟩,
      List.cons_ne_nil _ _⟩
    rw [hc]
    rfl

/-- A node that is connected tells all that it holds. -/
theorem acts_peerConnected (h : n.Idle) (known : n.roster.peers.contains node = true) :
    Acts node n (n.peerConnected node) n.replica n.introduction := by
  have connected : n.peerConnected node =
      { n with
        roster := (n.roster.connect node).2
        outbox := n.outbox ++ n.introduction.map (Letter.cluster (.node node)) } := by
    unfold peerConnected
    exact if_pos known
  rw [connected]
  refine ⟨h.replica_eq.symm, ?_, rfl, fun id => SortedMap.contains_modify ..⟩
  show (n.outbox ++ n.introduction.map (Letter.cluster (.node node))).filterMap _ = _
  rw [h.outbox, List.nil_append, List.filterMap_map]
  refine (List.filterMap_congr fun m _ => ?_).trans List.filterMap_some
  exact if_pos rfl

/-- What a node hears changes its replica, and the node says nothing. -/
theorem acts_hear (h : n.Idle) (peer : NodeId) (m : ClusterMessage) :
    Acts node n (n.hear peer m) (n.replica.apply m).2 [] := by
  have others : Acts node n (n.onReplica (·.apply m)).2 (n.replica.apply m).2 [] := by
    have acts := acts_onReplica node (·.apply m) h
    rwa [Replica.apply_outbox, h.replica] at acts
  cases m with
  | status s =>
    unfold hear
    dsimp only
    split
    · exact ⟨h.replica_eq.symm, by rw [h.outbox]; rfl, rfl, fun id => SortedMap.contains_modify ..⟩
    · exact .silent h
  | workers l =>
    refine ⟨h.replica_eq.symm, ?_, rfl, fun _ => rfl⟩
    show (n.outbox ++ _).filterMap _ = _
    rw [h.outbox, List.nil_append, List.filterMap_map]
    exact List.filterMap_eq_nil_iff.2 fun _ _ => rfl
  | tasks l => exact others
  | groups l => exact others
  | permissions p => exact others
  | datasets d => exact others

end Node

/-! ### Pairs -/

/-- One of two nodes. -/
inductive Side
  | left
  | right
  deriving DecidableEq

/-- The other one. -/
def Side.other : Side → Side
  | .left => .right
  | .right => .left

namespace Side

theorem other_ne (p : Side) : p.other ≠ p := by cases p <;> decide

theorem eq_or (p q : Side) : q = p ∨ q = p.other := by cases p <;> cases q <;> decide

end Side

/-- Two nodes and the messages between them. -/
structure Pair where
  node : Side → Node
  /-- The messages on their way to a node, in order. -/
  flight : Side → List ClusterMessage

namespace Pair

/-- The id of a node. -/
def id (s : Pair) (p : Side) : NodeId := (s.node p).identity.id

/-- Let a node act. What it has to say to the other one goes on its way. -/
def act (s : Pair) (p : Side) (f : Node → Node) : Pair where
  node := Function.update s.node p { f (s.node p) with outbox := [] }
  flight := Function.update s.flight p.other
    (s.flight p.other ++ (f (s.node p)).outbox.filterMap (·.messageFor (s.id p.other)))

/-- Something that may happen. -/
inductive Move
  /-- A client makes a change at a node. -/
  | change (p : Side) (c : Replica.Change)
  /-- A node is told that it is connected to the other one. -/
  | connect (p : Side)
  /-- The next message arrives at a node, if there is one. -/
  | deliver (p : Side)

/-- Let it happen. -/
def make (s : Pair) : Move → Pair
  | .change p c => s.act p fun n => (n.handle c.request).2
  | .connect p => s.act p fun n => n.peerConnected (s.id p.other)
  | .deliver p =>
    match s.flight p with
    | m :: rest =>
      { s with flight := Function.update s.flight p rest }.act p fun n => n.hear (s.id p.other) m
    | [] => s

/-- Let things happen one after the other. -/
def run (s : Pair) (moves : List Move) : Pair := moves.foldl make s

/-- The node that moves. -/
def Move.side : Move → Side
  | .change p _ | .connect p | .deliver p => p

/-- The node that moves tells the other one about a part of the state: because it has changed it, or
because it tells all that it holds. -/
def Move.Pushes (k : Collection) (s : Pair) : Move → Prop
  | .change p c => c.collection = k ∧ ((s.node p).replica.change c).outbox ≠ []
  | .connect _ => True
  | .deliver _ => False

/-- The last message in a list about a part of the state. -/
def carried (k : Collection) (l : List ClusterMessage) : Option ClusterMessage :=
  (l.filter (·.collection? = some k)).getLast?

/-- The message of what a node holds. -/
def holds (s : Pair) (k : Collection) (p : Side) : ClusterMessage := (s.node p).replica.message k

/-- The message of what a node will hold when all that is on its way has arrived. -/
def eventual (s : Pair) (k : Collection) (p : Side) : ClusterMessage :=
  (carried k (s.flight p)).getD (s.holds k p)

/-- Both nodes are configured, nothing waits to be sent, and all that they hold and all that is on
its way is as it has to be. -/
structure Ready (s : Pair) : Prop where
  configured : ∀ p, (s.node p).roster.peers.contains (s.id p.other) = true
  idle : ∀ p, (s.node p).Idle
  sound : ∀ p, (s.node p).replica.Sound
  whole : ∀ p, ∀ m ∈ s.flight p, m.Whole

variable {s : Pair} {p : Side} {f : Node → Node} {k : Collection} {r : Replica}
  {said : List ClusterMessage}

/-! ### Lists of messages -/

theorem carried_append (k : Collection) (l l' : List ClusterMessage) :
    carried k (l ++ l') = (carried k l').or (carried k l) := by
  rw [carried, List.filter_append, List.getLast?_append]
  rfl

theorem carried_one {m : ClusterMessage} (h : m.collection? = some k) : carried k [m] = some m := by
  rw [carried, List.filter_cons_of_pos (by simpa using h)]
  rfl

theorem carried_none {l : List ClusterMessage} (h : ∀ m ∈ l, m.collection? ≠ some k) :
    carried k l = none := by
  rw [carried, List.filter_eq_nil_iff.2 (by simpa using h)]
  rfl

/-! ### Acting -/

theorem act_node_self : (s.act p f).node p = { f (s.node p) with outbox := [] } :=
  Function.update_self ..

theorem act_node_other : (s.act p f).node p.other = s.node p.other :=
  Function.update_of_ne p.other_ne ..

theorem act_flight_self : (s.act p f).flight p = s.flight p :=
  Function.update_of_ne p.other_ne.symm ..

/-- The node goes over to a replica and says something to the other one. -/
abbrev Acts (s : Pair) (p : Side) (f : Node → Node) (r : Replica) (said : List ClusterMessage) :
    Prop :=
  Node.Acts (s.id p.other) (s.node p) (f (s.node p)) r said

theorem act_flight_other (h : s.Acts p f r said) :
    (s.act p f).flight p.other = s.flight p.other ++ said := by
  rw [← h.said]
  exact Function.update_self ..

theorem act_replica (h : s.Acts p f r said) :
    ((s.act p f).node p).replica = { r with outbox := [] } := by
  rw [act_node_self, ← h.replica]

theorem message_collect (r : Replica) (k : Collection) :
    ({ r with outbox := [] } : Replica).message k = r.message k := by cases k <;> rfl

theorem act_holds_self (h : s.Acts p f r said) : (s.act p f).holds k p = r.message k := by
  rw [holds, act_replica h, message_collect]

theorem act_holds_other : (s.act p f).holds k p.other = s.holds k p.other := by
  rw [holds, act_node_other, holds]

theorem act_eventual_self (h : s.Acts p f r said) :
    (s.act p f).eventual k p = (carried k (s.flight p)).getD (r.message k) := by
  rw [eventual, act_flight_self, act_holds_self h]

theorem act_eventual_other (h : s.Acts p f r said) :
    (s.act p f).eventual k p.other = (carried k said).getD (s.eventual k p.other) := by
  rw [eventual, act_flight_other h, act_holds_other, carried_append, eventual]
  cases carried k said <;> rfl

theorem act_id (h : s.Acts p f r said) (q : Side) : (s.act p f).id q = s.id q := by
  rcases p.eq_or q with rfl | rfl
  · rw [id, act_node_self]
    exact congrArg NodeIdentity.id h.home
  · rw [id, act_node_other, id]

theorem Ready.act (ready : s.Ready) (h : s.Acts p f r said) (sound : r.Sound)
    (whole : ∀ m ∈ said, m.Whole) : (s.act p f).Ready where
  configured q := by
    rw [act_id h]
    rcases p.eq_or q with rfl | rfl
    · rw [act_node_self]
      exact (h.peers _).trans (ready.configured q)
    · rw [act_node_other]
      exact ready.configured _
  idle q := by
    rcases p.eq_or q with rfl | rfl
    · exact ⟨by rw [act_node_self], by rw [act_replica h]⟩
    · rw [act_node_other]
      exact ready.idle _
  sound q := by
    rcases p.eq_or q with rfl | rfl
    · rw [act_replica h]
      exact ⟨sound.tasks, sound.groups, sound.datasets⟩
    · rw [act_node_other]
      exact ready.sound _
  whole q m hm := by
    rcases p.eq_or q with rfl | rfl
    · rw [act_flight_self] at hm
      exact ready.whole _ m hm
    · rw [act_flight_other h] at hm
      exact (List.mem_append.1 hm).elim (ready.whole _ m) (whole m)

/-! ### Moves -/

theorem whole_message (sound : r.Sound) (k : Collection) : (r.message k).Whole := by
  intro l hl
  rw [Replica.collection?_message] at hl
  cases hl
  exact ⟨r, sound, rfl⟩

/-- A node that is connected tells its parts, and what is about none. -/
theorem mem_introduction {n : Node} {m : ClusterMessage} (hm : m ∈ n.introduction) :
    m.collection? = none ∨ ∃ k, m = n.replica.message k := by
  unfold Node.introduction at hm
  simp only [List.mem_append, List.mem_singleton] at hm
  rcases hm with (status | state) | rfl
  · left
    cases hc : n.roster.current with
    | none =>
      rw [hc] at status
      cases status
    | some current =>
      rw [hc] at status
      rw [List.mem_singleton.1 status]
      rfl
  · right
    simp only [Replica.fullState, List.mem_cons, List.not_mem_nil, or_false] at state
    rcases state with rfl | rfl | rfl | rfl
    · exact ⟨.tasks, rfl⟩
    · exact ⟨.groups, rfl⟩
    · exact ⟨.permissions, rfl⟩
    · exact ⟨.datasets, rfl⟩
  · exact .inl rfl

theorem whole_introduction {n : Node} (sound : n.replica.Sound) :
    ∀ m ∈ n.introduction, m.Whole := by
  intro m hm
  rcases mem_introduction hm with none | ⟨k, rfl⟩
  · intro k hk
    rw [none] at hk
    cases hk
  · exact whole_message sound k

theorem carried_introduction (n : Node) (k : Collection) :
    carried k n.introduction = some (n.replica.message k) := by
  unfold Node.introduction
  cases n.roster.current <;> cases k <;> rfl

/-- The state in which the first message has been taken off its way. -/
def taken (s : Pair) (p : Side) (rest : List ClusterMessage) : Pair :=
  { s with flight := Function.update s.flight p rest }

theorem taken_flight_self (rest : List ClusterMessage) : (s.taken p rest).flight p = rest :=
  Function.update_self ..

theorem taken_flight_other (rest : List ClusterMessage) :
    (s.taken p rest).flight p.other = s.flight p.other :=
  Function.update_of_ne p.other_ne ..

theorem make_deliver {m : ClusterMessage} {rest : List ClusterMessage}
    (next : s.flight p = m :: rest) :
    s.make (.deliver p) = (s.taken p rest).act p fun n => n.hear (s.id p.other) m := by
  rw [make, next]
  rfl

theorem Ready.taken (ready : s.Ready) {m : ClusterMessage} {rest : List ClusterMessage}
    (next : s.flight p = m :: rest) : (s.taken p rest).Ready where
  configured := ready.configured
  idle := ready.idle
  sound := ready.sound
  whole q n hn := by
    rcases p.eq_or q with rfl | rfl
    · rw [taken_flight_self] at hn
      exact ready.whole q n (by rw [next]; exact List.mem_cons_of_mem _ hn)
    · rw [taken_flight_other] at hn
      exact ready.whole _ n hn

/-- A message that arrives is what was to be expected. -/
theorem carried_apply (sound : r.Sound) {m : ClusterMessage} (whole : m.Whole) (k : Collection)
    (rest : List ClusterMessage) :
    (carried k rest).getD ((r.apply m).2.message k) =
      (carried k (m :: rest)).getD (r.message k) := by
  rw [← List.singleton_append, carried_append]
  rcases Replica.apply_cases sound whole with ⟨none, same⟩ | ⟨l, part, differs, held⟩
  · rw [same, carried_none (l := [m]) (by simp [none]), Option.or_none]
  · -- what arrives counts only if nothing about the same part comes after it
    by_cases e : l = k
    · subst e
      rw [held, carried_one part]
      cases carried l rest <;> rfl
    · rw [differs.others k (Ne.symm e), carried_none (l := [m]) (by simp [part, e]),
        Option.or_none]

theorem deliver_eventual (ready : s.Ready) {m : ClusterMessage} {rest : List ClusterMessage}
    (next : s.flight p = m :: rest) :
    (s.make (.deliver p)).Ready ∧
      ∀ q, (s.make (.deliver p)).eventual k q = s.eventual k q := by
  have acts : (s.taken p rest).Acts p (fun n => n.hear (s.id p.other) m)
      ((s.node p).replica.apply m).2 [] := Node.acts_hear (ready.idle p) _ m
  have whole : m.Whole := ready.whole p m (by rw [next]; exact List.mem_cons_self ..)
  rw [make_deliver next]
  refine ⟨(ready.taken next).act acts ((ready.sound p).apply m) (by simp), ?_⟩
  intro q
  rcases p.eq_or q with rfl | rfl
  · rw [act_eventual_self acts, taken_flight_self, eventual, next]
    exact carried_apply (ready.sound q) whole k rest
  · rw [act_eventual_other acts, eventual, taken_flight_other]
    rfl

theorem acts_change (ready : s.Ready) (p : Side) (c : Replica.Change) :
    (s.Acts p (fun n => (n.handle c.request).2) (s.node p).replica [] ∧
        ((s.node p).replica.change c).outbox = []) ∨
      ∃ r, Replica.Differs c.collection (s.node p).replica r ∧
        s.Acts p (fun n => (n.handle c.request).2) r [r.message c.collection] ∧
          ((s.node p).replica.change c).outbox ≠ [] :=
  Node.acts_change (ready.idle p) (ready.sound p) c

/-- A part of the state about which nothing is said stays what it will be. -/
theorem act_eventual (acts : s.Acts p f r said) (same : r.message k = s.holds k p)
    (silent : carried k said = none) (q : Side) : (s.act p f).eventual k q = s.eventual k q := by
  rcases p.eq_or q with rfl | rfl
  · rw [act_eventual_self acts, same, eventual]
  · rw [act_eventual_other acts, silent]
    rfl

/-- A part of the state that is told is what the other node will hold. -/
theorem act_told (acts : s.Acts p f r said) (told : carried k said = some (r.message k)) :
    (s.act p f).eventual k p.other = (s.act p f).holds k p ∧
      (s.act p f).flight p = s.flight p := by
  refine ⟨?_, act_flight_self⟩
  rw [act_eventual_other acts, act_holds_self acts, told]
  rfl

/-- **Nothing but a push changes what the nodes will hold.** -/
theorem make_eventual (ready : s.Ready) {m : Move} (quiet : ¬ m.Pushes k s) :
    (s.make m).Ready ∧ ∀ q, (s.make m).eventual k q = s.eventual k q := by
  cases m with
  | change p c =>
    obtain ⟨acts, -⟩ | ⟨r, differs, acts, told⟩ := acts_change ready p c
    · exact ⟨ready.act acts (ready.sound p) (by simp), act_eventual acts rfl rfl⟩
    · have other : k ≠ c.collection := fun e => quiet ⟨e.symm, told⟩
      constructor
      · exact ready.act acts differs.sound fun m hm =>
          List.mem_singleton.1 hm ▸ whole_message differs.sound _
      · refine act_eventual acts (differs.others k other) (carried_none ?_)
        simpa using other.symm
  | connect p => exact absurd trivial quiet
  | deliver p =>
    cases next : s.flight p with
    | nil =>
      rw [make, next]
      exact ⟨ready, fun _ => rfl⟩
    | cons m rest => exact deliver_eventual ready next

/-- **A push tells the other node what the one holds.** -/
theorem make_pushes (ready : s.Ready) {m : Move} (pushes : m.Pushes k s) :
    (s.make m).Ready ∧
      (s.make m).eventual k m.side.other = (s.make m).holds k m.side ∧
      (s.make m).flight m.side = s.flight m.side := by
  cases m with
  | change p c =>
    obtain ⟨rfl, told⟩ := pushes
    obtain ⟨-, quiet⟩ | ⟨r, differs, acts, -⟩ := acts_change ready p c
    · exact absurd quiet told
    · constructor
      · exact ready.act acts differs.sound fun m hm =>
          List.mem_singleton.1 hm ▸ whole_message differs.sound _
      · exact act_told acts (carried_one (Replica.collection?_message r _))
  | connect p =>
    have acts : s.Acts p (fun n => n.peerConnected (s.id p.other)) (s.node p).replica
        (s.node p).introduction := Node.acts_peerConnected (ready.idle p) (ready.configured p)
    exact ⟨ready.act acts (ready.sound p) (whole_introduction (ready.sound p)),
      act_told acts (carried_introduction ..)⟩
  | deliver p => exact pushes.elim

/-! ### Runs -/

theorem run_append (s : Pair) (k l : List Move) : s.run (k ++ l) = (s.run k).run l :=
  List.foldl_append

theorem run_cons (s : Pair) (m : Move) (l : List Move) : s.run (m :: l) = (s.make m).run l := rfl

/-- Both nodes hold the same if the messages of what they hold are the same. -/
theorem agrees_iff (ready : s.Ready) (k : Collection) (p : Side) :
    (s.node .left).replica.Agrees (s.node .right).replica k ↔ s.holds k p = s.holds k p.other := by
  rw [← Replica.message_eq_iff (ready.sound .left) (ready.sound .right)]
  cases p with
  | left => rfl
  | right => exact eq_comm

theorem make_ready (ready : s.Ready) (m : Move) : (s.make m).Ready := by
  by_cases pushes : m.Pushes .tasks s
  · exact (make_pushes ready pushes).1
  · exact (make_eventual ready pushes).1

theorem run_ready (ready : s.Ready) (moves : List Move) : (s.run moves).Ready := by
  induction moves generalizing s with
  | nil => exact ready
  | cons m moves ih => exact ih (make_ready ready m)

/-- No move pushes a part of the state. -/
def Silent (k : Collection) : Pair → List Move → Prop
  | _, [] => True
  | s, m :: rest => ¬ m.Pushes k s ∧ Silent k (s.make m) rest

/-- As long as nothing is pushed, the nodes will hold what they were to hold. -/
theorem run_eventual (ready : s.Ready) {moves : List Move} (silent : Silent k s moves) (q : Side) :
    (s.run moves).eventual k q = s.eventual k q := by
  induction moves generalizing s with
  | nil => rfl
  | cons m moves ih =>
    obtain ⟨ready', same⟩ := make_eventual ready silent.1
    exact (ih ready' silent.2).trans (same q)

/-- A run in which something is pushed has a last push. -/
theorem exists_last_push {moves : List Move} (pushed : ¬ Silent k s moves) :
    ∃ before m after, moves = before ++ m :: after ∧ m.Pushes k (s.run before) ∧
      Silent k ((s.run before).make m) after := by
  induction moves generalizing s with
  | nil => exact absurd trivial pushed
  | cons m moves ih =>
    by_cases silent : Silent k (s.make m) moves
    · refine ⟨[], m, moves, rfl, ?_, silent⟩
      by_contra h
      exact pushed ⟨h, silent⟩
    · obtain ⟨before, l, after, rfl, pushes, last⟩ := ih silent
      exact ⟨m :: before, l, after, rfl, pushes, last⟩

theorem not_silent {moves : List Move} (connected : Move.connect p ∈ moves) :
    ¬ Silent k s moves := by
  induction moves generalizing s with
  | nil => cases connected
  | cons m moves ih =>
    rintro ⟨quiet, silent⟩
    rcases List.mem_cons.1 connected with rfl | connected
    · exact quiet trivial
    · exact ih connected silent

/-- **The last push decides.** When all has arrived, the other node holds what was pushed last; the
one that pushed it holds what the last message that was on its way towards it carried, if there was
one. So they hold the same exactly if there was none, or it carried the same. -/
theorem agrees_of_quiet (ready : s.Ready) (moves : List Move) (connected : .connect p ∈ moves)
    (quiet : ∀ q, (s.run moves).flight q = []) (k : Collection) :
    ∃ before m after, moves = before ++ m :: after ∧ m.Pushes k (s.run before) ∧
      Silent k ((s.run before).make m) after ∧
      (s.run moves).holds k m.side.other = ((s.run before).make m).holds k m.side ∧
      (s.run moves).holds k m.side =
        (carried k ((s.run before).flight m.side)).getD (((s.run before).make m).holds k m.side) ∧
      (((s.run moves).node .left).replica.Agrees ((s.run moves).node .right).replica k ↔
        ∀ l, carried k ((s.run before).flight m.side) = some l →
          l = ((s.run before).make m).holds k m.side) := by
  obtain ⟨before, m, after, rfl, pushes, silent⟩ := exists_last_push (not_silent connected)
  obtain ⟨ready', told, flight⟩ := make_pushes (run_ready ready before) pushes
  -- nothing after the last push changes what is held in the end
  have final (q : Side) : (s.run (before ++ m :: after)).holds k q =
      ((s.run before).make m).eventual k q := by
    rw [run_append, run_cons] at quiet ⊢
    rw [← run_eventual ready' silent q, eventual, quiet]
    rfl
  have other := (final m.side.other).trans told
  have self : (s.run (before ++ m :: after)).holds k m.side =
      (carried k ((s.run before).flight m.side)).getD (((s.run before).make m).holds k m.side) := by
    rw [final, eventual, flight]
  refine ⟨before, m, after, rfl, pushes, silent, other, self, ?_⟩
  rw [agrees_iff (run_ready ready _) k m.side, other, self]
  cases carried k ((s.run before).flight m.side) <;> simp

/-! ### A small run -/

/-- What a node holds that has been given a task of a name, and nothing else. -/
def givenTask (name : String) : Replica :=
  let fresh : Replica := {
    store := {}, tasks := .empty, groups := .empty, permissions := {}, datasets := .empty }
  { fresh.change (.addTask { (default : TaskSpec) with name }) with outbox := [] }

theorem reachable_givenTask (name : String) : (givenTask name).Reachable :=
  .collect (.change (.start rfl) _)

/-- A node with one peer and one task. -/
def lonely (home peer task : String) : Node :=
  { (default : Node) with
    roster := .new ⟨home, []⟩ [⟨peer, []⟩]
    replica := givenTask task }

/-- Two nodes that have been given different tasks. -/
def apart : Pair where
  node
    | .left => lonely "node-1" "node-2" "Lobby"
    | .right => lonely "node-2" "node-1" "Arena"
  flight _ := []

/-- Both nodes are connected before anything arrives. -/
def crossing : List Move :=
  [.connect .left, .connect .right] ++ List.replicate 5 (.deliver .left) ++
    List.replicate 5 (.deliver .right)

theorem apart_ready : apart.Ready where
  configured p := by cases p <;> decide
  idle p := by cases p <;> exact ⟨rfl, rfl⟩
  sound p := by cases p <;> exact (reachable_givenTask _).sound
  whole _ _ h := nomatch h

theorem crossing_quiet (p : Side) : (apart.run crossing).flight p = [] := by
  cases p <;> exact List.isEmpty_iff.1 (by decide +kernel)

/-- The last push is that of the second node. -/
theorem crossing_last_push :
    ∃ before m after, crossing = before ++ m :: after ∧ m.Pushes .tasks (apart.run before) ∧
      Silent .tasks ((apart.run before).make m) after ∧
      (apart.run crossing).holds .tasks m.side.other =
        ((apart.run before).make m).holds .tasks m.side ∧
      (apart.run crossing).holds .tasks m.side =
        (carried .tasks ((apart.run before).flight m.side)).getD
          (((apart.run before).make m).holds .tasks m.side) ∧
      (((apart.run crossing).node .left).replica.Agrees
          ((apart.run crossing).node .right).replica .tasks ↔
        ∀ l, carried .tasks ((apart.run before).flight m.side) = some l →
          l = ((apart.run before).make m).holds .tasks m.side) :=
  agrees_of_quiet (p := .left) apart_ready crossing (by simp [crossing]) crossing_quiet .tasks

/-- **Two nodes that are connected at the same time exchange what they hold**: everything has
arrived, and they still do not agree. -/
theorem crossing_not_agrees :
    apart.Ready ∧ (∀ p, .connect p ∈ crossing) ∧ (∀ p, (apart.run crossing).flight p = []) ∧
      ((apart.run crossing).node .left).replica.tasks.keys = ["Arena"] ∧
      ((apart.run crossing).node .right).replica.tasks.keys = ["Lobby"] ∧
      ¬ ((apart.run crossing).node .left).replica.Agrees
        ((apart.run crossing).node .right).replica .tasks := by
  have left : ((apart.run crossing).node .left).replica.tasks.keys = ["Arena"] := by decide +kernel
  have right : ((apart.run crossing).node .right).replica.tasks.keys = ["Lobby"] := by
    decide +kernel
  refine ⟨apart_ready, fun p => by cases p <;> simp [crossing], crossing_quiet, left, right, ?_⟩
  intro h
  have keys := congrArg SortedMap.keys h
  rw [left, right] at keys
  exact absurd keys (by decide)

end Pair

end WorkerCluster
