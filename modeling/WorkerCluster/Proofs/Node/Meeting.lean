import WorkerCluster.Proofs.Node.Dialing

/-!
# Two nodes that meet

Two nodes open connections to each other. Each is told of its links, and when it is told that it is
connected, it tells the other one all that it holds: that is a push. What it says goes over the link
that is registered at that moment.

* `Meeting` is both nodes with their connections, what each is still to be told of its links, and
  what each has said, down to what the other one has heard.
* `Meeting.Move` is what may happen, and `Meeting.Run` is any order of it. In between a node may do
  anything else.
* `Meeting.Sound` is what always holds: every message of every push is somewhere, and in one place
  only. One lemma for each move says that it stays so, `Run.sound` that it does in every run.
-/

namespace WorkerCluster

namespace Side

@[simp] theorem other_other (p : Side) : p.other.other = p := by cases p <;> rfl

end Side

/-! ### What a node says -/

namespace Node

variable {n t : Node} {node : NodeId} {r : Replica} {said : List ClusterMessage}

/-- A node that has acted and whose letters have been taken. -/
theorem Acts.idle (acts : Acts node n t r said) : Idle { t with outbox := [] } where
  outbox := rfl
  replica := by rw [acts.replica]

/-- A node that notices that a peer is gone says nothing about the cluster. -/
theorem acts_peerDisconnected (h : n.Idle) (node peer : NodeId) :
    Acts node n (n.peerDisconnected peer) n.replica [] := by
  have contains (id : NodeId) : (n.roster.disconnect peer).2.peers.contains id =
      n.roster.peers.contains id := SortedMap.contains_modify ..
  unfold peerDisconnected
  dsimp only
  split
  · refine ⟨h.replica_eq.symm, ?_, rfl, contains⟩
    show (n.outbox ++ _).filterMap _ = _
    rw [h.outbox, List.nil_append, List.filterMap_map]
    exact List.filterMap_eq_nil_iff.2 fun _ _ => rfl
  · exact ⟨h.replica_eq.symm, by rw [h.outbox]; rfl, rfl, contains⟩

/-- A node says everything once when it is connected. -/
theorem nodup_introduction (n : Node) : n.introduction.Nodup := by
  unfold introduction Replica.fullState Replica.taskMessage Replica.groupMessage
  cases n.roster.current <;> simp

end Node

/-- A message to the other node, and the number of the push to which it belongs, if any. -/
structure Note where
  message : ClusterMessage
  push : Option Nat

/-- The messages of a push. -/
def Note.ofPush (n : Node) (k : Nat) : List Note := n.introduction.map (⟨·, some k⟩)

/-- The messages of all pushes of a node, which is known at the times when it pushed. -/
def Note.ofPushes (l : List Node) : List Note := l.zipIdx.flatMap fun x => ofPush x.1 x.2

namespace Note

variable {n : Node} {k : Nat} {note : Note} {l : List Node}

theorem push_of_mem (h : note ∈ ofPush n k) : note.push = some k := by
  obtain ⟨m, -, rfl⟩ := List.mem_map.1 h
  rfl

theorem nodup_ofPush (n : Node) (k : Nat) : (ofPush n k).Nodup :=
  n.nodup_introduction.map fun _ _ same => congrArg Note.message same

theorem ofPushes_append (l : List Node) (n : Node) :
    ofPushes (l ++ [n]) = ofPushes l ++ ofPush n l.length := by
  simp [ofPushes, List.zipIdx_append]

theorem mem_ofPushes : note ∈ ofPushes l ↔ ∃ k n, l[k]? = some n ∧ note ∈ ofPush n k := by
  simp only [ofPushes, List.mem_flatMap, Prod.exists, List.mem_zipIdx_iff_getElem?]
  exact exists_comm

/-- Nothing is said twice in a push, and every push has another number. -/
theorem nodup_ofPushes (l : List Node) : (ofPushes l).Nodup := by
  induction l using List.reverseRecOn with
  | nil => exact List.nodup_nil
  | append_singleton l n ih =>
    rw [ofPushes_append]
    refine ih.append (nodup_ofPush n _) fun note old new => ?_
    obtain ⟨k, m, found, mem⟩ := mem_ofPushes.1 old
    have number := push_of_mem mem
    rw [push_of_mem new] at number
    obtain ⟨below, -⟩ := List.getElem?_eq_some_iff.1 found
    exact absurd (Option.some.inj number) below.ne'

end Note

/-- Something that a node has done. -/
inductive Deed
  /-- It has followed an event of its links. -/
  | noticed (event : LinkEvent)
  /-- It has followed a message of the other node. -/
  | heard (note : Note)

namespace Deed

def event? : Deed → Option LinkEvent
  | .noticed e => some e
  | .heard _ => none

def note? : Deed → Option Note
  | .noticed _ => none
  | .heard n => some n

end Deed

/-- Two nodes that have opened connections to each other, and what they tell each other. -/
structure Meeting where
  dialing : Dialing
  node : Side → Node
  /-- What a node is still to be told of its links. -/
  events : Side → List LinkEvent := fun _ => []
  /-- What a node has said and not yet given to a link. -/
  outbox : Side → List Note := fun _ => []
  /-- What a node has said without a link. -/
  dropped : Side → List Note := fun _ => []
  /-- What is on its way to a node over a connection. -/
  flight : (p opener : Side) → List Note := fun _ _ => []
  /-- What a node has read and not yet followed. -/
  tasks : Side → List Note := fun _ => []
  /-- What a node has done. -/
  done : Side → List Deed := fun _ => []
  /-- A node at the times when it pushed. -/
  pushes : Side → List Node := fun _ => []

namespace Meeting

/-- The id of the other node. -/
def peer (s : Meeting) (p : Side) : NodeId := s.dialing.id p.other

/-- A node has acted, and what it has to say to the other one is to be sent. -/
def say (s : Meeting) (p : Side) (n : Node) (push : Option Nat) : Meeting :=
  { s with
    node := Function.update s.node p { n with outbox := [] }
    outbox := Function.update s.outbox p
      ((n.outbox.filterMap (·.messageFor (s.peer p))).map (⟨·, push⟩)) }

/-- A node has done something. -/
def did (s : Meeting) (p : Side) (d : Deed) : Meeting :=
  { s with done := Function.update s.done p (s.done p ++ [d]) }

/-- Something that may happen. -/
inductive Move
  /-- Something happens to the connections. -/
  | link (m : Dialing.Move)
  /-- A node is told the next event of its links. -/
  | notice (p : Side)
  /-- A node gives the next message to its link. -/
  | send (p : Side)
  /-- A node reads the next message from a connection. -/
  | read (p opener : Side)
  /-- A node follows one of the messages that it has read. -/
  | hear (p : Side) (i : Nat)

/-- It may happen now. A node sends all that it has to say before it does anything else, and it sees
the end of a connection when it has read all. -/
def Enabled (s : Meeting) : Move → Prop
  | .link (.finish p d) => s.dialing.Enabled (.finish p d) ∧ s.flight p d = []
  | .link m => s.dialing.Enabled m
  | .notice p => s.outbox p = [] ∧ s.events p ≠ []
  | .send p => s.outbox p ≠ []
  | .read p d => ((s.dialing.party p).terminal d).reader = .running ∧ s.flight p d ≠ []
  | .hear p i => s.outbox p = [] ∧ i < (s.tasks p).length

instance (s : Meeting) : DecidablePred s.Enabled
  | .link (.attach p d) => inferInstanceAs (Decidable (s.dialing.Enabled (.attach p d)))
  | .link (.close p d) => inferInstanceAs (Decidable (s.dialing.Enabled (.close p d)))
  | .link (.finish p d) =>
    inferInstanceAs (Decidable (s.dialing.Enabled (.finish p d) ∧ s.flight p d = []))
  | .notice p => inferInstanceAs (Decidable (s.outbox p = [] ∧ s.events p ≠ []))
  | .send p => inferInstanceAs (Decidable (s.outbox p ≠ []))
  | .read p d => inferInstanceAs
    (Decidable (((s.dialing.party p).terminal d).reader = .running ∧ s.flight p d ≠ []))
  | .hear p i => inferInstanceAs (Decidable (s.outbox p = [] ∧ i < (s.tasks p).length))

/-- Who has opened the connection of a link of a node. -/
def openerOf (p : Side) (l : Link) : Side := if l.dialed then p else p.other

/-- Let it happen. -/
def make (s : Meeting) : Move → Meeting
  | .link m =>
    { s with
      dialing := (s.dialing.step m).2
      events := Function.update s.events m.side (s.events m.side ++ (s.dialing.step m).1.toList) }
  | .notice p =>
    match s.events p with
    | [] => s
    | e :: rest =>
      let t := { s with events := Function.update s.events p rest }
      match e with
      | .peerConnected _ =>
        ({ t with pushes := Function.update s.pushes p (s.pushes p ++ [s.node p]) }.say p
          ((s.node p).notice e) (some (s.pushes p).length)).did p (.noticed e)
      | _ => (t.say p ((s.node p).notice e) none).did p (.noticed e)
  | .send p =>
    match s.outbox p with
    | [] => s
    | note :: rest =>
      let s := { s with outbox := Function.update s.outbox p rest }
      match s.dialing.link p with
      | none => { s with dropped := Function.update s.dropped p (s.dropped p ++ [note]) }
      | some l =>
        let d := openerOf p l
        { s with
          flight := Function.update s.flight p.other
            (Function.update (s.flight p.other) d (s.flight p.other d ++ [note])) }
  | .read p d =>
    match s.flight p d with
    | [] => s
    | note :: rest =>
      { s with
        flight := Function.update s.flight p (Function.update (s.flight p) d rest)
        tasks := Function.update s.tasks p (s.tasks p ++ [note]) }
  | .hear p i =>
    match (s.tasks p)[i]? with
    | none => s
    | some note =>
      let s := { s with tasks := Function.update s.tasks p ((s.tasks p).eraseIdx i) }
      (s.say p ((s.node p).hear (s.peer p) note.message) none).did p (.heard note)

/-- Any order in which things may happen. -/
inductive Run (s : Meeting) : Meeting → Prop
  | refl : Run s s
  | make {t : Meeting} (run : Run s t) (m : Move) (enabled : t.Enabled m) : Run s (t.make m)
  /-- A node does anything else, and says anything else. -/
  | act {t : Meeting} (run : Run s t) (p : Side) {n : Node} {r : Replica}
    {said : List ClusterMessage} (quiet : t.outbox p = [])
    (acts : Node.Acts (t.peer p) (t.node p) n r said) : Run s (t.say p n none)

/-- Nothing has happened yet. Each node has been configured with the other one, and has nothing to
send. -/
structure Ready (s : Meeting) : Prop where
  links : s.dialing.Ready
  idle : ∀ p, (s.node p).Idle
  configured : ∀ p, (s.node p).roster.peers.contains (s.peer p) = true
  untouched : s = { dialing := s.dialing, node := s.node }

/-! ### What always holds -/

/-- What a node has been told and will be told of its links, in order. -/
def history (s : Meeting) (p : Side) : List LinkEvent :=
  (s.done p).filterMap Deed.event? ++ s.events p

/-- The messages that a node has followed. -/
def heard (s : Meeting) (p : Side) : List Note := (s.done p).filterMap Deed.note?

/-- All that a node has said, wherever it is. -/
def whereabouts (s : Meeting) (p : Side) : Multiset Note :=
  s.outbox p + s.dropped p + s.flight p.other .left + s.flight p.other .right +
    s.tasks p.other + s.heard p.other

/-- What always holds of two nodes that meet. -/
structure Sound (s : Meeting) : Prop where
  orderly : s.dialing.Orderly
  idle : ∀ p, (s.node p).Idle
  /-- The other node is a configured peer. -/
  configured : ∀ p, (s.node p).roster.peers.contains (s.peer p) = true
  /-- A node is told of its link to the other node only. -/
  told : ∀ p, ∀ e ∈ s.events p, e = .peerConnected (s.peer p) ∨ e = .peerDisconnected (s.peer p)
  /-- The last that it is told is whether there is one. -/
  linked : ∀ p, (s.dialing.link p).isSome = true ↔
    (s.history p).getLast? = some (.peerConnected (s.peer p))
  /-- A node sees the end of a connection when it has read all, and nothing comes after it. -/
  drained : ∀ p d, ((s.dialing.party p).terminal d).reader = .ended →
    s.flight p d = [] ∧ ((s.dialing.party p.other).terminal d).isOpen = false
  /-- Every message of every push is somewhere, and in one place only. -/
  accounted : ∀ p, (s.whereabouts p).filter (·.push.isSome) = Note.ofPushes (s.pushes p)
  /-- Once a node has been told all, and it is connected, the last push has gone to a link. -/
  complete : ∀ p, s.events p = [] →
    (s.history p).getLast? = some (.peerConnected (s.peer p)) →
      ∃ n, (s.pushes p).getLast? = some n ∧
        ∀ note ∈ Note.ofPush n ((s.pushes p).length - 1), note ∉ s.dropped p

variable {s t : Meeting} {p q d : Side}

theorem enabled_link {m : Dialing.Move} (h : s.Enabled (.link m)) : s.dialing.Enabled m := by
  cases m with
  | finish p d => exact h.1
  | attach p d => exact h
  | close p d => exact h

/-! ### Connections -/

section Link

variable {m : Dialing.Move}

theorem peer_link (s : Meeting) (m : Dialing.Move) (p : Side) :
    (s.make (.link m)).peer p = s.peer p := Dialing.step_id ..

theorem events_link_self (s : Meeting) (m : Dialing.Move) : (s.make (.link m)).events m.side =
    s.events m.side ++ (s.dialing.step m).1.toList := Function.update_self ..

theorem events_link_other (s : Meeting) (other : q ≠ m.side) :
    (s.make (.link m)).events q = s.events q := Function.update_of_ne other ..

theorem history_link_self (s : Meeting) (m : Dialing.Move) : (s.make (.link m)).history m.side =
    s.history m.side ++ (s.dialing.step m).1.toList := by
  rw [history, events_link_self, history, List.append_assoc]
  rfl

theorem history_link_other (s : Meeting) (other : q ≠ m.side) :
    (s.make (.link m)).history q = s.history q := by
  rw [history, events_link_other s other]
  rfl

/-- Whatever happens to the connections, a node will be told of it. -/
theorem Sound.link (h : s.Sound) (enabled : s.Enabled (.link m)) : (s.make (.link m)).Sound := by
  have now := enabled_link enabled
  refine ⟨h.orderly.step now, h.idle, ?configured, ?told, ?linked, ?drained, h.accounted,
    ?complete⟩
  case configured =>
    intro q
    rw [peer_link]
    exact h.configured q
  case told =>
    intro q e mem
    rw [peer_link]
    by_cases other : q = m.side
    · subst other
      rw [events_link_self, List.mem_append] at mem
      rcases mem with old | new
      · exact h.told _ e old
      · obtain ⟨silent, -⟩ | ⟨told, -⟩ | ⟨told, -⟩ := h.orderly.step_told now
        · rw [silent] at new
          cases new
        · rw [told] at new
          exact .inl (List.mem_singleton.1 new)
        · rw [told] at new
          exact .inr (List.mem_singleton.1 new)
    · rw [events_link_other s other] at mem
      exact h.told q e mem
  case linked =>
    intro q
    rw [peer_link]
    by_cases other : q = m.side
    · subst other
      rw [history_link_self]
      show ((s.dialing.step m).2.link m.side).isSome = true ↔ _
      obtain ⟨silent, same⟩ | ⟨told, linked⟩ | ⟨told, unlinked⟩ := h.orderly.step_told now
      · rw [silent, same, Option.toList_none, List.append_nil]
        exact h.linked m.side
      · rw [told, linked, Option.toList_some, List.getLast?_concat]
        exact ⟨fun _ => rfl, fun _ => rfl⟩
      · rw [told, unlinked, Option.toList_some, List.getLast?_concat]
        simp
    · rw [history_link_other s other]
      show ((s.dialing.step m).2.link q).isSome = true ↔ _
      rw [Dialing.step_link_other _ other]
      exact h.linked q
  case drained =>
    intro q d ended
    obtain ⟨-, before⟩ := h.orderly.step_terminal now q d
    obtain ⟨stays, -⟩ := h.orderly.step_terminal now q.other d
    rcases before ended with before | rfl
    · obtain ⟨read, closed⟩ := h.drained q d before
      exact ⟨read, stays closed⟩
    · exact ⟨enabled.2, stays enabled.1.2⟩
  case complete =>
    intro q none last
    rw [peer_link] at last
    by_cases other : q = m.side
    · subst other
      rw [events_link_self, List.append_eq_nil_iff] at none
      rw [history_link_self, none.2, List.append_nil] at last
      exact h.complete m.side none.1 last
    · rw [events_link_other s other] at none
      rw [history_link_other s other] at last
      exact h.complete q none last

end Link

namespace Sound

/-! ### Messages on their way -/

theorem whereabouts_read {note : Note} {rest : List Note} (next : s.flight p d = note :: rest)
    (q : Side) : (s.make (.read p d)).whereabouts q = s.whereabouts q := by
  rw [make, next]
  unfold whereabouts
  rcases p.eq_or q with rfl | rfl
  · simp [heard, Function.update_of_ne q.other_ne]
  · cases d
    all_goals
      simp [heard, next, ← Multiset.coe_add, ← Multiset.cons_coe, ← Multiset.singleton_add]
      abel

/-- What a node reads it will have to follow. -/
theorem read (h : s.Sound) (enabled : s.Enabled (.read p d)) : (s.make (.read p d)).Sound := by
  obtain ⟨running, nonempty⟩ := enabled
  obtain ⟨note, rest, next⟩ := List.exists_cons_of_ne_nil nonempty
  have accounted q : ((s.make (.read p d)).whereabouts q).filter (·.push.isSome) =
      Note.ofPushes (s.pushes q) := by
    rw [whereabouts_read next]
    exact h.accounted q
  have drained : ∀ q e, ((s.dialing.party q).terminal e).reader = .ended →
      (s.make (.read p d)).flight q e = [] ∧
        ((s.dialing.party q.other).terminal e).isOpen = false := by
    intro q e ended
    have here : ¬ (q = p ∧ e = d) := by
      rintro ⟨rfl, rfl⟩
      rw [running] at ended
      cases ended
    refine ⟨?_, (h.drained q e ended).2⟩
    rw [← (h.drained q e ended).1, make, next]
    by_cases same : q = p
    · subst same
      have other : e ≠ d := fun same => here ⟨rfl, same⟩
      simp [Function.update_of_ne other]
    · simp [Function.update_of_ne same]
  rw [make, next] at accounted drained ⊢
  exact ⟨h.orderly, h.idle, h.configured, h.told, h.linked, drained, accounted, h.complete⟩

theorem whereabouts_send {note : Note} {rest : List Note} (next : s.outbox p = note :: rest)
    (q : Side) : (s.make (.send p)).whereabouts q = s.whereabouts q := by
  rw [make, next]
  dsimp only
  unfold whereabouts
  cases s.dialing.link p with
  | none =>
    rcases p.eq_or q with rfl | rfl
    · simp [heard, next, ← Multiset.coe_add, ← Multiset.cons_coe, ← Multiset.singleton_add]
      abel
    · simp [heard, Function.update_of_ne p.other_ne]
  | some l =>
    dsimp only
    rcases p.eq_or q with rfl | rfl
    · cases openerOf q l
      all_goals
        simp [heard, next, ← Multiset.coe_add, ← Multiset.cons_coe, ← Multiset.singleton_add]
        abel
    · simp [heard, Function.update_of_ne p.other_ne, Function.update_of_ne p.other_ne.symm]

/-- A node sends over a connection whose end is open. -/
theorem opener_isOpen (h : s.Sound) {l : Link} (linked : s.dialing.link p = some l) :
    ((s.dialing.party p).terminal (openerOf p l)).isOpen = true := by
  obtain ⟨d, number⟩ := (h.orderly.party p).linked l linked
  obtain ⟨registered, dialed⟩ := (h.orderly.party p).registered number linked
  have opener : openerOf p l = d := by
    unfold openerOf
    rw [dialed]
    cases p <;> cases d <;> rfl
  rw [opener, registered]
  rfl

/-- What a node says goes over its link, if it has one. -/
theorem send (h : s.Sound) (enabled : s.Enabled (.send p)) : (s.make (.send p)).Sound := by
  obtain ⟨note, rest, next⟩ := List.exists_cons_of_ne_nil enabled
  have accounted q : ((s.make (.send p)).whereabouts q).filter (·.push.isSome) =
      Note.ofPushes (s.pushes q) := by
    rw [whereabouts_send next]
    exact h.accounted q
  rw [make, next] at accounted ⊢
  dsimp only at accounted ⊢
  cases linked : s.dialing.link p with
  | none =>
    simp only [linked] at accounted ⊢
    refine ⟨h.orderly, h.idle, h.configured, h.told, h.linked, h.drained, accounted, ?_⟩
    intro q none last
    obtain ⟨n, pushed, kept⟩ := h.complete q none last
    refine ⟨n, pushed, ?_⟩
    have other : q ≠ p := by
      rintro rfl
      have up := (h.linked q).2 last
      rw [linked] at up
      cases up
    simpa [Function.update_of_ne other] using kept
  | some l =>
    simp only [linked] at accounted ⊢
    refine ⟨h.orderly, h.idle, h.configured, h.told, h.linked, ?_, accounted, h.complete⟩
    intro q e ended
    obtain ⟨read, closed⟩ := h.drained q e ended
    refine ⟨?_, closed⟩
    have here : ¬ (q = p.other ∧ e = openerOf p l) := by
      rintro ⟨rfl, rfl⟩
      rw [Side.other_other, h.opener_isOpen linked] at closed
      cases closed
    rw [← read]
    by_cases same : q = p.other
    · subst same
      have other : e ≠ openerOf p l := fun same => here ⟨rfl, same⟩
      simp [Function.update_of_ne other]
    · simp [Function.update_of_ne same]

/-! ### Nodes that act -/

/-- A node acts, and nothing happens to the connections. -/
structure Keeps (s t : Meeting) : Prop where
  dialing : t.dialing = s.dialing
  dropped : t.dropped = s.dropped
  flight : t.flight = s.flight
  events : ∀ p, t.events p <:+ s.events p
  history : ∀ p, t.history p = s.history p

section Acts

variable {n : Node} {r : Replica} {said : List ClusterMessage} {push : Option Nat}

/-- It stays sound if nothing that has been pushed is lost. -/
theorem keeps (h : s.Sound) (keeps : Keeps s t)
    (acts : Node.Acts (s.peer p) (s.node p) n r said)
    (node : t.node = Function.update s.node p { n with outbox := [] })
    (accounted : ∀ q, (t.whereabouts q).filter (·.push.isSome) = Note.ofPushes (t.pushes q))
    (complete : ∀ q, t.events q = [] → (s.history q).getLast? = some (.peerConnected (s.peer q)) →
      ∃ n, (t.pushes q).getLast? = some n ∧
        ∀ note ∈ Note.ofPush n ((t.pushes q).length - 1), note ∉ s.dropped q) : t.Sound := by
  have peer q : t.peer q = s.peer q := by rw [Meeting.peer, keeps.dialing, Meeting.peer]
  refine ⟨keeps.dialing ▸ h.orderly, ?idle, ?configured, ?told, ?linked, ?drained, accounted,
    ?complete⟩
  case idle =>
    intro q
    rw [node]
    by_cases same : q = p
    · subst same
      rw [Function.update_self]
      exact acts.idle
    · rw [Function.update_of_ne same]
      exact h.idle q
  case configured =>
    intro q
    rw [node, peer]
    by_cases same : q = p
    · subst same
      rw [Function.update_self]
      exact (acts.peers _).trans (h.configured q)
    · rw [Function.update_of_ne same]
      exact h.configured q
  case told =>
    intro q e mem
    rw [peer]
    exact h.told q e ((keeps.events q).subset mem)
  case linked =>
    intro q
    rw [peer, keeps.dialing, keeps.history]
    exact h.linked q
  case drained =>
    rw [keeps.dialing, keeps.flight]
    exact h.drained
  case complete =>
    intro q none last
    rw [keeps.history, peer] at last
    rw [keeps.dropped]
    exact complete q none last

theorem say_outbox (acts : Node.Acts (s.peer p) (s.node p) n r said) (push : Option Nat) :
    (s.say p n push).outbox = Function.update s.outbox p (said.map (⟨·, push⟩)) := by
  rw [say, acts.said]

/-- What a node says is somewhere. -/
theorem whereabouts_say (quiet : s.outbox p = [])
    (acts : Node.Acts (s.peer p) (s.node p) n r said) (q : Side) :
    (s.say p n push).whereabouts q =
      s.whereabouts q + if q = p then ↑(said.map (Note.mk · push)) else 0 := by
  have outbox := say_outbox acts push
  unfold whereabouts
  rw [outbox]
  by_cases same : q = p
  · subst same
    rw [Function.update_self, quiet, if_pos rfl]
    simp only [say, heard, Multiset.coe_nil, zero_add]
    abel
  · rw [Function.update_of_ne same, if_neg same, add_zero]
    rfl

theorem whereabouts_say_nil (quiet : s.outbox p = [])
    (acts : Node.Acts (s.peer p) (s.node p) n r []) (q : Side) :
    (s.say p n push).whereabouts q = s.whereabouts q := by
  rw [whereabouts_say quiet acts, List.map_nil, Multiset.coe_nil, ite_self, add_zero]

/-- A node does anything else. -/
theorem act (h : s.Sound) (quiet : s.outbox p = [])
    (acts : Node.Acts (s.peer p) (s.node p) n r said) : (s.say p n none).Sound := by
  refine h.keeps ⟨rfl, rfl, rfl, fun _ => List.suffix_rfl, fun _ => rfl⟩ acts rfl (fun q => ?_)
    h.complete
  -- what it says belongs to no push
  have untagged : Multiset.filter (fun note : Note => note.push.isSome)
      (if q = p then ↑(said.map (Note.mk · none)) else 0) = 0 := by
    split
    · simp
    · rfl
  rw [whereabouts_say quiet acts, Multiset.filter_add, untagged, add_zero]
  exact h.accounted q

end Acts

/-! ### Nodes that are told of their links -/

variable {e : LinkEvent} {rest : List LinkEvent}

theorem events_notice (next : s.events p = e :: rest) :
    (s.make (.notice p)).events = Function.update s.events p rest := by
  rw [make, next]
  cases e <;> rfl

theorem node_notice (next : s.events p = e :: rest) : (s.make (.notice p)).node =
    Function.update s.node p { (s.node p).notice e with outbox := [] } := by
  rw [make, next]
  cases e <;> rfl

theorem keeps_notice (next : s.events p = e :: rest) : Keeps s (s.make (.notice p)) := by
  have done : (s.make (.notice p)).done = Function.update s.done p (s.done p ++ [.noticed e]) := by
    rw [make, next]
    cases e <;> rfl
  refine ⟨?_, ?_, ?_, fun q => ?_, fun q => ?_⟩
  iterate 3
    rw [make, next]
    cases e <;> rfl
  · rw [events_notice next]
    by_cases same : q = p
    · rw [same, Function.update_self, next]
      exact List.suffix_cons ..
    · rw [Function.update_of_ne same]
  · rw [history, events_notice next, done, history]
    by_cases same : q = p
    · subst same
      simp [next, Deed.event?]
    · simp [Function.update_of_ne same]

/-- What a node notices is not what it hears. -/
theorem whereabouts_noticed (s : Meeting) (p : Side) (e : LinkEvent) (q : Side) :
    (s.did p (.noticed e)).whereabouts q = s.whereabouts q := by
  have heard q : (s.did p (.noticed e)).heard q = s.heard q := by
    unfold Meeting.heard did
    by_cases same : q = p
    · subst same
      simp [Deed.note?]
    · simp [Function.update_of_ne same]
  unfold whereabouts
  rw [heard]
  rfl

/-- A new push has another number. -/
theorem fresh (h : s.Sound) (n : Node) :
    ∀ note ∈ Note.ofPush n (s.pushes p).length, note ∉ s.dropped p := by
  intro note new dropped
  have old : note ∈ Note.ofPushes (s.pushes p) := by
    rw [← Multiset.mem_coe, ← h.accounted, Multiset.mem_filter]
    refine ⟨?_, by rw [Note.push_of_mem new]; rfl⟩
    simp only [whereabouts, Multiset.mem_add, Multiset.mem_coe]
    tauto
  have nodup := Note.nodup_ofPushes (s.pushes p ++ [n])
  rw [Note.ofPushes_append] at nodup
  exact List.disjoint_of_nodup_append nodup old new

/-- A node that is told that it is connected pushes. -/
theorem connected (h : s.Sound) (quiet : s.outbox p = [])
    (next : s.events p = .peerConnected (s.peer p) :: rest) : (s.make (.notice p)).Sound := by
  have acts := Node.acts_peerConnected (h.idle p) (h.configured p)
  have pushes : (s.make (.notice p)).pushes =
      Function.update s.pushes p (s.pushes p ++ [s.node p]) := by
    rw [make, next]
    rfl
  have whereabouts q : (s.make (.notice p)).whereabouts q =
      s.whereabouts q + if q = p then ↑(Note.ofPush (s.node p) (s.pushes p).length) else 0 := by
    rw [make, next]
    exact (whereabouts_noticed ..).trans (whereabouts_say quiet acts q)
  refine h.keeps (keeps_notice next) acts (node_notice next) (fun q => ?_) fun q none last => ?_
  · rw [whereabouts, pushes, Multiset.filter_add, h.accounted]
    by_cases same : q = p
    · subst same
      rw [Function.update_self, if_pos rfl, Note.ofPushes_append, ← Multiset.coe_add]
      congr 1
      refine Multiset.filter_eq_self.2 fun note mem => ?_
      rw [Note.push_of_mem (Multiset.mem_coe.1 mem)]
      rfl
    · rw [Function.update_of_ne same, if_neg same, Multiset.filter_zero, add_zero]
  · rw [pushes]
    by_cases same : q = p
    · subst same
      rw [Function.update_self]
      refine ⟨s.node q, List.getLast?_concat, ?_⟩
      rw [List.length_append, List.length_singleton, Nat.add_sub_cancel]
      exact h.fresh _
    · rw [events_notice next, Function.update_of_ne same] at none
      rw [Function.update_of_ne same]
      exact h.complete q none last

/-- A node that is told that the other one is gone says nothing. -/
theorem disconnected (h : s.Sound) (quiet : s.outbox p = [])
    (next : s.events p = .peerDisconnected (s.peer p) :: rest) : (s.make (.notice p)).Sound := by
  have acts := Node.acts_peerDisconnected (h.idle p) (s.peer p) (s.peer p)
  have pushes : (s.make (.notice p)).pushes = s.pushes := by
    rw [make, next]
    rfl
  have whereabouts q : (s.make (.notice p)).whereabouts q = s.whereabouts q := by
    rw [make, next]
    exact (whereabouts_noticed ..).trans (whereabouts_say_nil quiet acts q)
  refine h.keeps (keeps_notice next) acts (node_notice next) (fun q => ?_) fun q none last => ?_
  · rw [whereabouts, pushes]
    exact h.accounted q
  · rw [pushes]
    by_cases same : q = p
    · subst same
      -- the last that it is told is not that it is connected
      rw [events_notice next, Function.update_self] at none
      rw [history, next, none, List.getLast?_concat] at last
      cases last
    · rw [events_notice next, Function.update_of_ne same] at none
      exact h.complete q none last

theorem notice (h : s.Sound) (enabled : s.Enabled (.notice p)) : (s.make (.notice p)).Sound := by
  obtain ⟨quiet, nonempty⟩ := enabled
  obtain ⟨e, rest, next⟩ := List.exists_cons_of_ne_nil nonempty
  obtain rfl | rfl := h.told p e (next ▸ List.mem_cons_self)
  · exact h.connected quiet next
  · exact h.disconnected quiet next

/-! ### Nodes that follow messages -/

theorem make_hear {i : Nat} (below : i < (s.tasks p).length) : s.make (.hear p i) =
    ({ s with tasks := Function.update s.tasks p ((s.tasks p).eraseIdx i) }.say p
      ((s.node p).hear (s.peer p) (s.tasks p)[i].message) none).did p (.heard (s.tasks p)[i]) := by
  rw [make, List.getElem?_eq_getElem below]
  rfl

/-- A message that is followed has been read. -/
theorem whereabouts_hear {i : Nat} (idle : (s.node p).Idle) (quiet : s.outbox p = [])
    (below : i < (s.tasks p).length) (q : Side) :
    (s.make (.hear p i)).whereabouts q = s.whereabouts q := by
  have outbox : (s.make (.hear p i)).outbox = s.outbox := by
    rw [make_hear below]
    refine (say_outbox (Node.acts_hear idle ..) none).trans ?_
    rw [List.map_nil, ← quiet, Function.update_eq_self]
  unfold whereabouts
  rw [outbox, make_hear below]
  rcases p.eq_or q with rfl | rfl
  · simp [heard, say, did, Function.update_of_ne q.other_ne]
  · have moved : ((s.tasks p)[i] ::ₘ ↑((s.tasks p).eraseIdx i) : Multiset Note) = s.tasks p :=
      Multiset.coe_eq_coe.2 (List.getElem_cons_eraseIdx_perm below)
    simp only [say, did, Side.other_other, Function.update_self, heard, ← moved,
      List.filterMap_append, ← Multiset.coe_add, ← Multiset.singleton_add]
    simp only [List.filterMap_cons, List.filterMap_nil, Deed.note?, Multiset.coe_singleton]
    abel

/-- A node follows a message that it has read. -/
theorem hear (h : s.Sound) {i : Nat} (enabled : s.Enabled (.hear p i)) :
    (s.make (.hear p i)).Sound := by
  obtain ⟨quiet, below⟩ := enabled
  have acts : Node.Acts (s.peer p) (s.node p) _ _ [] :=
    Node.acts_hear (h.idle p) (s.peer p) (s.tasks p)[i].message
  have history q : (s.make (.hear p i)).history q = s.history q := by
    rw [make_hear below]
    unfold Meeting.history did
    by_cases same : q = p
    · subst same
      simp [Deed.event?, say]
    · simp [Function.update_of_ne same, say]
  have accounted q : ((s.make (.hear p i)).whereabouts q).filter (·.push.isSome) =
      Note.ofPushes (s.pushes q) := by
    rw [whereabouts_hear (h.idle p) quiet below]
    exact h.accounted q
  rw [make_hear below] at history accounted ⊢
  exact h.keeps ⟨rfl, rfl, rfl, fun _ => List.suffix_rfl, history⟩ acts rfl accounted h.complete

/-- **Whatever happens, it stays so.** -/
theorem make (h : s.Sound) {m : Move} (enabled : s.Enabled m) : (s.make m).Sound := by
  cases m with
  | link m => exact h.link enabled
  | notice p => exact h.notice enabled
  | send p => exact h.send enabled
  | read p d => exact h.read enabled
  | hear p i => exact h.hear enabled

end Sound

theorem Ready.sound (ready : s.Ready) : s.Sound := by
  rw [ready.untouched]
  refine ⟨ready.links.orderly, ready.idle, ready.configured, fun _ _ => nofun, fun p => ?_,
    fun p d ended => ?_, fun _ => rfl, fun _ _ => nofun⟩
  · rw [ready.links.unlinked]
    exact ⟨nofun, nofun⟩
  · rw [ready.links.untouched] at ended
    cases ended

theorem Run.sound (run : Run s t) (h : s.Sound) : t.Sound := by
  induction run with
  | refl => exact h
  | make run m enabled ih => exact ih.make enabled
  | act run p quiet acts ih => exact ih.act quiet acts

end Meeting

end WorkerCluster
