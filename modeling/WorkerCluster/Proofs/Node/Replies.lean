import WorkerCluster.Node.Run
import WorkerCluster.Proofs.Json.Refusal
import WorkerCluster.Proofs.Link.Requests
import WorkerCluster.Proofs.Node.Forwarding
import WorkerCluster.Proofs.Node.Pair

/-!
# Replies that come too late

A reply has the channel and the id of its request. If the request does not wait any more, the reply
goes to those who handle the requests of other nodes.

* `RemoteResponse.decode_reply` says that no answer is read as a request.
* `Station` is a node with its links, its loop and its handlers, `Exchange` two of them that send
  each other packets. `Exchange.Move` is what may happen, in any order.
* `Station.Sound` is the invariant: what a node has written as a reply is one, on the channel of
  requests.
* `Exchange.quiet` leaves out the handlers that have replies in hand. `Move.quiet` says what a move
  is without them.
* `late_replies_inert` is the main statement.
-/

namespace WorkerCluster

open Json

/-! ### Answers and requests -/

/-- **An answer is never read as a request**, whatever it holds. -/
theorem RemoteResponse.decode_reply (x : Packet) (r : RemoteResponse) :
    (x.reply codec r).decode RemoteRequest.codec = .error .mismatched := by
  cases r with
  | record w => exact Variant.read_bytes_unknown rfl rfl
  | logs lines => exact Variant.read_bytes_unknown rfl rfl
  | refused reason => exact Variant.read_bytes_unknown rfl rfl

/-- A packet that has been written as the answer to a request. -/
def Packet.IsReply (x : Packet) : Prop :=
  ∃ (q : Packet) (r : RemoteResponse), q.channel = Channel.remote ∧
    x = q.reply RemoteResponse.codec r

namespace Packet.IsReply

variable {x : Packet}

theorem channel (h : x.IsReply) : x.channel = Channel.remote := by
  obtain ⟨q, r, channel, rfl⟩ := h
  exact channel

/-- It asks for nothing. -/
theorem ofPacket (h : x.IsReply) (origin : Origin) : Errand.ofPacket origin x = none := by
  have channel := h.channel
  obtain ⟨q, r, -, rfl⟩ := h
  unfold Errand.ofPacket
  rw [channel, if_neg (by decide), if_neg (by decide), if_pos rfl, RemoteResponse.decode_reply]
  split
  · next read => cases read
  · rfl

end Packet.IsReply

/-! ### What is answered -/

/-- The answer to another node, and to whom it goes. -/
def ErrandResult.reply? : ErrandResult → Option (Origin × Packet)
  | .reply origin x => some (origin, x)
  | _ => none

namespace Errand

/-- What is answered to another node if the loop has stopped before it has come to the errand. -/
def givenUp? : Errand → Option (Origin × Packet)
  | .serve origin x _ => some (origin, x.reply RemoteResponse.codec Node.stopped)
  | _ => none

/-- What is served has come on the channel of requests. -/
def Proper : Errand → Prop
  | .serve _ x _ => x.channel = Channel.remote
  | _ => True

variable {e : Errand} {origin : Origin} {x : Packet}

theorem proper_of_ofPacket (h : ofPacket origin x = some e) : e.Proper := by
  unfold ofPacket at h
  split at h
  · split at h <;> cases h
    trivial
  · split at h
    · split at h <;> cases h
      trivial
    · split at h
      · next channel =>
        split at h <;> cases h
        exact channel
      · cases h

theorem Proper.isReply_perform (h : e.Proper) {n : Node} {a : Origin × Packet}
    (answered : (n.perform e).1.reply? = some a) : a.2.IsReply := by
  cases e with
  | serve origin x q =>
    cases answered
    exact ⟨x, _, h, rfl⟩
  | handle q =>
    rw [Node.perform, Prod.map_fst] at answered
    cases answered
  | _ => cases answered

theorem Proper.isReply_givenUp (h : e.Proper) {a : Origin × Packet}
    (answered : e.givenUp? = some a) : a.2.IsReply := by
  cases e with
  | serve origin x q =>
    cases answered
    exact ⟨x, _, h, rfl⟩
  | _ => cases answered

end Errand

/-! ### Two nodes -/

/-- Something that looks for what a packet asks for. -/
abbrev Handler := Origin → Packet → Option Errand

/-- The handlers of a node, with their channels. -/
def Handler.installed : List (String × Handler) :=
  [(Channel.cluster, Errand.ofPacket), (Channel.workers, Errand.ofPacket),
    (Channel.remote, Errand.ofPacket)]

/-- A packet on its way to a node. -/
structure Mail where
  /-- Who has sent it. -/
  origin : Origin
  packet : Packet
  /-- Whether it has been written as a reply. -/
  isReply : Bool := false

/-- A node with its links and its loop, and the packets around it. -/
structure Station where
  board : Switchboard Handler
  loop : Loop Node Errand
  /-- Whether the loop goes on. -/
  working : Bool := true
  /-- What is on its way to the node. -/
  coming : List Mail := []
  /-- Handlers that have not run, and what they have in hand. -/
  tasks : List (Handler × Mail) := []
  /-- Replies that have not been sent, and to whom they go. -/
  replies : List (Origin × Packet) := []

namespace Station

/-- A packet arrives, if there is such a one. -/
def arrive (s : Station) (i : ℕ) : Station :=
  match s.coming[i]? with
  | some m => { s with
      board := (s.board.receive m.packet).2
      coming := s.coming.eraseIdx i
      tasks := s.tasks ++ (s.board.receive m.packet).1.map (·, m) }
  | none => s

/-- A packet is lost. -/
def lose (s : Station) (i : ℕ) : Station := { s with coming := s.coming.eraseIdx i }

/-- A packet is sent to the node. -/
def expect (s : Station) (m : Mail) : Station := { s with coming := s.coming ++ [m] }

/-- One of the handlers runs, if there is such a one. It submits what its packet asks for. -/
def runTask (s : Station) (i : ℕ) : Station :=
  match s.tasks[i]? with
  | some (handler, m) => { s with
      tasks := s.tasks.eraseIdx i
      loop := match handler m.origin m.packet with
        | some e => s.loop.submit (.plain e)
        | none => s.loop }
  | none => s

/-- The loop does the errand that has waited longest, if one waits. Once it has stopped, the errand
is given up. -/
def workNext (s : Station) : Station :=
  match s.loop.queue with
  | .item e submits :: rest =>
    if s.working then { s with
      loop := { s.loop with state := (s.loop.state.perform e).2, queue := rest ++ submits }
      replies := s.replies ++ (s.loop.state.perform e).1.reply?.toList }
    else { s with
      loop := { s.loop with queue := rest }
      replies := s.replies ++ e.givenUp?.toList }
  | [] => s

/-- A reply is taken to be sent. -/
def takeReply (s : Station) (i : ℕ) : Station := { s with replies := s.replies.eraseIdx i }

/-- Something that may happen at a node by itself. -/
inductive Event
  /-- A packet comes from somebody else. -/
  | expect (origin : Origin) (x : Packet)
  | lose (i : ℕ)
  | work
  /-- The time of a request is over. -/
  | expire (id : Uuid)
  /-- The links change. -/
  | move (m : LinkTable.Move)
  /-- All links are closed. -/
  | close
  /-- A client asks for something. -/
  | handle (q : ClientRequest)
  /-- The node is told something about its links. -/
  | notice (event : LinkEvent)
  /-- Anything else happens to the node. -/
  | make (m : Node.Move)
  /-- The loop stops. -/
  | stop

/-- Let it happen. -/
def act (s : Station) : Event → Station
  | .expect origin x => s.expect ⟨origin, x, false⟩
  | .lose i => s.lose i
  | .work => s.workNext
  | .expire id => { s with board := s.board.expire id }
  | .move m => { s with board := (s.board.move m).2 }
  | .close => { s with board := s.board.shutdown.2 }
  | .handle q => { s with loop := s.loop.submit (.plain (.handle q)) }
  | .notice event => { s with loop := s.loop.submit (.plain (.notice event)) }
  | .make m => { s with loop := { s.loop with state := s.loop.state.make m } }
  | .stop => { s with working := false }

/-- A reply is on its way, and no request waits for it. -/
def Late (s : Station) (i : ℕ) : Prop :=
  ∃ m, s.coming[i]? = some m ∧ m.isReply = true ∧
    ∀ id ∈ s.board.requests.waiting, m.packet.id ≠ some id

/-- The same without the handlers that have replies in hand. -/
def quiet (s : Station) : Station := { s with tasks := s.tasks.filter fun t => !t.2.isReply }

/-- A node whose handlers are installed and that has not heard of anything. -/
structure Fresh (s : Station) : Prop where
  handlers : s.board.handlers = Handler.installed
  queue : s.loop.queue = []
  coming : s.coming = []
  tasks : s.tasks = []
  replies : s.replies = []

/-- What has been written as a reply is one, wherever it is. -/
structure Sound (s : Station) : Prop where
  handlers : s.board.handlers = Handler.installed
  queue : ∀ w ∈ s.loop.queue, ∃ e, w = .plain e ∧ e.Proper
  coming : ∀ m ∈ s.coming, m.isReply = true → m.packet.IsReply
  tasks : ∀ t ∈ s.tasks, t.1 = Errand.ofPacket ∧ (t.2.isReply = true → t.2.packet.IsReply)
  replies : ∀ a ∈ s.replies, a.2.IsReply

end Station

/-- Two nodes that send each other packets. -/
structure Exchange where
  station : Side → Station

namespace Exchange

/-- Let something happen at one of the nodes. -/
def on (s : Exchange) (p : Side) (f : Station → Station) : Exchange :=
  ⟨Function.update s.station p (f (s.station p))⟩

/-- The id of a node. -/
def id (s : Exchange) (p : Side) : NodeId := (s.station p).board.identity.id

/-- Send a packet to the other node, if there is a link to it. -/
def send (s : Exchange) (p : Side) (x : Packet) (isReply : Bool) : Exchange :=
  if (s.station p).board.isLinked (.peer (s.id p.other)) then
    s.on p.other (·.expect ⟨.peer (s.id p), x, isReply⟩)
  else s

/-- Ask the other node for something. -/
def ask (s : Exchange) (p : Side) (q : RemoteRequest) (id : Uuid) : Exchange :=
  (s.send p (q.packet id) false).on p fun t => { t with board := t.board.ask (s.id p.other) id }

/-- One of the replies of a node is sent, if there is such a one. -/
def reply (s : Exchange) (p : Side) (i : ℕ) : Exchange :=
  match (s.station p).replies[i]? with
  | some (origin, x) =>
    let t := s.on p (·.takeReply i)
    if origin = .peer (s.id p.other) then t.send p x true else t
  | none => s

/-- What may happen. Late replies arrive only if that is allowed. -/
inductive Move (late : Prop) (s : Exchange) : Exchange → Prop
  /-- A request is sent. -/
  | ask (p : Side) (q : RemoteRequest) (id : Uuid) : Move late s (s.ask p q id)
  /-- Something else is sent. -/
  | tell (p : Side) (x : Packet) : Move late s (s.send p x false)
  /-- A reply is sent. -/
  | reply (p : Side) (i : ℕ) : Move late s (s.reply p i)
  /-- A packet arrives. -/
  | arrive (p : Side) (i : ℕ) (allowed : late ∨ ¬ (s.station p).Late i) :
      Move late s (s.on p (·.arrive i))
  /-- A handler runs. -/
  | run (p : Side) (i : ℕ) : Move late s (s.on p (·.runTask i))
  /-- Something happens at a node by itself. -/
  | act (p : Side) (e : Station.Event) : Move late s (s.on p (·.act e))

/-- What may happen over time. -/
abbrev Moves (late : Prop) : Exchange → Exchange → Prop := Relation.ReflTransGen (Move late)

/-- The same without the handlers that have replies in hand. -/
def quiet (s : Exchange) : Exchange := ⟨fun p => (s.station p).quiet⟩

end Exchange

/-! ### Packets that nobody waits for -/

namespace Switchboard

variable {b : Switchboard Handler} {x : Packet}

/-- A packet that answers no request goes to those who handle its channel. -/
theorem receive_of_unawaited (unawaited : ∀ id ∈ b.requests.waiting, x.id ≠ some id) :
    b.receive x = (b.handlersOf x.channel, b) := by
  unfold receive Requests.arrive
  cases carried : x.id with
  | none => rfl
  | some id =>
    have absent : id ∉ b.requests.waiting := fun waits => unawaited id waits carried
    simp [Requests.settle_of_not_mem absent, absent]

theorem receive_of_awaited {id : Uuid} (waits : id ∈ b.requests.waiting)
    (carried : x.id = some id) : (b.receive x).1 = [] := by
  simp [receive, Requests.arrive, carried, waits]

theorem mem_receive {h : Handler} (mem : h ∈ (b.receive x).1) : h ∈ b.handlersOf x.channel := by
  unfold receive at mem
  dsimp only at mem
  split at mem
  · cases mem
  · exact mem

theorem eq_of_installed (handlers : b.handlers = Handler.installed) {h : Handler} {channel : String}
    (mem : h ∈ b.handlersOf channel) : h = Errand.ofPacket := by
  rw [handlersOf, handlers] at mem
  obtain ⟨entry, found, rfl⟩ := List.mem_map.1 mem
  have all : ∀ e ∈ Handler.installed, e.2 = Errand.ofPacket := by simp [Handler.installed]
  exact all entry (List.mem_filter.1 found).1

end Switchboard

/-! ### The invariant -/

namespace Station

variable {s : Station} {i : ℕ} {m : Mail}

theorem Fresh.sound (h : s.Fresh) : s.Sound where
  handlers := h.handlers
  queue := by simp [h.queue]
  coming := by simp [h.coming]
  tasks := by simp [h.tasks]
  replies := by simp [h.replies]

namespace Sound

theorem expect (h : s.Sound) (reply : m.isReply = true → m.packet.IsReply) :
    (s.expect m).Sound :=
  { h with
    coming := fun m' mem => by
      rcases List.mem_append.1 mem with mem | mem
      · exact h.coming m' mem
      · obtain rfl := List.mem_singleton.1 mem
        exact reply }

theorem lose (h : s.Sound) (i : ℕ) : (s.lose i).Sound :=
  { h with coming := fun m mem => h.coming m (List.mem_of_mem_eraseIdx mem) }

theorem arrive (h : s.Sound) (i : ℕ) : (s.arrive i).Sound := by
  unfold Station.arrive
  split
  · next m next =>
    refine { h with coming := ?_, tasks := ?_ }
    · exact fun m mem => h.coming m (List.mem_of_mem_eraseIdx mem)
    · intro t mem
      rcases List.mem_append.1 mem with mem | mem
      · exact h.tasks t mem
      · obtain ⟨handler, given, rfl⟩ := List.mem_map.1 mem
        exact ⟨Switchboard.eq_of_installed h.handlers (Switchboard.mem_receive given),
          h.coming m (List.mem_of_getElem? next)⟩
  · exact h

theorem submit (h : s.Sound) {e : Errand} (proper : e.Proper) :
    Sound { s with loop := s.loop.submit (.plain e) } :=
  { h with
    queue := fun w mem => by
      rcases List.mem_append.1 mem with mem | mem
      · exact h.queue w mem
      · exact ⟨e, List.mem_singleton.1 mem, proper⟩ }

theorem runTask (h : s.Sound) (i : ℕ) : (s.runTask i).Sound := by
  unfold Station.runTask
  split
  · next handler m next =>
    have rest : Sound { s with tasks := s.tasks.eraseIdx i } :=
      { h with tasks := fun t mem => h.tasks t (List.mem_of_mem_eraseIdx mem) }
    obtain ⟨rfl, -⟩ := h.tasks _ (List.mem_of_getElem? next)
    split
    · next e asked => exact rest.submit (Errand.proper_of_ofPacket asked)
    · exact rest
  · exact h

/-- What is answered is a reply, if anything is. -/
theorem replies_append (h : s.Sound) {answer : Option (Origin × Packet)}
    (reply : ∀ a, answer = some a → a.2.IsReply) :
    ∀ a ∈ s.replies ++ answer.toList, a.2.IsReply := by
  intro a mem
  rcases List.mem_append.1 mem with mem | mem
  · exact h.replies a mem
  · exact reply a (Option.mem_toList.1 mem)

theorem workNext (h : s.Sound) : s.workNext.Sound := by
  unfold Station.workNext
  split
  · next e submits rest next =>
    obtain ⟨e', item, proper⟩ := h.queue _ (next ▸ List.mem_cons_self ..)
    obtain ⟨rfl, rfl⟩ := Work.item.inj item
    have others : ∀ w ∈ rest, ∃ e, w = .plain e ∧ e.Proper := fun w mem =>
      h.queue w (next ▸ List.mem_cons_of_mem _ mem)
    split
    · have queue : ∀ w ∈ rest ++ [], ∃ e, w = .plain e ∧ e.Proper := by simpa using others
      exact { h with queue, replies := h.replies_append fun _ => proper.isReply_perform }
    · exact { h with
        queue := others, replies := h.replies_append fun _ => proper.isReply_givenUp }
  · exact h

theorem takeReply (h : s.Sound) (i : ℕ) : (s.takeReply i).Sound :=
  { h with replies := fun a mem => h.replies a (List.mem_of_mem_eraseIdx mem) }

/-- Nothing that happens at a node by itself breaks the invariant. -/
theorem act (h : s.Sound) (e : Event) : (s.act e).Sound := by
  cases e with
  | expect origin x => exact h.expect nofun
  | lose i => exact h.lose i
  | work => exact h.workNext
  | expire id => exact { h with }
  | move m => exact { h with }
  | close => exact { h with }
  | handle q => exact h.submit trivial
  | notice event => exact h.submit trivial
  | make m => exact { h with }
  | stop => exact { h with }

end Sound

/-! ### Late replies at one node -/

/-- A reply that asks for nothing is handed over to the handler of requests. -/
theorem Sound.arrive_late (h : s.Sound) (late : s.Late i) : ∃ m, s.coming[i]? = some m ∧
    m.isReply = true ∧
    s.arrive i = { s with
      coming := s.coming.eraseIdx i
      tasks := s.tasks ++ [(Errand.ofPacket, m)] } := by
  obtain ⟨m, next, reply, unawaited⟩ := late
  refine ⟨m, next, reply, ?_⟩
  have channel := (h.coming m (List.mem_of_getElem? next) reply).channel
  have handled : s.board.handlersOf Channel.remote = [Errand.ofPacket] := by
    rw [Switchboard.handlersOf, h.handlers]
    rfl
  unfold Station.arrive
  rw [next]
  dsimp only
  rw [Switchboard.receive_of_unawaited unawaited, channel, handled]
  rfl

/-- A handler that has a reply in hand does nothing. -/
theorem Sound.runTask_reply (h : s.Sound) {t : Handler × Mail} (next : s.tasks[i]? = some t)
    (reply : t.2.isReply = true) : s.runTask i = { s with tasks := s.tasks.eraseIdx i } := by
  obtain ⟨handler, m⟩ := t
  obtain ⟨rfl, isReply⟩ := h.tasks _ (List.mem_of_getElem? next)
  unfold Station.runTask
  rw [next]
  dsimp only
  rw [(isReply reply).ofPacket]

/-! ### Without the handlers that have replies in hand -/

/-- To be late comes to the same as to be lost. -/
theorem Sound.quiet_arrive_late (h : s.Sound) (late : s.Late i) :
    (s.arrive i).quiet = s.quiet.lose i := by
  obtain ⟨m, -, reply, arrived⟩ := h.arrive_late late
  rw [arrived]
  simp [quiet, Station.lose, reply]

theorem quiet_arrive (timely : ¬ s.Late i) : (s.arrive i).quiet = s.quiet.arrive i := by
  cases next : s.coming[i]? with
  | none => simp [arrive, quiet, next]
  | some m =>
    -- a reply that somebody waits for goes to no handler
    have kept : ((s.board.receive m.packet).1.map (·, m)).filter (fun t => !t.2.isReply) =
        (s.board.receive m.packet).1.map (·, m) := by
      by_cases reply : m.isReply = true
      · have awaited : ∃ id ∈ s.board.requests.waiting, m.packet.id = some id := by
          by_contra none
          push Not at none
          exact timely ⟨m, next, reply, none⟩
        obtain ⟨id, waits, carried⟩ := awaited
        rw [Switchboard.receive_of_awaited waits carried]
        rfl
      · simp [List.filter_map, Function.comp_def, reply]
    simp [arrive, quiet, next, kept]

/-- One element of a list, and what is left without it. -/
theorem exists_split {α : Type} {l : List α} {a : α} (there : l[i]? = some a) :
    ∃ before after, l = before ++ a :: after ∧ before.length = i ∧
      l.eraseIdx i = before ++ after := by
  obtain ⟨short, rfl⟩ := List.getElem?_eq_some_iff.1 there
  refine ⟨l.take i, l.drop (i + 1), ?_, List.length_take_of_le short.le,
    List.eraseIdx_eq_take_drop_succ ..⟩
  rw [← List.drop_eq_getElem_cons short, List.take_append_drop]

/-- A handler runs as well where those that have replies in hand are left out, unless it is one of
them. -/
theorem Sound.quiet_runTask (h : s.Sound) (i : ℕ) :
    (s.runTask i).quiet = s.quiet ∨ ∃ j, (s.runTask i).quiet = s.quiet.runTask j := by
  cases next : s.tasks[i]? with
  | none => exact .inl (by rw [Station.runTask, next])
  | some t =>
    obtain ⟨before, after, all, rfl, rest⟩ := exists_split next
    cases reply : t.2.isReply with
    | true =>
      refine .inl ?_
      rw [h.runTask_reply next reply, quiet, rest]
      simp [quiet, all, reply]
    | false =>
      -- of the handlers before this one only some are left
      refine .inr ⟨(before.filter fun t => !t.2.isReply).length, ?_⟩
      have left : (s.tasks.filter fun t => !t.2.isReply) =
          (before.filter fun t => !t.2.isReply) ++ t :: after.filter fun t => !t.2.isReply := by
        simp [all, reply]
      simp [Station.runTask, quiet, next, rest, left, List.eraseIdx_append_of_length_le]

theorem quiet_act (e : Event) : (s.act e).quiet = s.quiet.act e := by
  cases e with
  | work =>
    show s.workNext.quiet = s.quiet.workNext
    unfold workNext
    show _ = match s.loop.queue with | .item e submits :: rest => _ | [] => _
    split
    · dsimp only
      show quiet (if s.working then _ else _) = if s.working then _ else _
      split <;> rfl
    · rfl
  | _ => rfl

end Station

/-! ### Late replies between two nodes -/

namespace Exchange

variable {s t : Exchange} {p : Side} {f g : Station → Station} {late : Prop}

@[simp] theorem on_self : (s.on p f).station p = f (s.station p) := Function.update_self ..

@[simp] theorem on_of_ne {q : Side} (other : q ≠ p) : (s.on p f).station q = s.station q :=
  Function.update_of_ne other ..

theorem on_congr (same : f (s.station p) = g (s.station p)) : s.on p f = s.on p g := by
  rw [on, on, same]

theorem on_on : (s.on p f).on p g = s.on p fun t => g (f t) := by
  rw [on, on_self]
  exact congrArg Exchange.mk (Function.update_idem ..)

@[simp] theorem on_id : s.on p (fun t => t) = s := congrArg Exchange.mk (Function.update_eq_self ..)

/-- Two nodes that have not heard of anything. -/
def Fresh (s : Exchange) : Prop := ∀ p, (s.station p).Fresh

/-- What has been written as a reply is one, at both nodes. -/
def Sound (s : Exchange) : Prop := ∀ p, (s.station p).Sound

theorem Sound.on (h : s.Sound) (sound : (f (s.station p)).Sound) : (s.on p f).Sound := by
  intro q
  by_cases same : q = p
  · subst same
    rwa [on_self]
  · rw [on_of_ne same]
    exact h q

theorem Sound.send (h : s.Sound) {x : Packet} {isReply : Bool}
    (reply : isReply = true → x.IsReply) : (s.send p x isReply).Sound := by
  unfold Exchange.send
  split
  · exact h.on ((h _).expect reply)
  · exact h

theorem Sound.reply (h : s.Sound) (p : Side) (i : ℕ) : (s.reply p i).Sound := by
  unfold Exchange.reply
  split
  · next origin x next =>
    have isReply : x.IsReply := (h p).replies _ (List.mem_of_getElem? next)
    have rest : (s.on p (·.takeReply i)).Sound := h.on ((h p).takeReply i)
    dsimp only
    split
    · exact rest.send fun _ => isReply
    · exact rest
  · exact h

/-- **What has been written as a reply stays one**, whatever happens. -/
theorem Move.sound (move : Move late s t) (h : s.Sound) : t.Sound := by
  cases move with
  | ask p q id =>
    have sent : (s.send p (q.packet id) false).Sound := h.send nofun
    exact sent.on { sent p with }
  | tell p x => exact h.send nofun
  | reply p i => exact h.reply p i
  | arrive p i => exact h.on ((h p).arrive i)
  | run p i => exact h.on ((h p).runTask i)
  | act p e => exact h.on ((h p).act e)

theorem Moves.sound (moves : Moves late s t) (h : s.Sound) : t.Sound :=
  path_keeps (fun _ _ h move => move.sound h) h moves

/-! ### Without the handlers that have replies in hand -/

theorem quiet_on (h : (f (s.station p)).quiet = g (s.station p).quiet) :
    (s.on p f).quiet = s.quiet.on p g := by
  refine congrArg Exchange.mk (funext fun q => ?_)
  by_cases same : q = p
  · subst same
    rw [on_self, Function.update_self, h]
    rfl
  · rw [on_of_ne same, Function.update_of_ne same]
    rfl

theorem quiet_send (x : Packet) (isReply : Bool) :
    (s.send p x isReply).quiet = s.quiet.send p x isReply := by
  unfold send
  rw [apply_ite quiet]
  exact if_congr Iff.rfl (quiet_on rfl) rfl

theorem quiet_ask (q : RemoteRequest) (id : Uuid) :
    (s.ask p q id).quiet = s.quiet.ask p q id := by
  unfold ask
  rw [← quiet_send]
  exact quiet_on rfl

theorem quiet_reply (i : ℕ) : (s.reply p i).quiet = s.quiet.reply p i := by
  have replies : (s.quiet.station p).replies = (s.station p).replies := rfl
  unfold reply
  rw [replies]
  split
  · next origin x next =>
    dsimp only
    rw [apply_ite quiet, quiet_send, quiet_on (g := (·.takeReply i)) rfl]
    rfl
  · rfl

theorem Fresh.quiet (h : s.Fresh) : s.quiet = s := by
  refine congrArg Exchange.mk (funext fun p => ?_)
  have idle : (s.station p).tasks.filter (fun t => !t.2.isReply) = (s.station p).tasks := by
    rw [(h p).tasks]
    rfl
  rw [Station.quiet, idle]

/-- What happens means nothing, or the same, where the handlers that have replies in hand are left
out and late replies are lost. -/
theorem Move.quiet (move : Move True s t) (h : s.Sound) :
    t.quiet = s.quiet ∨ Move False s.quiet t.quiet := by
  cases move with
  | ask p q id => exact .inr (quiet_ask q id ▸ .ask p q id)
  | tell p x => exact .inr (quiet_send x false ▸ .tell p x)
  | reply p i => exact .inr (quiet_reply i ▸ .reply p i)
  | arrive p i =>
    by_cases late : (s.station p).Late i
    · rw [quiet_on (g := (·.lose i)) ((h p).quiet_arrive_late late)]
      exact .inr (.act p (.lose i))
    · rw [quiet_on (g := (·.arrive i)) (Station.quiet_arrive late)]
      exact .inr (.arrive p i (.inr late))
  | run p i =>
    rcases (h p).quiet_runTask i with same | ⟨j, runs⟩
    · rw [quiet_on (g := fun t => t) same, on_id]
      exact .inl rfl
    · rw [quiet_on (g := (·.runTask j)) runs]
      exact .inr (.run p j)
  | act p e =>
    rw [quiet_on (g := (·.act e)) (Station.quiet_act e)]
    exact .inr (.act p e)

theorem Moves.quiet (moves : Moves True s t) (h : s.Sound) : Moves False s.quiet t.quiet := by
  induction moves with
  | refl => exact .refl
  | tail before move ih =>
    rcases move.quiet (Moves.sound before h) with same | next
    · rwa [same]
    · exact ih.tail next

end Exchange

/-- **Late replies mean nothing.** No answer is ever read as a request. Two nodes ask each other for
things, reply, and wait no longer than they want to, while packets are lost, come from others, and
are handled in any order. Then at any time a reply for which nobody waits, when it arrives, only
comes into the hands of a handler, and a handler that has a reply in hand does nothing when it runs.
So whatever may happen may happen just as well, apart from such handlers, if late replies are
lost. -/
theorem late_replies_inert :
    (∀ (x : Packet) (r : RemoteResponse),
      (x.reply RemoteResponse.codec r).decode RemoteRequest.codec = .error .mismatched) ∧
    ∀ s t : Exchange, s.Fresh → s.Moves True t →
      (∀ p i, (t.station p).Late i → ∃ m, (t.station p).coming[i]? = some m ∧ m.isReply = true ∧
        t.on p (·.arrive i) = t.on p fun n => { n with
          coming := n.coming.eraseIdx i
          tasks := n.tasks ++ [(Errand.ofPacket, m)] }) ∧
      (∀ p i task, (t.station p).tasks[i]? = some task → task.2.isReply = true →
        t.on p (·.runTask i) = t.on p fun n => { n with tasks := n.tasks.eraseIdx i }) ∧
      s.Moves False t.quiet := by
  refine ⟨RemoteResponse.decode_reply, fun s t fresh moves => ?_⟩
  have start : s.Sound := fun p => (fresh p).sound
  have sound : t.Sound := moves.sound start
  refine ⟨fun p i late => ?_, fun p i task next reply => ?_, ?_⟩
  · obtain ⟨m, next, reply, arrived⟩ := (sound p).arrive_late late
    exact ⟨m, next, reply, Exchange.on_congr arrived⟩
  · exact Exchange.on_congr ((sound p).runTask_reply next reply)
  · have quiet := moves.quiet start
    rwa [fresh.quiet] at quiet

/-! ### A small run -/

namespace Exchange

/-- A node that is linked to another one. -/
def linked (n : Node) (peer : NodeId) : Station where
  board := {
    identity := n.identity
    secret := "secret"
    allowed := [peer]
    table := (LinkTable.attachPeer { home := n.identity.id } peer true).2
    handlers := Handler.installed }
  loop := { state := n, ticksPerSecond := 10 }

/-- The second node has a worker, of which the first one has heard. -/
def apart : Exchange := ⟨fun
  | .left => linked Node.borrower "node-2"
  | .right => linked Node.lender "node-1"⟩

/-- The first node asks for the worker to be started and does not wait until the second one has
done so. -/
def overdue : Exchange :=
  ((((apart.ask .left (.worker Node.startLent) (.ofNat 9)).on .right (·.arrive 0)).on .right
    (·.runTask 0)).on .left (·.act (.expire (.ofNat 9)))).on .right (·.act .work) |>.reply .right 0

theorem fresh_apart : apart.Fresh
  | .left => ⟨rfl, rfl, rfl, rfl, rfl⟩
  | .right => ⟨rfl, rfl, rfl, rfl, rfl⟩

theorem moves_overdue : apart.Moves True overdue :=
  .head (.ask .left (.worker Node.startLent) (.ofNat 9)) <|
    .head (.arrive .right 0 (.inl trivial)) <| .head (.run .right 0) <|
    .head (.act .left (.expire (.ofNat 9))) <| .head (.act .right .work) <|
    .single (.reply .right 0)

/-- The reply has been sent, and nobody waits for it any more. -/
theorem late_overdue : (overdue.station .left).Late 0 := by
  have coming : (overdue.station .left).coming.map (·.isReply) = [true] := by decide +kernel
  have waiting : (overdue.station .left).board.requests.waiting = [] := by decide +kernel
  obtain ⟨m, only, reply⟩ := List.map_eq_singleton_iff.1 coming
  refine ⟨m, by rw [only]; rfl, reply, ?_⟩
  rw [waiting]
  exact nofun

end Exchange

open Exchange in
/-- The worker has been started, and that is all. The reply arrives, a handler runs, and all is as
if the reply had been lost. -/
theorem overdue_inert : apart.Fresh ∧ apart.Moves True overdue ∧ (overdue.station .left).Late 0 ∧
    (overdue.station .right).loop.state.supervisor.ownedRecords.map (·.lifecycle) = [.running] ∧
    (overdue.on .left (·.arrive 0)).on .left (·.runTask 0) = overdue.on .left (·.lose 0) := by
  refine ⟨fresh_apart, moves_overdue, late_overdue, by decide +kernel, ?_⟩
  have idle : (overdue.station .left).tasks = [] := by decide +kernel
  have moves : apart.Moves True (overdue.on .left (·.arrive 0)) :=
    moves_overdue.tail (.arrive .left 0 (.inl trivial))
  obtain ⟨m, -, reply, arrived⟩ :=
    (late_replies_inert.2 apart overdue fresh_apart moves_overdue).1 .left 0 late_overdue
  have inHand : ((overdue.on .left (·.arrive 0)).station .left).tasks[0]? =
      some (Errand.ofPacket, m) := by
    simp [arrived, idle]
  rw [(late_replies_inert.2 apart _ fresh_apart moves).2.1 .left 0 _ inHand reply, arrived, on_on]
  refine on_congr ?_
  simp [Station.lose, idle]

end WorkerCluster
