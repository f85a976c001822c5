import WorkerCluster.Proofs.Link.Joining
import WorkerCluster.Proofs.Runs

/-!
# Switchboards that are shut down

A node takes connections and opens others, and each becomes a link once the other side has been let
in. At any time the node may be shut down: those who take connections are told, then the links are
closed, those to peers first.

* `Closing` is the node with its tasks, `Closing.Move` is what may happen, `Closing.run` lets it
  happen. `run_shut` says that the steps of a shutdown make up `Switchboard.shutdown`.
* `board_make` says what a move does to the links. `link_make` says which moves bring one behind the
  shutdown, `late_of_linked` what that means for a run. `unlinked_of_idle` says when there are none.
* `exists_link_taken` and `exists_link_connect` say that nothing keeps a connection from becoming a
  link then.
* `final_iff` is the main statement: the links that there are after the shutdown, and the moves that
  bring more of them.
-/

namespace WorkerCluster

namespace LinkTable

variable {t : LinkTable} {o : Origin} {l : Link}

/-- Whose link a move registers. -/
def Move.Registers : Move → Origin → Prop
  | .attachPeer node _, o => o = .peer node
  | .attachWorker worker, o => o = .worker worker.uuid
  | _, _ => False

/-- A link that there is after a move was there before, or the move registers it. -/
theorem link?_of_perform {m : Move} (found : (t.perform m).2.link? o = some l) :
    t.link? o = some l ∨ m.Registers o := by
  have attached {p : Origin} {e : LinkEffect} {u : LinkTable} (change : Change t p e u)
      (found : u.link? o = some l) : t.link? o = some l ∨ o = p :=
    (change.before_or_new found).imp_right (·.1)
  have erased (p : Origin) {u : LinkTable}
      (links : ∀ o, u.link? o = if o = p then none else t.link? o)
      (found : u.link? o = some l) : t.link? o = some l := by
    rw [links] at found
    split at found
    · cases found
    · exact found
  cases m with
  | attachPeer node dialed => exact attached (attachPeer_change t node dialed) found
  | attachWorker w => exact attached (attachWorker_change t w) found
  | finish c p =>
    refine .inl ?_
    cases p with
    | peer node =>
      simp only [perform, finish] at found
      split at found
      · refine erased (.peer node) ?_ found
        exact link?_erasePeer rfl rfl
      · exact found
    | worker id =>
      simp only [perform, finish] at found
      split at found
      · split at found
        · refine erased (.worker id) ?_ found
          exact link?_eraseWorker rfl rfl
        · exact found
      · exact found
  | disconnect node =>
    refine .inl ?_
    simp only [perform, disconnect] at found
    split at found
    · refine erased (.peer node) ?_ found
      exact link?_erasePeer rfl rfl
    · exact found
  | closeAll => cases o <;> cases found

/-- Whoever is registered has a link then: the new one, or the one that is kept. -/
theorem exists_link?_of_registers {m : Move} (registers : m.Registers o) :
    ∃ l, (t.perform m).2.link? o = some l := by
  cases m with
  | attachPeer node dialed =>
    obtain rfl := registers
    cases found : t.link? (.peer node) with
    | none => exact ⟨_, link?_attachPeer found dialed⟩
    | some old =>
      have found : t.peers.find? node = some old := found
      simp only [perform, attachPeer, found]
      split
      · exact ⟨old, found⟩
      · exact ⟨⟨t.next, dialed⟩, by simp [link?]⟩
  | attachWorker w =>
    obtain rfl := registers
    exact ⟨⟨t.next, false⟩, by simp [perform, attachWorker, link?]⟩
  | finish => exact registers.elim
  | disconnect => exact registers.elim
  | closeAll => exact registers.elim

end LinkTable

/-! ### The system -/

namespace Closing

/-- How far a shutdown has come. -/
inductive Phase
  /-- Nobody has asked for it. -/
  | running
  /-- Those who take connections are told. -/
  | announced
  /-- The links to peers have been closed. -/
  | peersClosed
  /-- So have those to workers. -/
  | workersClosed
  /-- The requests have been given up, and nothing is left to be done. -/
  | finished
  deriving DecidableEq

/-- Whether a link to someone has been closed by then. -/
def Phase.Drained : Phase → Origin → Prop
  | .running, _ | .announced, _ => False
  | .peersClosed, .peer _ => True
  | .peersClosed, .worker _ => False
  | .workersClosed, _ | .finished, _ => True

/-- A task that takes the connections at an address. -/
inductive Taker
  | starting
  | taking
  | ended
  deriving DecidableEq

/-- A connection on its way to become a link. -/
inductive Attempt
  /-- The node has taken it, and the other side has not said who it is. -/
  | taken
  /-- The node has opened it, and the other side has not answered. -/
  | opened
  /-- The other side has been let in. It remains to register the link. -/
  | admitted (m : LinkTable.Move)
  /-- It is a link, or nothing has come of it. -/
  | past
  deriving DecidableEq

/-- A connection that the node opens, and on which it says who it is. -/
def Attempt.dial {η : Type} (b : Switchboard η) (request : Uuid) : Attempt :=
  match (b.hello request).frame with
  | .ok _ => .opened
  | .error _ => .past

/-- What becomes of a connection when the other side says something. -/
def Attempt.hear {η : Type} (b : Switchboard η) (bytes : ByteArray) : Attempt → Attempt
  | .taken =>
    match b.welcome bytes with
    | (some answer, .ok m) =>
      match answer.frame with
      | .ok _ => .admitted m
      | .error _ => .past
    | _ => .past
  | .opened =>
    match b.enter bytes with
    | .ok m => .admitted m
    | .error _ => .past
  | a => a

end Closing

/-- A node that may be shut down. -/
structure Closing (η : Type) where
  board : Switchboard η
  phase : Closing.Phase := .running
  takers : List Closing.Taker := []
  attempts : List Closing.Attempt := []

namespace Closing

variable {η : Type}

/-- Something that may happen. -/
inductive Move
  /-- Connections are to be taken at another address. -/
  | listen
  /-- A task begins to take them, unless the node is shut down. -/
  | begin (taker : ℕ)
  /-- It takes one. -/
  | take (taker : ℕ)
  /-- It notices that the node is shut down. -/
  | notice (taker : ℕ)
  /-- The node opens a connection. -/
  | connect (request : Uuid)
  /-- The other side says something. -/
  | hear (attempt : ℕ) (bytes : ByteArray)
  /-- Nobody waits for the other side any longer. -/
  | giveUp (attempt : ℕ)
  /-- The link to someone who has been let in is registered. -/
  | attach (attempt : ℕ)
  /-- A connection has come to its end. -/
  | finish (connection : ℕ) (o : Origin)
  /-- The node gives up the link to a peer. -/
  | disconnect (node : NodeId)
  /-- The next step of the shutdown. -/
  | shut

/-- Take the next step of the shutdown. -/
def shut (s : Closing η) : Closing η :=
  match s.phase with
  | .running => { s with phase := .announced }
  | .announced =>
    { s with
      phase := .peersClosed
      board := { s.board with table := { s.board.table with peers := .empty } } }
  | .peersClosed =>
    { s with
      phase := .workersClosed
      board := { s.board with table := { s.board.table with workers := .empty } } }
  | .workersClosed =>
    { s with
      phase := .finished
      board := { s.board with requests := s.board.requests.abandon } }
  | .finished => s

/-- Let it happen. -/
def make (s : Closing η) : Move → Closing η
  | .listen => { s with takers := s.takers ++ [.starting] }
  | .begin i =>
    match s.takers[i]? with
    | some .starting =>
      { s with takers := s.takers.set i (if s.phase = .running then .taking else .ended) }
    | _ => s
  | .take i =>
    match s.takers[i]? with
    | some .taking => { s with attempts := s.attempts ++ [.taken] }
    | _ => s
  | .notice i =>
    match s.takers[i]? with
    | some .taking => if s.phase = .running then s else { s with takers := s.takers.set i .ended }
    | _ => s
  | .connect id => { s with attempts := s.attempts ++ [.dial s.board id] }
  | .hear k bytes => { s with attempts := s.attempts.modify k (Attempt.hear s.board bytes) }
  | .giveUp k => { s with attempts := s.attempts.modify k fun _ => .past }
  | .attach k =>
    match s.attempts[k]? with
    | some (.admitted m) =>
      { s with board := (s.board.move m).2, attempts := s.attempts.set k .past }
    | _ => s
  | .finish c o => { s with board := (s.board.move (.finish c o)).2 }
  | .disconnect node => { s with board := (s.board.move (.disconnect node)).2 }
  | .shut => s.shut

/-- All steps of the shutdown. -/
def whole : List Move := [.shut, .shut, .shut, .shut]

/-- Let things happen one after the other. -/
def run (s : Closing η) (moves : List Move) : Closing η := moves.foldl make s

/-- The link to someone. -/
def link? (s : Closing η) (o : Origin) : Option Link := s.board.table.link? o

/-- There is no link. -/
def Unlinked (s : Closing η) : Prop := ∀ o, s.link? o = none

/-- All links have been closed that there were. -/
def Drained (s : Closing η) (o : Origin) : Prop := s.phase.Drained o

/-- A connection is one to someone who has been let in. -/
def Brings (s : Closing η) (k : ℕ) (o : Origin) : Prop :=
  ∃ m, s.attempts[k]? = some (.admitted m) ∧ m.Registers o

/-- No connection is on its way to become a link, and none is taken. -/
structure Idle (s : Closing η) : Prop where
  attempts : ∀ a ∈ s.attempts, a = .past
  takers : ∀ t ∈ s.takers, t ≠ .taking

variable {s : Closing η} {o : Origin} {l : Link} {k : ℕ} {b : Switchboard η} {bytes : ByteArray}

theorem run_append (s : Closing η) (past later : List Move) :
    s.run (past ++ later) = (s.run past).run later := List.foldl_append

/-! ### Single steps -/

/-- The steps of a shutdown make up the whole one. -/
theorem run_shut (running : s.phase = .running) :
    s.run whole = { s with phase := .finished, board := s.board.shutdown.2 } := by
  obtain ⟨board, phase, takers, attempts⟩ := s
  obtain rfl := running
  rfl

/-- What a connection that is taken comes to is what `Switchboard.accept` makes of it. -/
theorem accept_board (b : Switchboard η) (bytes : ByteArray) :
    (b.accept bytes).board = match Attempt.taken.hear b bytes with
      | .admitted m => (b.move m).2
      | _ => b := by
  unfold Switchboard.accept Attempt.hear
  obtain ⟨e, -, welcome⟩ | ⟨first, q, e, -, -, welcome⟩ | ⟨first, q, -, -, welcome⟩ :=
    b.welcome_cases bytes
  · rw [welcome]
    rfl
  · rw [welcome]
    dsimp only [Option.elim]
    split <;> rfl
  · rw [welcome]
    dsimp only [Option.elim]
    cases (b.grant first).frame <;> rfl

theorem hear_of_letsIn {first : Packet} {q : JoinRequest} (letsIn : b.LetsIn bytes first q) :
    Attempt.taken.hear b bytes = .admitted (Switchboard.joined q) := by
  obtain ⟨e, silent, -⟩ | ⟨p, r, e, asks, refused, -⟩ | ⟨p, r, asks, -, welcome⟩ :=
    b.welcome_cases bytes
  · exact absurd letsIn.toAsks (silent first q)
  · obtain ⟨rfl, rfl⟩ := asks.unique letsIn.toAsks
    exact absurd letsIn.admits refused
  · obtain ⟨rfl, rfl⟩ := asks.unique letsIn.toAsks
    simp only [Attempt.hear, welcome, Packet.frame_of_fits letsIn.answer]

/-- The shutdown itself brings no link, and behind it only those are left that it has not closed. -/
theorem link_shut (drained : s.shut.Drained o) (found : s.shut.link? o = some l) :
    s.Drained o ∧ s.link? o = some l := by
  obtain ⟨board, phase, takers, attempts⟩ := s
  cases phase with
  | running => exact drained.elim
  | announced =>
    cases o with
    | peer node => cases found
    | worker id => exact drained.elim
  | peersClosed =>
    cases o with
    | peer node => exact ⟨trivial, found⟩
    | worker id => cases found
  | workersClosed => exact ⟨trivial, found⟩
  | finished => exact ⟨trivial, found⟩

theorem phase_make {m : Move} (other : m ≠ .shut) : (s.make m).phase = s.phase := by
  cases m with
  | listen | connect id | hear k bytes | giveUp k | finish c p | disconnect node => rfl
  | begin i => simp only [make]; split <;> rfl
  | take i => simp only [make]; split <;> rfl
  | notice i =>
    simp only [make]
    split
    · split <;> rfl
    · rfl
  | attach k => simp only [make]; split <;> rfl
  | shut => exact absurd rfl other

/-- A move leaves the links alone or changes them once, and the change registers only someone who
has been let in. -/
theorem board_make {m : Move} (other : m ≠ .shut) :
    (s.make m).board = s.board ∨ ∃ change, (s.make m).board = (s.board.move change).2 ∧
      ∀ o, change.Registers o → ∃ k, m = .attach k ∧ s.Brings k o := by
  cases m with
  | listen | connect id | hear k bytes | giveUp k => exact .inl rfl
  | begin i => simp only [make]; split <;> exact .inl rfl
  | take i => simp only [make]; split <;> exact .inl rfl
  | notice i =>
    simp only [make]
    split
    · split <;> exact .inl rfl
    · exact .inl rfl
  | attach k =>
    simp only [make]
    split
    · next change admitted =>
      exact .inr ⟨change, rfl, fun o registers => ⟨k, rfl, change, admitted, registers⟩⟩
    · exact .inl rfl
  | finish c p => exact .inr ⟨.finish c p, rfl, fun o registers => registers.elim⟩
  | disconnect node => exact .inr ⟨.disconnect node, rfl, fun o registers => registers.elim⟩
  | shut => exact absurd rfl other

/-- **Behind the shutdown a move does not bring a link, unless it registers one for someone who has
been let in.** -/
theorem link_make {m : Move} (drained : (s.make m).Drained o)
    (found : (s.make m).link? o = some l) :
    (s.Drained o ∧ s.link? o = some l) ∨ ∃ k, m = .attach k ∧ s.Drained o ∧ s.Brings k o := by
  by_cases shuts : m = .shut
  · subst shuts
    exact .inl (link_shut drained found)
  · rw [Drained, phase_make shuts] at drained
    rcases board_make shuts with same | ⟨change, changed, brings⟩
    · rw [link?, same] at found
      exact .inl ⟨drained, found⟩
    · rw [link?, changed] at found
      rcases LinkTable.link?_of_perform found with before | registers
      · exact .inl ⟨drained, before⟩
      · obtain ⟨k, attaches, brings⟩ := brings o registers
        exact .inr ⟨k, attaches, drained, brings⟩

/-- Someone who has been let in has a link once it is registered, whether or not the node is shut
down. -/
theorem exists_link_attach (brings : s.Brings k o) :
    ∃ l, (s.make (.attach k)).link? o = some l := by
  obtain ⟨m, admitted, registers⟩ := brings
  simp only [make, admitted]
  exact LinkTable.exists_link?_of_registers registers

/-- What has been closed stays closed. -/
theorem Drained.make (h : s.Drained o) (m : Move) : (s.make m).Drained o := by
  by_cases shuts : m = .shut
  · subst shuts
    obtain ⟨board, phase, takers, attempts⟩ := s
    cases phase with
    | running => exact h.elim
    | announced => exact h.elim
    | peersClosed => trivial
    | workersClosed => trivial
    | finished => trivial
  · rw [Drained, phase_make shuts]
    exact h

theorem Drained.run (h : s.Drained o) (moves : List Move) : (s.run moves).Drained o := by
  induction moves generalizing s with
  | nil => exact h
  | cons m moves ih => exact ih (h.make m)

/-! ### Connections on their way -/

/-- A connection becomes a link once the other side has been let in, whether or not the node is shut
down. -/
theorem exists_link_hear {a : Attempt} {m : LinkTable.Move} (there : s.attempts[k]? = some a)
    (heard : a.hear s.board bytes = .admitted m) (registers : m.Registers o) :
    ∃ l, (s.run [.hear k bytes, .attach k]).link? o = some l := by
  refine exists_link_attach ⟨m, ?_, registers⟩
  show (s.attempts.modify k (Attempt.hear s.board bytes))[k]? = _
  rw [List.getElem?_modify_eq, there, Option.map_eq_map, Option.map_some, heard]

/-- So does one that it has taken. -/
theorem exists_link_taken {first : Packet} {q : JoinRequest} (there : s.attempts[k]? = some .taken)
    (letsIn : s.board.LetsIn bytes first q) :
    ∃ o l, (s.run [.hear k bytes, .attach k]).link? o = some l := by
  have heard := hear_of_letsIn letsIn
  cases q with
  | node node secret => exact ⟨.peer node.id, exists_link_hear there heard rfl⟩
  | worker worker secret => exact ⟨.worker worker.uuid, exists_link_hear there heard rfl⟩

/-- And so does one that it opens only then. -/
theorem exists_link_connect {id : Uuid} {m : LinkTable.Move} (fits : (s.board.hello id).Fits)
    (entered : s.board.enter bytes = .ok m) :
    ∃ o l, (s.run [.connect id, .hear s.attempts.length bytes,
      .attach s.attempts.length]).link? o = some l := by
  obtain ⟨-, node, -, -, -, attaches⟩ := Switchboard.enter_ok_iff.1 entered
  have dials : Attempt.dial s.board id = .opened := by
    simp only [Attempt.dial, Packet.frame_of_fits fits]
  have there : (s.make (.connect id)).attempts[s.attempts.length]? = some .opened := by
    rw [← dials]
    exact List.getElem?_concat_length
  have heard : Attempt.opened.hear s.board bytes = .admitted m := by
    simp only [Attempt.hear, entered]
  exact ⟨.peer node.id, exists_link_hear (s := s.make (.connect id)) there heard (attaches ▸ rfl)⟩

/-! ### Runs -/

/-- **A link that there is behind the shutdown came behind it**, and has been kept since. -/
theorem late_of_linked {moves : List Move} (before : ¬ (s.Drained o ∧ s.link? o = some l))
    (drained : (s.run moves).Drained o) (found : (s.run moves).link? o = some l) :
    ∃ past k later, moves = past ++ .attach k :: later ∧ (s.run past).Drained o ∧
      (s.run past).Brings k o ∧
      ∀ h, h <+: later → (s.run (past ++ .attach k :: h)).link? o = some l := by
  obtain ⟨past, m, later, rfl, ⟨k, rfl, closed, brings⟩, since⟩ :=
    foldl_since (f := make) (P := fun s => s.Drained o ∧ s.link? o = some l)
      (fun _ _ now => link_make now.1 now.2) before ⟨drained, found⟩
  exact ⟨past, k, later, rfl, closed, brings, fun h part => (since h part).2⟩

/-! ### Idle nodes -/

/-- Connections of which nothing comes stay so. -/
theorem past_of_mem_modify {l : List Attempt} (h : ∀ a ∈ l, a = .past) {f : Attempt → Attempt}
    (hf : f .past = .past) {a : Attempt} (mem : a ∈ l.modify k f) : a = .past := by
  obtain ⟨i, found⟩ := List.mem_iff_getElem?.1 mem
  rw [List.getElem?_modify] at found
  obtain ⟨b, there, rfl⟩ := Option.map_eq_some_iff.1 found
  rw [h b (List.mem_of_getElem? there)]
  split
  · exact hf
  · rfl

theorem told_make (told : s.phase ≠ .running) (m : Move) : (s.make m).phase ≠ .running := by
  by_cases shuts : m = .shut
  · subst shuts
    obtain ⟨board, phase, takers, attempts⟩ := s
    cases phase with
    | running => exact absurd rfl told
    | announced | peersClosed | workersClosed | finished => exact Phase.noConfusion
  · rwa [phase_make shuts]

/-- Once those who take connections have been told, none is on its way unless the node opens one. -/
theorem Idle.make (h : s.Idle) (told : s.phase ≠ .running) {m : Move}
    (other : ∀ id, m ≠ .connect id) : (s.make m).Idle := by
  have pending {k : ℕ} {a : Attempt} (found : s.attempts[k]? = some a) : a = .past :=
    h.attempts a (List.mem_of_getElem? found)
  have idle {i : ℕ} {t : Taker} (found : s.takers[i]? = some t) : t ≠ .taking :=
    h.takers t (List.mem_of_getElem? found)
  cases m with
  | listen =>
    refine ⟨h.attempts, fun t mem => ?_⟩
    rcases List.mem_append.1 mem with mem | mem
    · exact h.takers t mem
    · rw [List.mem_singleton.1 mem]
      exact Taker.noConfusion
  | begin i =>
    simp only [Closing.make]
    split
    · refine ⟨h.attempts, fun t mem => ?_⟩
      rw [if_neg told] at mem
      rcases List.mem_or_eq_of_mem_set mem with mem | rfl
      · exact h.takers t mem
      · exact Taker.noConfusion
    · exact h
  | take i =>
    simp only [Closing.make]
    split
    · next found => exact absurd rfl (idle found)
    · exact h
  | notice i =>
    simp only [Closing.make]
    split
    · next found => exact absurd rfl (idle found)
    · exact h
  | connect id => exact absurd rfl (other id)
  | hear k bytes => exact ⟨fun a mem => past_of_mem_modify h.attempts rfl mem, h.takers⟩
  | giveUp k => exact ⟨fun a mem => past_of_mem_modify h.attempts rfl mem, h.takers⟩
  | attach k =>
    simp only [Closing.make]
    split
    · next found => cases pending found
    · exact h
  | finish c p => exact ⟨h.attempts, h.takers⟩
  | disconnect node => exact ⟨h.attempts, h.takers⟩
  | shut =>
    obtain ⟨board, phase, takers, attempts⟩ := s
    cases phase <;> exact ⟨h.attempts, h.takers⟩

theorem Idle.run (h : s.Idle) (told : s.phase ≠ .running) {moves : List Move}
    (alone : ∀ id, .connect id ∉ moves) : (s.run moves).Idle := by
  induction moves generalizing s with
  | nil => exact h
  | cons m moves ih =>
    have idle := h.make told fun id same => alone id (same ▸ List.mem_cons_self)
    exact ih idle (told_make told m) fun id mem => alone id (List.mem_cons_of_mem _ mem)

/-- **If no connection is on its way when those who take them are told, and the node opens none,
then what the shutdown has closed stays without links.** -/
theorem unlinked_of_idle (announced : s.phase = .announced) (idle : s.Idle) {moves : List Move}
    (alone : ∀ id, .connect id ∉ moves) (drained : (s.run moves).Drained o) :
    (s.run moves).link? o = none := by
  refine Option.eq_none_iff_forall_ne_some.2 fun l found => ?_
  have before : ¬ (s.Drained o ∧ s.link? o = some l) := by
    rw [Drained, announced]
    exact fun h => h.1
  obtain ⟨past, k, later, rfl, -, ⟨m, admitted, -⟩, -⟩ := late_of_linked before drained found
  have told : s.phase ≠ .running := by
    rw [announced]
    exact Phase.noConfusion
  have earlier : (s.run past).Idle :=
    idle.run told fun id mem => alone id (List.mem_append_left _ mem)
  cases earlier.attempts _ (List.mem_of_getElem? admitted)

/-! ### Shutdown -/

/-- **What a shutdown leaves.** Once it is finished, there are exactly the links that have come
behind it and have been kept since; and there are none from then on exactly if there are none then
and nobody is registered any more who has been let in. -/
theorem final_iff (running : s.phase = .running) {past : List Move}
    (finished : (s.run past).phase = .finished) :
    (∀ o l, (s.run past).link? o = some l ↔
      ∃ before k after, past = before ++ .attach k :: after ∧ (s.run before).Drained o ∧
        (s.run before).Brings k o ∧
        ∀ h, h <+: after → (s.run (before ++ .attach k :: h)).link? o = some l) ∧
    ∀ later, (∀ h, h <+: later → (s.run (past ++ h)).Unlinked) ↔
      (s.run past).Unlinked ∧ ∀ before k after, later = before ++ .attach k :: after →
        ∀ o, ¬ (s.run (past ++ before)).Brings k o := by
  have closed (o : Origin) : (s.run past).Drained o := by
    rw [Drained, finished]
    trivial
  constructor
  · intro o l
    have before : ¬ (s.Drained o ∧ s.link? o = some l) := by
      rw [Drained, running]
      exact fun h => h.1
    constructor
    · exact late_of_linked before (closed o)
    · rintro ⟨before, k, after, rfl, -, -, since⟩
      exact since after (List.prefix_refl _)
  · intro later
    constructor
    · intro none
      refine ⟨?_, fun before k after split o brings => ?_⟩
      · simpa using none [] List.nil_prefix
      · obtain ⟨l, found⟩ := exists_link_attach brings
        have part : before ++ [.attach k] <+: later := ⟨after, by simp [split]⟩
        have gone := none _ part o
        rw [← List.append_assoc, run_append] at gone
        exact Option.some_ne_none l (found.symm.trans gone)
    · rintro ⟨none, nobody⟩ h ⟨rest, rfl⟩ o
      refine Option.eq_none_iff_forall_ne_some.2 fun l found => ?_
      rw [run_append] at found
      have before : ¬ ((s.run past).Drained o ∧ (s.run past).link? o = some l) := by
        rw [none o]
        exact fun h => nomatch h.2
      obtain ⟨before, k, after, rfl, -, brings, -⟩ :=
        late_of_linked before ((closed o).run h) found
      rw [← run_append] at brings
      exact nobody before k (after ++ rest) (by simp) o brings

/-! ### Small runs -/

/-- A node that has no links. -/
def fresh : Closing Unit where
  board := Joining.steady.listener.board

/-- It takes a connection, and is shut down before the other side says who it is. -/
def straddled : List Move := [.listen, .begin 0, .take 0] ++ whole

/-- Nothing comes of a connection on which nobody waits any longer. -/
theorem straddled_giveUp : fresh.phase = .running ∧ (fresh.run straddled).phase = .finished ∧
    ∀ h, h <+: [.giveUp 0, .attach 0] → (fresh.run (straddled ++ h)).Unlinked := by
  have finished : (fresh.run straddled).phase = .finished := rfl
  obtain ⟨-, later⟩ := final_iff rfl finished
  refine ⟨rfl, finished, (later [.giveUp 0, .attach 0]).2 ⟨?_, ?_⟩⟩
  · rintro (node | id) <;> rfl
  · rintro before k after split o ⟨m, admitted, -⟩
    obtain - | ⟨move, - | ⟨next, before⟩⟩ := before
    · cases split
    · cases split
      cases admitted
    · simp at split

/-- But it becomes a link once the other side has said so. -/
theorem not_unlinked_of_finished : ¬ ∀ (s : Closing Unit) (past later : List Move),
    s.phase = .running → (s.run past).phase = .finished →
      (s.run past).Unlinked ∧ (s.run (past ++ later)).Unlinked := by
  intro final
  have agreed := Joining.steady_agreed
  have letsIn : fresh.board.LetsIn Joining.steady.hello.framed Joining.steady.hello
      (.node Joining.steady.dialer.board.identity "s") :=
    (Switchboard.letsIn_hello agreed.hello).2
      ⟨⟨rfl, rfl⟩, agreed.portable, ⟨rfl, agreed.distinct, agreed.allowed⟩, agreed.answer⟩
  obtain ⟨o, l, found⟩ := exists_link_taken (s := fresh.run straddled) (k := 0) rfl letsIn
  rw [← run_append] at found
  exact Option.some_ne_none l (found.symm.trans ((final fresh straddled _ rfl rfl).2 o))

end Closing

end WorkerCluster
