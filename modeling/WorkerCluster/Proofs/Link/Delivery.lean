import Mathlib.Data.List.TakeWhile
import WorkerCluster.Link.Writer
import WorkerCluster.Proofs.Link.Table
import WorkerCluster.Proofs.Packet.Stream

/-!
# What arrives over a link

A packet that is sent over a link waits until the writing end of the link writes it, and the other
side reads it then. Each side gives the link up when it has read all that there is and the other one
has closed the connection.

* `Delivery` is a link with both its ends, `Delivery.End` is one of them. `Delivery.Move` is what
  may happen, `Delivery.run` lets it happen.
* `Delivery.Progress` says where all that has been sent is, `Delivery.Sound` is what always holds:
  one lemma for every kind of move, `Sound.make` for all of them, `Sound.run` for runs.
* `Sound.quiet_cases` is what has become of a link in the end, `Sound.exists_quiet` says that it can
  always come to its end.
* `delivered_iff` is the main statement. In the run `spill` a packet cannot be framed.
-/

namespace WorkerCluster

variable {p : Packet} {packets : List Packet}

/-! ### Writing and reading -/

namespace Writer

variable {w : Writer}

/-- A packet that can be framed is written. -/
theorem step_of_fits {rest : List Packet} (next : w.queue = p :: rest) (fits : p.Fits) :
    w.step = { w with queue := rest, written := w.written ++ p.framed } := by
  unfold step
  rw [next]
  dsimp only
  rw [Packet.frame_of_fits fits]

/-- One that cannot closes the end, and those behind it are lost with it. -/
theorem step_of_not_fits {rest : List Packet} (next : w.queue = p :: rest) (large : ¬ p.Fits) :
    w.step = { w with queue := [], isOpen := false } := by
  obtain ⟨e, refused⟩ := Packet.frame_of_not_fits large
  unfold step
  rw [next]
  dsimp only
  rw [refused]

theorem step_of_nil (next : w.queue = []) : w.step = w := by
  unfold step
  rw [next]

end Writer

namespace Packet

theorem stream_nil : stream [] = .empty := rfl

theorem stream_cons (p : Packet) (packets : List Packet) :
    stream (p :: packets) = p.framed ++ stream packets := rfl

theorem stream_concat (packets : List Packet) (p : Packet) :
    stream (packets ++ [p]) = stream packets ++ p.framed := by
  induction packets with
  | nil => rw [List.nil_append, stream_cons, stream_nil, ByteArray.empty_append,
      ByteArray.append_empty]
  | cons q packets ih => rw [List.cons_append, stream_cons, stream_cons, ih, ByteArray.append_assoc]

theorem stream_eq_empty (h : stream packets = .empty) : packets = [] := by
  cases packets with
  | nil => rfl
  | cons p packets =>
    have size := congrArg ByteArray.size h
    rw [stream_cons, ByteArray.size_append, size_framed] at size
    have empty : ByteArray.empty.size = 0 := rfl
    omega

end Packet

/-! ### The system -/

namespace Delivery

/-- One end of a link. -/
structure End where
  table : LinkTable
  /-- Who is at the other end. -/
  other : Origin
  link : Link
  /-- Whether the end of the connection has not been followed. -/
  isOpen : Bool := true

/-- Follow the end of the connection. -/
def End.finish (e : End) : End :=
  { e with table := (e.table.finish e.link.connection e.other).2, isOpen := false }

/-- Whether the link is registered. -/
def End.Registered (e : End) : Prop := e.table.link? e.other = some e.link

/-- The ends of a link. -/
inductive Role
  | sender
  | receiver

end Delivery

/-- A link over which packets are sent. -/
structure Delivery where
  sender : Delivery.End
  receiver : Delivery.End
  /-- The writing end. What has been written and has not been read is on its way. -/
  writer : Writer := {}
  /-- Whether the writing end is gone after it has been closed. Until then packets are taken, and
  lost. -/
  gone : Bool := false
  /-- The packets that have been taken, in order. -/
  sent : List Packet := []
  /-- The packets that have arrived, in order. -/
  read : List Packet := []

namespace Delivery

/-- The node at one end. -/
def place (s : Delivery) : Role → End
  | .sender => s.sender
  | .receiver => s.receiver

/-- Something that may happen. -/
inductive Move
  /-- A packet is sent. -/
  | send (p : Packet)
  /-- The next packet is written. -/
  | write
  /-- The writing end goes away after it has been closed. -/
  | drop
  /-- The next packet is read. -/
  | read
  /-- One side follows the end of the connection: the receiver when it has read all that has been
  written and the writing end is closed, the sender when the receiver has closed the connection. -/
  | finish (r : Role)
  /-- The other links of one side change. -/
  | elsewhere (r : Role) (m : LinkTable.Move)

/-- Changes elsewhere are not about the link. -/
def Allowed (s : Delivery) : Move → Prop
  | .elsewhere r m => ∃ o, m.origin? = some o ∧ o ≠ (s.place r).other
  | _ => True

/-- Let it happen. -/
def make (s : Delivery) : Move → Delivery
  | .send p =>
    if s.sender.isOpen then
      let (taken, writer) := s.writer.send p
      if taken || !s.gone then { s with writer, sent := s.sent ++ [p] } else s
    else s
  | .write => { s with writer := s.writer.step }
  | .drop => { s with gone := s.gone || !s.writer.isOpen }
  | .read =>
    match Packet.readFrame s.writer.written with
    | (.ok (some p), written) => { s with
        writer := { s.writer with written }
        read := s.read ++ [p] }
    | _ => s
  | .finish .receiver =>
    if s.receiver.isOpen && !s.writer.isOpen && s.writer.written.size = 0 then
      { s with receiver := s.receiver.finish }
    else s
  | .finish .sender =>
    if s.sender.isOpen && !s.receiver.isOpen then { s with sender := s.sender.finish } else s
  | .elsewhere .sender m =>
    { s with sender := { s.sender with table := (s.sender.table.perform m).2 } }
  | .elsewhere .receiver m =>
    { s with receiver := { s.receiver with table := (s.receiver.table.perform m).2 } }

/-- Let things happen one after the other. -/
def run (s : Delivery) (moves : List Move) : Delivery := moves.foldl make s

/-- Both sides have a link, and nothing has been sent. -/
structure Start (s : Delivery) : Prop where
  untouched : s = { sender := s.sender, receiver := s.receiver }
  tables : ∀ r, (s.place r).table.Sound
  registered : ∀ r, (s.place r).Registered
  isOpen : ∀ r, (s.place r).isOpen = true

/-- Everything has been written and read, and the end of the connection has been followed if the
writing end is closed. -/
structure Quiet (s : Delivery) : Prop where
  queue : s.writer.queue = []
  written : s.writer.written = .empty
  followed : s.writer.isOpen = false → ∀ r, (s.place r).isOpen = false

/-! ### What always holds -/

/-- The link is registered until the end of the connection has been followed. -/
structure End.Sound (e : End) : Prop where
  keyed : e.table.workers.KeyedBy (·.1.uuid)
  link : e.table.link? e.other = if e.isOpen then some e.link else none

/-- What has been sent has arrived, is on its way, or is left to be written. If the writing end is
closed, the first of those that are left is one that cannot be framed. -/
structure Progress (s : Delivery) (onWay left : List Packet) : Prop where
  sent : s.sent = s.read ++ onWay ++ left
  fits : ∀ p ∈ s.read ++ onWay, p.Fits
  written : s.writer.written = Packet.stream onWay
  queue : s.writer.queue = if s.writer.isOpen then left else []
  blocked : s.writer.isOpen = false → ∃ p more, left = p :: more ∧ ¬ p.Fits

/-- What always holds. -/
structure Sound (s : Delivery) : Prop where
  ends : ∀ r, (s.place r).Sound
  progress : ∃ onWay left, s.Progress onWay left
  /-- The receiver follows the end of the connection when it has read everything, and the sender
  after it. -/
  receiver : s.receiver.isOpen = false → s.writer.isOpen = false ∧ s.writer.written = .empty
  sender : s.sender.isOpen = false → s.receiver.isOpen = false

variable {s t : Delivery}

theorem Start.sound (h : s.Start) : s.Sound := by
  have ends : ∀ r, (s.place r).Sound := fun r =>
    ⟨(h.tables r).keyed, (h.registered r).trans (by rw [h.isOpen r]; rfl)⟩
  have receiver : s.receiver.isOpen = true := h.isOpen .receiver
  have sender : s.sender.isOpen = true := h.isOpen .sender
  rw [h.untouched] at ends ⊢
  refine ⟨ends, ⟨[], [], rfl, nofun, rfl, rfl, nofun⟩, fun closed => ?_, fun closed => ?_⟩
  · cases receiver.symm.trans closed
  · cases sender.symm.trans closed

/-! ### What one move does -/

theorem End.Sound.perform {e : End} (h : e.Sound) {m : LinkTable.Move} {o : Origin}
    (about : m.origin? = some o) (other : o ≠ e.other) :
    ({ e with table := (e.table.perform m).2 } : End).Sound where
  keyed := LinkTable.keyed_perform h.keyed m
  link := ((LinkTable.perform_change h.keyed about).others _ other.symm).trans h.link

theorem End.Sound.finish {e : End} (h : e.Sound) (registered : e.isOpen = true) :
    e.finish.Sound where
  keyed := LinkTable.keyed_perform h.keyed (.finish e.link.connection e.other)
  link := LinkTable.link?_finish (h.link.trans (if_pos registered))

theorem make_send_of_open (registered : s.sender.isOpen = true) (writes : s.writer.isOpen = true)
    (p : Packet) : s.make (.send p) = { s with
      writer := { s.writer with queue := s.writer.queue ++ [p] }
      sent := s.sent ++ [p] } := by
  simp [make, Writer.send, registered, writes]

/-- A packet that is taken after the writing end has been closed is lost. -/
theorem make_send_of_closed (registered : s.sender.isOpen = true)
    (closed : s.writer.isOpen = false) (p : Packet) :
    s.make (.send p) = if s.gone then s else { s with sent := s.sent ++ [p] } := by
  cases gone : s.gone <;> simp [make, Writer.send, registered, closed, gone]

theorem make_send_of_unregistered (registered : s.sender.isOpen = false) (p : Packet) :
    s.make (.send p) = s := by
  simp [make, registered]

theorem Sound.send (h : s.Sound) (p : Packet) : (s.make (.send p)).Sound := by
  obtain ⟨onWay, left, progress⟩ := h.progress
  cases registered : s.sender.isOpen with
  | false =>
    rw [make_send_of_unregistered registered]
    exact h
  | true =>
    cases writes : s.writer.isOpen with
    | true =>
      -- the packet is the last one that is left
      rw [make_send_of_open registered writes]
      refine ⟨h.ends, ⟨onWay, left ++ [p], ?_⟩, fun closed => ?_, h.sender⟩
      · refine ⟨?_, progress.fits, progress.written, ?_, fun closed => ?_⟩
        · simp [progress.sent]
        · simp [progress.queue, writes]
        · cases writes.symm.trans closed
      · cases writes.symm.trans (h.receiver closed).1
    | false =>
      rw [make_send_of_closed registered writes]
      split
      · exact h
      · -- it is lost behind the one that could not be framed
        obtain ⟨q, more, rfl, large⟩ := progress.blocked writes
        refine ⟨h.ends, ⟨onWay, q :: (more ++ [p]), ?_⟩, h.receiver, h.sender⟩
        refine ⟨?_, progress.fits, progress.written, ?_, fun _ => ⟨q, _, rfl, large⟩⟩
        · simp [progress.sent]
        · simp [progress.queue, writes]

theorem Sound.write (h : s.Sound) : (s.make .write).Sound := by
  obtain ⟨onWay, left, progress⟩ := h.progress
  unfold make
  dsimp only
  cases waiting : s.writer.queue with
  | nil =>
    rw [Writer.step_of_nil waiting]
    exact h
  | cons p rest =>
    have writes : s.writer.isOpen = true := by
      by_contra closed
      have queue := progress.queue
      rw [if_neg closed, waiting] at queue
      cases queue
    have left_eq : left = p :: rest := by
      have queue := progress.queue
      rw [if_pos writes, waiting] at queue
      exact queue.symm
    subst left_eq
    have alive : s.receiver.isOpen = true := by
      by_contra closed
      cases writes.symm.trans (h.receiver (by simpa using closed)).1
    by_cases fits : p.Fits
    · rw [Writer.step_of_fits waiting fits]
      refine ⟨h.ends, ⟨onWay ++ [p], rest, ?_⟩, fun closed => ?_, h.sender⟩
      · refine ⟨?_, ?_, ?_, (if_pos writes).symm, fun closed => ?_⟩
        · simp [progress.sent]
        · have := progress.fits
          simp only [← List.append_assoc, List.forall_mem_append] at this ⊢
          exact ⟨this, List.forall_mem_singleton.2 fits⟩
        · show s.writer.written ++ p.framed = _
          rw [progress.written, Packet.stream_concat]
        · cases writes.symm.trans closed
      · cases alive.symm.trans closed
    · rw [Writer.step_of_not_fits waiting fits]
      refine ⟨h.ends, ⟨onWay, p :: rest, ?_⟩, fun closed => ?_, h.sender⟩
      · exact ⟨progress.sent, progress.fits, progress.written, rfl, fun _ => ⟨p, rest, rfl, fits⟩⟩
      · cases alive.symm.trans closed

/-- The next packet that is on its way is read. -/
theorem Progress.read {onWay left : List Packet} (h : s.Progress (p :: onWay) left) :
    s.make .read = { s with
      writer := { s.writer with written := Packet.stream onWay }
      read := s.read ++ [p] } ∧ (s.make .read).Progress onWay left := by
  have fits : p.Fits := h.fits p (by simp)
  have made : s.make .read = { s with
      writer := { s.writer with written := Packet.stream onWay }
      read := s.read ++ [p] } := by
    unfold make
    dsimp only
    rw [h.written, Packet.stream_cons, Packet.readFrame_framed fits]
  refine ⟨made, made ▸ ⟨?_, ?_, rfl, h.queue, h.blocked⟩⟩
  · simp [h.sent]
  · simpa using h.fits

theorem Sound.read (h : s.Sound) : (s.make .read).Sound := by
  obtain ⟨onWay, left, progress⟩ := h.progress
  cases onWay with
  | nil =>
    unfold make
    dsimp only
    rw [progress.written, Packet.stream_nil, Packet.readFrame_empty]
    exact h
  | cons p onWay =>
    obtain ⟨made, next⟩ := progress.read
    rw [made] at next ⊢
    refine ⟨h.ends, ⟨onWay, left, next⟩, fun closed => ?_, h.sender⟩
    -- nothing is on its way once the end of the connection has been followed
    have empty := (h.receiver closed).2
    rw [progress.written] at empty
    cases Packet.stream_eq_empty empty

theorem Sound.drop (h : s.Sound) : (s.make .drop).Sound := by
  obtain ⟨onWay, left, progress⟩ := h.progress
  exact ⟨h.ends, ⟨onWay, left, progress.sent, progress.fits, progress.written, progress.queue,
    progress.blocked⟩, h.receiver, h.sender⟩

/-- The nodes at the ends may change as long as the link is followed in turn. -/
theorem Sound.replace (h : s.Sound) {sender receiver : End} (sent : sender.Sound)
    (received : receiver.Sound)
    (first : receiver.isOpen = false → s.writer.isOpen = false ∧ s.writer.written = .empty)
    (second : sender.isOpen = false → receiver.isOpen = false) :
    ({ s with sender, receiver } : Delivery).Sound := by
  obtain ⟨onWay, left, progress⟩ := h.progress
  refine ⟨?_, ⟨onWay, left, progress.sent, progress.fits, progress.written, progress.queue,
    progress.blocked⟩, first, second⟩
  rintro (_ | _)
  · exact sent
  · exact received

theorem Sound.finish (h : s.Sound) (r : Role) : (s.make (.finish r)).Sound := by
  unfold make
  cases r with
  | receiver =>
    dsimp only
    split
    · next ends =>
      simp only [Bool.and_eq_true, Bool.not_eq_true', decide_eq_true_eq] at ends
      obtain ⟨⟨registered, closed⟩, size⟩ := ends
      exact h.replace (h.ends .sender) ((h.ends .receiver).finish registered)
        (fun _ => ⟨closed, ByteArray.size_eq_zero_iff.1 size⟩) fun _ => rfl
    · exact h
  | sender =>
    dsimp only
    split
    · next ends =>
      simp only [Bool.and_eq_true, Bool.not_eq_true'] at ends
      exact h.replace ((h.ends .sender).finish ends.1) (h.ends .receiver) h.receiver
        fun _ => ends.2
    · exact h

theorem Sound.elsewhere (h : s.Sound) {r : Role} {m : LinkTable.Move}
    (allowed : s.Allowed (.elsewhere r m)) : (s.make (.elsewhere r m)).Sound := by
  obtain ⟨o, about, other⟩ := allowed
  cases r with
  | sender =>
    exact h.replace ((h.ends .sender).perform about other) (h.ends .receiver) h.receiver h.sender
  | receiver =>
    exact h.replace (h.ends .sender) ((h.ends .receiver).perform about other) h.receiver h.sender

theorem other_make (s : Delivery) (m : Move) (r : Role) :
    ((s.make m).place r).other = (s.place r).other := by
  cases m with
  | send p =>
    unfold make
    dsimp only
    split
    · split <;> rfl
    · rfl
  | write => rfl
  | drop => rfl
  | read =>
    unfold make
    dsimp only
    split <;> rfl
  | finish q => cases q <;> cases r <;> unfold make <;> dsimp only <;> split <;> rfl
  | elsewhere q m => cases q <;> cases r <;> rfl

theorem allowed_make {m n : Move} : (s.make m).Allowed n ↔ s.Allowed n := by
  cases n with
  | elsewhere r _ => rw [Allowed, other_make, Allowed]
  | _ => exact Iff.rfl

/-- **Whatever happens, what always holds goes on to hold.** -/
theorem Sound.make (h : s.Sound) {m : Move} (allowed : s.Allowed m) : (s.make m).Sound := by
  cases m with
  | send p => exact h.send p
  | write => exact h.write
  | drop => exact h.drop
  | read => exact h.read
  | finish r => exact h.finish r
  | elsewhere r m => exact h.elsewhere allowed

theorem Sound.run (h : s.Sound) {moves : List Move} (allowed : ∀ m ∈ moves, s.Allowed m) :
    (s.run moves).Sound := by
  induction moves generalizing s with
  | nil => exact h
  | cons m rest ih =>
    obtain ⟨first, later⟩ := List.forall_mem_cons.1 allowed
    exact ih (h.make first) fun n hn => allowed_make.2 (later n hn)

/-! ### How it ends -/

theorem End.Sound.registered_iff {e : End} (h : e.Sound) : e.Registered ↔ e.isOpen = true := by
  rw [End.Registered, h.link]
  cases e.isOpen <;> simp

/-- In the end everything has arrived and the link is there, or a packet that cannot be framed has
been followed by the end of the link. -/
theorem Sound.quiet_cases (h : s.Sound) (quiet : s.Quiet) :
    ((∀ p ∈ s.sent, p.Fits) ∧ s.read = s.sent ∧ ∀ r, (s.place r).Registered) ∨
    ∃ p more, s.sent = s.read ++ p :: more ∧ (∀ q ∈ s.read, q.Fits) ∧ ¬ p.Fits ∧
      ∀ r, ¬ (s.place r).Registered := by
  obtain ⟨onWay, left, progress⟩ := h.progress
  obtain rfl : onWay = [] := Packet.stream_eq_empty (progress.written.symm.trans quiet.written)
  have sent : s.sent = s.read ++ left := by simpa using progress.sent
  have fits : ∀ p ∈ s.read, p.Fits := by simpa using progress.fits
  have queue := progress.queue
  rw [quiet.queue] at queue
  cases writes : s.writer.isOpen with
  | true =>
    rw [if_pos writes] at queue
    subst queue
    rw [List.append_nil] at sent
    have receiver : s.receiver.isOpen = true := by
      by_contra closed
      cases writes.symm.trans (h.receiver (by simpa using closed)).1
    have sender : s.sender.isOpen = true := by
      by_contra closed
      cases receiver.symm.trans (h.sender (by simpa using closed))
    refine .inl ⟨sent ▸ fits, sent.symm, ?_⟩
    rintro (_ | _)
    · exact (h.ends .sender).registered_iff.2 sender
    · exact (h.ends .receiver).registered_iff.2 receiver
  | false =>
    obtain ⟨p, more, rfl, large⟩ := progress.blocked writes
    refine .inr ⟨p, more, sent, fits, large, fun r => ?_⟩
    rw [(h.ends r).registered_iff, quiet.followed writes r]
    exact Bool.false_ne_true

/-- Nothing is sent, and nothing happens elsewhere. -/
def Move.Inner : Move → Prop
  | .send _ | .elsewhere .. => False
  | _ => True

theorem run_append (s : Delivery) (first rest : List Move) :
    s.run (first ++ rest) = (s.run first).run rest := List.foldl_append ..

theorem Move.Inner.allowed {m : Move} (h : m.Inner) (s : Delivery) : s.Allowed m := by
  cases m with
  | elsewhere r m => exact h.elim
  | _ => trivial

/-- Everything that waits can be written. -/
theorem exists_written (s : Delivery) :
    ∃ rest : List Move, (∀ m ∈ rest, m.Inner) ∧ (s.run rest).writer.queue = [] := by
  induction waiting : s.writer.queue generalizing s with
  | nil => exact ⟨[], nofun, waiting⟩
  | cons p queue ih =>
    by_cases fits : p.Fits
    · have next : (s.make .write).writer.queue = queue := by
        unfold make
        dsimp only
        rw [Writer.step_of_fits waiting fits]
      obtain ⟨rest, inner, written⟩ := ih _ next
      exact ⟨.write :: rest, List.forall_mem_cons.2 ⟨trivial, inner⟩, written⟩
    · refine ⟨[.write], List.forall_mem_singleton.2 trivial, ?_⟩
      show s.writer.step.queue = []
      rw [Writer.step_of_not_fits waiting fits]

/-- Everything that is on its way can be read. -/
theorem Progress.exists_read {onWay left : List Packet} (h : s.Progress onWay left) :
    ∃ rest : List Move, (∀ m ∈ rest, m.Inner) ∧ (s.run rest).writer.written = .empty ∧
      (s.run rest).writer.queue = s.writer.queue := by
  induction onWay generalizing s with
  | nil => exact ⟨[], nofun, h.written, rfl⟩
  | cons p onWay ih =>
    obtain ⟨made, next⟩ := h.read
    obtain ⟨rest, inner, written, queue⟩ := ih next
    refine ⟨.read :: rest, List.forall_mem_cons.2 ⟨trivial, inner⟩, written, queue.trans ?_⟩
    rw [made]

/-- The sides follow the end of the connection one after the other. -/
theorem quiet_finish (queue : s.writer.queue = []) (written : s.writer.written = .empty)
    (closed : s.writer.isOpen = false) : (s.run [.finish .receiver, .finish .sender]).Quiet := by
  have empty : s.writer.written.size = 0 := by rw [written]; rfl
  cases receiver : s.receiver.isOpen <;> cases sender : s.sender.isOpen <;>
    simp only [run, List.foldl_cons, List.foldl_nil, make, End.finish, receiver, sender, closed,
      empty, Bool.not_false, Bool.and_true, Bool.false_eq_true, if_true, if_false,
      decide_true] <;>
    exact ⟨queue, written, fun _ => by rintro (_ | _) <;> first | rfl | assumption⟩

/-- **Whatever has happened, it can come to its end.** -/
theorem Sound.exists_quiet (h : s.Sound) :
    ∃ rest : List Move, (∀ m ∈ rest, m.Inner) ∧ (s.run rest).Quiet := by
  obtain ⟨first, inner, queue⟩ := s.exists_written
  obtain ⟨onWay, left, progress⟩ := (h.run fun m hm => (inner m hm).allowed s).progress
  obtain ⟨second, inner', written, same⟩ := progress.exists_read
  rw [queue] at same
  have both : ∀ m ∈ first ++ second, m.Inner := List.forall_mem_append.2 ⟨inner, inner'⟩
  rw [← run_append] at written same
  cases writes : (s.run (first ++ second)).writer.isOpen with
  | true =>
    refine ⟨first ++ second, both, same, written, fun closed => ?_⟩
    cases writes.symm.trans closed
  | false =>
    refine ⟨first ++ second ++ [.finish .receiver, .finish .sender],
      List.forall_mem_append.2 ⟨both, by simp [Move.Inner]⟩, ?_⟩
    rw [run_append]
    exact quiet_finish same written writes

/-- **What arrives over a link is what has been sent before the first packet that cannot be framed,
and the link stays exactly if there is none.** Such a packet does not only cost itself: all that is
sent after it is lost as well, and the link is given up at both ends. -/
theorem delivered_iff (start : s.Start) {moves : List Move} (allowed : ∀ m ∈ moves, s.Allowed m) :
    ((s.run moves).Quiet →
      (s.run moves).read = (s.run moves).sent.takeWhile (·.Fits) ∧
      (∀ r, ((s.run moves).place r).Registered ↔ ∀ p ∈ (s.run moves).sent, p.Fits) ∧
      (((s.run moves).read = (s.run moves).sent.filter (·.Fits) ∧
          ∀ r, ((s.run moves).place r).Registered) ↔ ∀ p ∈ (s.run moves).sent, p.Fits)) ∧
    ∃ rest : List Move, (∀ m ∈ rest, m.Inner) ∧ ((s.run moves).run rest).Quiet := by
  have sound := start.sound.run allowed
  refine ⟨fun quiet => ?_, sound.exists_quiet⟩
  obtain ⟨fits, read, registered⟩ | ⟨p, more, sent, fits, large, gone⟩ := sound.quiet_cases quiet
  · have all : (s.run moves).sent.takeWhile (·.Fits) = (s.run moves).sent :=
      List.takeWhile_eq_self_iff.2 fun p hp => by simpa using fits p hp
    have kept : (s.run moves).sent.filter (·.Fits) = (s.run moves).sent :=
      List.filter_eq_self.2 fun p hp => by simpa using fits p hp
    exact ⟨read.trans all.symm, fun r => iff_of_true (registered r) fits,
      iff_of_true ⟨read.trans kept.symm, registered⟩ fits⟩
  · have refuted : ¬ ∀ q ∈ (s.run moves).sent, q.Fits := fun all =>
      large (all p (by simp [sent]))
    refine ⟨?_, fun r => iff_of_false (gone r) refuted,
      iff_of_false (fun both => gone .sender (both.2 .sender)) refuted⟩
    rw [sent, List.takeWhile_append_of_pos fun q hq => by simpa using fits q hq,
      List.takeWhile_cons_of_neg (by simpa using large), List.append_nil]

/-! ### Small runs -/

/-- Two nodes of which one has opened a connection to the other. -/
def between : Delivery where
  sender := {
    table := (({ home := "node-1" } : LinkTable).attachPeer "node-2" true).2
    other := .peer "node-2"
    link := ⟨1, true⟩ }
  receiver := {
    table := (({ home := "node-2" } : LinkTable).attachPeer "node-1" false).2
    other := .peer "node-1"
    link := ⟨1, false⟩ }

theorem start_between : between.Start where
  untouched := rfl
  tables := by
    rintro (_ | _)
    · obtain ⟨-, -, sound⟩ := (LinkTable.sound_new "node-1").perform
        (m := .attachPeer "node-2" true) nofun
      exact sound
    · obtain ⟨-, -, sound⟩ := (LinkTable.sound_new "node-2").perform
        (m := .attachPeer "node-1" false) nofun
      exact sound
  registered := by rintro (_ | _) <;> rfl
  isOpen := by rintro (_ | _) <;> rfl

/-- A short packet. -/
def greeting : Packet := { channel := "hi", payload := ⟨#[7]⟩ }

/-- Two short packets are sent, written and read. -/
def exchange : List Move :=
  [.send greeting, .write, .send greeting, .read, .write, .read]

theorem exchange_delivered : between.Start ∧ (∀ m ∈ exchange, between.Allowed m) ∧
    (between.run exchange).Quiet ∧ (between.run exchange).sent = [greeting, greeting] ∧
    (between.run exchange).read = [greeting, greeting] ∧
    ∀ r, ((between.run exchange).place r).Registered := by
  have allowed : ∀ m ∈ exchange, between.Allowed m := by simp [exchange, Allowed]
  have sent : (between.run exchange).sent = [greeting, greeting] := rfl
  have fits : ∀ p ∈ (between.run exchange).sent, p.Fits := by
    rw [sent]
    decide +kernel
  have quiet : (between.run exchange).Quiet := by
    have writes : (between.run exchange).writer.isOpen = true := by decide +kernel
    refine ⟨by decide +kernel, ByteArray.ext (by decide +kernel), fun closed => ?_⟩
    cases writes.symm.trans closed
  obtain ⟨read, registered, -⟩ := (delivered_iff start_between allowed).1 quiet
  refine ⟨start_between, allowed, quiet, sent, ?_, fun r => (registered r).2 fits⟩
  rw [read, sent]
  decide +kernel

/-- A packet whose payload is too large. -/
def oversized : Packet := { channel := "hi", payload := ⟨.replicate Packet.maxBody 7⟩ }

theorem oversized_not_fits : ¬ oversized.Fits := by
  intro fits
  have size := fits.size
  have payload : oversized.payload.size = Packet.maxBody := Array.size_replicate
  rw [Packet.bodySize, payload] at size
  omega

/-- It is sent, and then a short one. -/
def spill : List Move :=
  [.send oversized, .send greeting, .write, .drop, .finish .receiver, .finish .sender]

/-- The short packet never arrives, and the link is gone. -/
theorem spill_lost : between.Start ∧ (∀ m ∈ spill, between.Allowed m) ∧
    (between.run spill).Quiet ∧ (between.run spill).sent = [oversized, greeting] ∧
    ¬ oversized.Fits ∧ greeting.Fits ∧ (between.run spill).read = [] ∧
    ∀ r, ¬ ((between.run spill).place r).Registered := by
  -- the writing end closes at the first packet
  have write : (between.run (spill.take 3)) = { between with
      writer := { isOpen := false }, sent := [oversized, greeting] } := by
    show ({ between with
      writer := Writer.step { queue := [oversized, greeting] }
      sent := [oversized, greeting] } : Delivery) = _
    rw [Writer.step_of_not_fits rfl oversized_not_fits]
  have run : between.run spill = { between with
      sender := between.sender.finish
      receiver := between.receiver.finish
      writer := { isOpen := false }
      gone := true
      sent := [oversized, greeting] } := by
    rw [← List.take_append_drop 3 spill, run_append, write]
    rfl
  rw [run]
  refine ⟨start_between, by simp [spill, Allowed], ⟨rfl, rfl, fun _ => ?_⟩, rfl,
    oversized_not_fits, by decide +kernel, rfl, ?_⟩
  · rintro (_ | _) <;> rfl
  · rintro (_ | _) <;> nofun

end Delivery

end WorkerCluster
