import WorkerCluster.Proofs.Link.Admission
import WorkerCluster.Proofs.Link.Table

/-!
# How two nodes join

A node opens a connection to another one and says who it is, the other one answers and has a link
then if it lets it in, and the first one has a link if it knows the other one. It may not, and
either side may stop waiting: then it closes the connection, and the other side gives its link up.

* `Joining` is two nodes and a connection between them, `Joining.Side` is one of them.
  `Joining.Move` is what may happen, `Joining.run` lets it happen.
* `Joining.Sound` is what always holds, `Joining.Promising` what also holds if each node lets the
  other in and nobody stops waiting. Both are about one side at a time: `Sound.ask_cases`,
  `Sound.answer_cases` and `Sound.conclude_cases` say what a side may do, `Sound.make` and
  `Promising.make` are about any move.
* `joined_iff` is the main statement: who is let in, and when there is a link in the end.
-/

namespace WorkerCluster

/-! ### The system -/

namespace Joining

/-- What has come of a connection at one of its ends. -/
inductive Stage
  /-- The two sides have not come to terms. -/
  | pending
  /-- It is a link, and has this number. -/
  | linked (connection : ℕ)
  | closed
  deriving DecidableEq

/-- A node at one end of a connection. -/
structure Side (η τ : Type) where
  board : Switchboard η
  /-- How the node secures its connections, if it does. -/
  security : Option τ := none
  /-- What it has written to come to terms. -/
  said : Option ByteArray := none
  stage : Stage := .pending

namespace Side

variable {η τ : Type}

/-- Give the connection up before it is a link. -/
def close (x : Side η τ) : Side η τ :=
  { x with said := some (x.said.getD .empty), stage := .closed }

/-- Make the connection a link. -/
def attach (x : Side η τ) (m : LinkTable.Move) : Side η τ :=
  { x with board := (x.board.move m).2, stage := .linked x.board.table.next }

/-- Say who the node is, if the connection is secured as both want it. -/
def ask (x : Side η τ) (opens : Bool) (request : Uuid) : Side η τ :=
  if opens then
    match (x.board.hello request).frame with
    | .ok bytes => { x with said := some bytes }
    | .error _ => x.close
  else x.close

/-- Answer the bytes on the connection. -/
def answer (x : Side η τ) (bytes : ByteArray) : Side η τ :=
  let reception := x.board.accept bytes
  { x with
    board := reception.board
    said := some reception.written
    stage := match reception.outcome with
      | .ok _ => .linked x.board.table.next
      | .error _ => .closed }

/-- Read the answer. -/
def conclude (x : Side η τ) (bytes : ByteArray) : Side η τ :=
  match x.board.enter bytes with
  | .ok m => x.attach m
  | .error _ => x.close

/-- Follow the end of the connection. -/
def finish (x : Side η τ) (other : NodeId) : Side η τ :=
  match x.stage with
  | .linked c => { x with
      board := (x.board.move (.finish c (.peer other))).2
      stage := .closed }
  | _ => x

end Side

/-- The ends of a connection. -/
inductive Role
  /-- The side that has opened it. -/
  | dialer
  /-- The side that has taken it. -/
  | listener
  deriving DecidableEq

/-- The other end. -/
def Role.other : Role → Role
  | .dialer => .listener
  | .listener => .dialer

end Joining

/-- Two nodes and a connection between them. -/
structure Joining (η τ : Type) where
  dialer : Joining.Side η τ
  listener : Joining.Side η τ
  /-- Whether a dialer and a listener that secure their connections so come together. -/
  trusts : τ → τ → Bool
  /-- The id of the request. -/
  request : Uuid

namespace Joining

variable {η τ : Type}

/-- The node at one end. -/
def side (s : Joining η τ) : Role → Side η τ
  | .dialer => s.dialer
  | .listener => s.listener

/-- Replace the node at one end. -/
def put (s : Joining η τ) (r : Role) (x : Side η τ) : Joining η τ :=
  match r with
  | .dialer => { s with dialer := x }
  | .listener => { s with listener := x }

/-- Whether the two ends of a stream come together: both are plain, or both are secured and trust
each other. -/
def opens (s : Joining η τ) : Bool :=
  match s.dialer.security, s.listener.security with
  | none, none => true
  | some a, some b => s.trusts a b
  | _, _ => false

/-- Something that may happen. -/
inductive Move
  /-- The dialer says who it is. -/
  | ask
  /-- The listener answers. -/
  | answer
  /-- The dialer reads the answer. -/
  | conclude
  /-- One side does not wait any longer. -/
  | giveUp (r : Role)
  /-- One side follows the end of the connection at the other. -/
  | finish (r : Role)
  /-- The links of one side change, the one to the other side apart. -/
  | elsewhere (r : Role) (m : LinkTable.Move)

/-- Changes elsewhere are not about the two nodes. -/
def Allowed (s : Joining η τ) : Move → Prop
  | .elsewhere r m =>
    ∃ o, m.origin? = some o ∧ o ≠ .peer (s.side r.other).board.identity.id
  | _ => True

/-- Nobody stops waiting. -/
def Move.Patient : Move → Prop
  | .giveUp _ => False
  | _ => True

/-- Let it happen. -/
def make (s : Joining η τ) : Move → Joining η τ
  | .ask =>
    match s.dialer.stage, s.dialer.said with
    | .pending, none => s.put .dialer (s.dialer.ask s.opens s.request)
    | _, _ => s
  | .answer =>
    match s.listener.stage, s.dialer.said with
    | .pending, some bytes => s.put .listener (s.listener.answer bytes)
    | _, _ => s
  | .conclude =>
    match s.dialer.stage, s.dialer.said, s.listener.said with
    | .pending, some _, some bytes => s.put .dialer (s.dialer.conclude bytes)
    | _, _, _ => s
  | .giveUp r =>
    match (s.side r).stage with
    | .pending => s.put r (s.side r).close
    | _ => s
  | .finish r =>
    match (s.side r.other).stage with
    | .closed => s.put r ((s.side r).finish (s.side r.other).board.identity.id)
    | _ => s
  | .elsewhere r m => s.put r { s.side r with board := ((s.side r).board.move m).2 }

/-- Let things happen one after the other. -/
def run (s : Joining η τ) (moves : List Move) : Joining η τ := moves.foldl make s

/-- Whether one side has a link to the other. -/
def Linked (s : Joining η τ) (r : Role) : Prop :=
  (s.side r).board.isLinked (.peer (s.side r.other).board.identity.id) = true

/-- There is no link between the two, and nothing has been said. -/
structure Start (s : Joining η τ) : Prop where
  tables : ∀ r, (s.side r).board.table.Sound
  apart : ∀ r, ¬ s.Linked r
  silent : ∀ r, (s.side r).said = none
  pending : ∀ r, (s.side r).stage = .pending

/-- Nothing is left to be done for the connection. -/
structure Quiet (s : Joining η τ) : Prop where
  settled : ∀ r, (s.side r).stage ≠ .pending
  followed : ∀ r c, (s.side r).stage = .linked c → (s.side r.other).stage ≠ .closed

/-- What the dialer says. -/
def hello (s : Joining η τ) : Packet := s.dialer.board.hello s.request

/-- The answer that lets it in. -/
def grant (s : Joining η τ) : Packet := s.listener.board.grant s.hello

/-- The listener lets the dialer in. -/
structure Granted (s : Joining η τ) : Prop where
  /-- The connection is secured as both want it. -/
  opens : s.opens = true
  secret : s.dialer.board.secret = s.listener.board.secret
  distinct : s.dialer.board.identity.id ≠ s.listener.board.identity.id
  allowed : s.dialer.board.identity.id ∈ s.listener.board.allowed
  /-- All listeners of the dialer have hosts. -/
  portable : s.dialer.board.identity.Portable
  /-- Who the two are fits into frames. -/
  hello : s.hello.Fits
  answer : s.grant.Fits

/-- Each of the two lets the other one in. -/
structure Agreed (s : Joining η τ) : Prop extends Granted s where
  known : s.listener.board.identity.id ∈ s.dialer.board.allowed
  /-- All listeners of the listener have hosts. -/
  readable : s.listener.board.identity.Portable

/-! ### One side -/

/-- Which side has opened the connection. -/
def Role.dials : Role → Bool
  | .dialer => true
  | .listener => false

/-- The link that a connection is at this end. -/
def Stage.link? (dialed : Bool) : Stage → Option Link
  | .linked c => some ⟨c, dialed⟩
  | _ => none

theorem Stage.linked_or_closed {g : Stage} (settled : g ≠ .pending) :
    (∃ c, g = .linked c) ∨ g = .closed := by
  cases g with
  | pending => exact absurd rfl settled
  | linked c => exact .inl ⟨c, rfl⟩
  | closed => exact .inr rfl

namespace Side

variable {η τ : Type} {x y z : Side η τ} {other : NodeId} {dialed : Bool}

/-- Nothing differs but the links and the connection. -/
structure Same (x y : Side η τ) : Prop where
  identity : y.board.identity = x.board.identity
  secret : y.board.secret = x.board.secret
  allowed : y.board.allowed = x.board.allowed
  security : y.security = x.security

theorem Same.refl (x : Side η τ) : x.Same x := ⟨rfl, rfl, rfl, rfl⟩

theorem Same.trans (h : x.Same y) (g : y.Same z) : x.Same z where
  identity := g.identity.trans h.identity
  secret := g.secret.trans h.secret
  allowed := g.allowed.trans h.allowed
  security := g.security.trans h.security

/-- The connection is the link to the other node as far as there is one. -/
structure Sound (x : Side η τ) (other : NodeId) (dialed : Bool) : Prop where
  keyed : x.board.table.workers.KeyedBy (·.1.uuid)
  link : x.board.table.link? (.peer other) = x.stage.link? dialed

theorem Sound.move (h : x.Sound other dialed) {m : LinkTable.Move} {o : Origin}
    (about : m.origin? = some o) (elsewhere : o ≠ .peer other) :
    ({ x with board := (x.board.move m).2 } : Side η τ).Sound other dialed where
  keyed := LinkTable.keyed_perform h.keyed m
  link := ((LinkTable.perform_change h.keyed about).others _ elsewhere.symm).trans h.link

theorem Sound.close (h : x.Sound other dialed) (pending : x.stage = .pending) :
    x.close.Sound other dialed where
  keyed := h.keyed
  link := h.link.trans (by rw [pending]; rfl)

theorem Sound.attach (h : x.Sound other dialed) (pending : x.stage = .pending) :
    (x.attach (.attachPeer other dialed)).Sound other dialed where
  keyed := LinkTable.keyed_perform h.keyed (.attachPeer other dialed)
  link := LinkTable.link?_attachPeer (h.link.trans (by rw [pending]; rfl)) dialed

theorem Sound.finish (h : x.Sound other dialed) : (x.finish other).Sound other dialed := by
  unfold Side.finish
  split
  · next c linked =>
    refine ⟨LinkTable.keyed_perform h.keyed (.finish c (.peer other)), ?_⟩
    exact LinkTable.link?_finish (o := .peer other) (h.link.trans (by rw [linked]; rfl))
  · exact h

end Side

variable {s t : Joining η τ}

/-! ### What always holds -/

/-- What one side may have said. -/
def MaySay (s : Joining η τ) (bytes : ByteArray) : Role → Prop
  | .dialer => bytes = .empty ∨ (s.opens = true ∧ s.hello.Fits) ∧ bytes = s.hello.framed
  | .listener => Switchboard.Unwelcoming bytes ∨ s.Granted ∧ bytes = s.grant.framed

/-- Whether one side may have a link: the listener has let the dialer in, or the dialer knows the
listener. -/
def Entitled (s : Joining η τ) : Role → Prop
  | .listener => s.Granted
  | .dialer =>
    s.listener.board.identity.id ∈ s.dialer.board.allowed ∧ s.listener.board.identity.Portable

/-- What always holds of a side of what has become of a beginning. -/
structure SoundAt (s : Joining η τ) (r : Role) (x : Side η τ) : Prop where
  same : (s.side r).Same x
  linked : x.Sound (s.side r.other).board.identity.id r.dials
  silent : x.said = none → x.stage = .pending
  words : ∀ bytes, x.said = some bytes → s.MaySay bytes r
  entitled : ∀ c, x.stage = .linked c → s.Entitled r

/-- What always holds of what has become of a beginning. -/
structure Sound (s t : Joining η τ) : Prop where
  fixed : t.trusts = s.trusts ∧ t.request = s.request
  sides : ∀ r, s.SoundAt r (t.side r)

/-- Whether one side has a link to the other. -/
theorem linked_iff {r : Role} : s.Linked r ↔
    ((s.side r).board.table.link? (.peer (s.side r.other).board.identity.id)).isSome = true :=
  Iff.rfl

theorem Start.sound (h : s.Start) : s.Sound s := by
  refine ⟨⟨rfl, rfl⟩, fun r => ⟨.refl _, ⟨(h.tables r).keyed, ?_⟩, fun _ => h.pending r, ?_, ?_⟩⟩
  · have apart := h.apart r
    rw [linked_iff, Bool.not_eq_true, Option.isSome_eq_false_iff, Option.isNone_iff_eq_none]
      at apart
    rw [apart, h.pending r]
    rfl
  · intro bytes said
    rw [h.silent r] at said
    cases said
  · intro c linked
    rw [h.pending r] at linked
    cases linked

section

variable {r : Role} {x : Side η τ}

theorem Sound.put (h : s.Sound t) (sound : s.SoundAt r x) : s.Sound (t.put r x) := by
  cases r with
  | dialer =>
    refine ⟨h.fixed, ?_⟩
    rintro (_ | _)
    · exact sound
    · exact h.sides .listener
  | listener =>
    refine ⟨h.fixed, ?_⟩
    rintro (_ | _)
    · exact h.sides .dialer
    · exact sound

/-! ### What one side may do -/

/-- Nobody minds if there is nothing to read. -/
theorem maySay_empty (s : Joining η τ) (r : Role) : s.MaySay .empty r := by
  cases r with
  | dialer => exact .inl rfl
  | listener => exact .inl fun b m => b.not_enter_empty m

theorem SoundAt.close (h : s.SoundAt r x) (pending : x.stage = .pending) : s.SoundAt r x.close := by
  refine ⟨h.same.trans ⟨rfl, rfl, rfl, rfl⟩, h.linked.close pending, nofun, ?_, nofun⟩
  intro bytes said
  obtain rfl := Option.some.inj said
  cases before : x.said with
  | none => exact s.maySay_empty r
  | some bytes => exact h.words bytes before

theorem SoundAt.finish (h : s.SoundAt r x) :
    s.SoundAt r (x.finish (s.side r.other).board.identity.id) := by
  have finished := h.linked.finish
  unfold Side.finish at finished ⊢
  split
  · next c linked =>
    rw [linked] at finished
    refine ⟨h.same.trans ⟨rfl, rfl, rfl, rfl⟩, finished, fun silent => ?_, h.words, nofun⟩
    have pending := h.silent silent
    rw [linked] at pending
    cases pending
  · exact h

theorem SoundAt.elsewhere (h : s.SoundAt r x) {m : LinkTable.Move}
    (allowed : s.Allowed (.elsewhere r m)) :
    s.SoundAt r { x with board := (x.board.move m).2 } := by
  obtain ⟨o, about, other⟩ := allowed
  exact ⟨h.same.trans ⟨rfl, rfl, rfl, rfl⟩, h.linked.move about other, h.silent, h.words,
    h.entitled⟩

end

/-! ### What never changes -/

theorem Sound.hello_eq (h : s.Sound t) : t.dialer.board.hello t.request = s.hello := by
  have same := (h.sides .dialer).same
  unfold hello Switchboard.hello
  rw [show t.dialer.board.identity = _ from same.identity,
    show t.dialer.board.secret = _ from same.secret, h.fixed.2]
  rfl

theorem Sound.opens_eq (h : s.Sound t) : t.opens = s.opens := by
  unfold opens
  rw [show t.dialer.security = s.dialer.security from (h.sides .dialer).same.security,
    show t.listener.security = s.listener.security from (h.sides .listener).same.security,
    h.fixed.1]

theorem Sound.grant_eq (h : s.Sound t) : t.listener.board.grant s.hello = s.grant := by
  unfold grant Switchboard.grant
  rw [show t.listener.board.identity = s.listener.board.identity from
    (h.sides .listener).same.identity]

/-- Who is let in depends on what never changes. -/
theorem Sound.admits_iff (h : s.Sound t) (q : JoinRequest) :
    t.listener.board.Admits q ↔ s.listener.board.Admits q := by
  have same := (h.sides .listener).same
  unfold Switchboard.Admits
  rw [show t.listener.board.identity = s.listener.board.identity from same.identity,
    show t.listener.board.secret = s.listener.board.secret from same.secret,
    show t.listener.board.allowed = s.listener.board.allowed from same.allowed]

/-- What the dialer says is answered by letting it in exactly if the listener lets it in. -/
theorem Sound.letsIn_iff (h : s.Sound t) {first : Packet} {q : JoinRequest}
    (opens : s.opens = true) (fits : s.hello.Fits) :
    t.listener.board.LetsIn s.hello.framed first q ↔
      (first = s.hello ∧ q = .node s.dialer.board.identity s.dialer.board.secret) ∧ s.Granted := by
  have letsIn : t.listener.board.LetsIn s.hello.framed first q ↔ _ :=
    Switchboard.letsIn_hello fits
  rw [h.admits_iff, show t.listener.board.grant (s.dialer.board.hello s.request) = s.grant from
    h.grant_eq] at letsIn
  refine letsIn.trans (and_congr_right fun _ => ⟨?_, ?_⟩)
  · rintro ⟨portable, ⟨secret, distinct, allowed⟩, answer⟩
    exact ⟨opens, secret, distinct, allowed, portable, fits, answer⟩
  · intro granted
    exact ⟨granted.portable, ⟨granted.secret, granted.distinct, granted.allowed⟩, granted.answer⟩

/-- The dialer says who it is, or gives up. -/
theorem Sound.ask_cases (h : s.Sound t) :
    ((s.opens = true ∧ s.hello.Fits) ∧
      t.dialer.ask t.opens t.request = { t.dialer with said := some s.hello.framed }) ∨
    (¬ (s.opens = true ∧ s.hello.Fits) ∧ t.dialer.ask t.opens t.request = t.dialer.close) := by
  rw [Side.ask, h.opens_eq, h.hello_eq]
  by_cases opens : s.opens = true
  · rw [if_pos opens]
    by_cases fits : s.hello.Fits
    · exact .inl ⟨⟨opens, fits⟩, by rw [Packet.frame_of_fits fits]⟩
    · obtain ⟨e, large⟩ := Packet.frame_of_not_fits fits
      exact .inr ⟨fun both => fits both.2, by rw [large]⟩
  · exact .inr ⟨fun both => opens both.1, if_neg opens⟩

/-- The listener lets the dialer in and has a link then, or it does not and has none. -/
theorem Sound.answer_cases (h : s.Sound t) {bytes : ByteArray}
    (said : t.dialer.said = some bytes) :
    ((s.Granted ∧ bytes = s.hello.framed) ∧ t.listener.answer bytes =
      { t.listener.attach (.attachPeer s.dialer.board.identity.id false) with
        said := some s.grant.framed }) ∨
    (¬ (s.Granted ∧ bytes = s.hello.framed) ∧ ∃ written, Switchboard.Unwelcoming written ∧
      t.listener.answer bytes = { t.listener with said := some written, stage := .closed }) := by
  rw [Side.answer]
  obtain ⟨first, q, letsIn, accepted⟩ | ⟨refused, written, e, unwelcoming, accepted⟩ :=
    t.listener.board.accept_cases bytes
  · refine .inl ?_
    obtain rfl | ⟨⟨opens, fits⟩, rfl⟩ := (h.sides .dialer).words bytes said
    · exact absurd letsIn.toOpens not_opens_empty
    · obtain ⟨⟨rfl, rfl⟩, granted⟩ := (h.letsIn_iff opens fits).1 letsIn
      refine ⟨⟨granted, rfl⟩, ?_⟩
      rw [accepted, h.grant_eq]
      rfl
  · refine .inr ⟨?_, written, unwelcoming, by rw [accepted]⟩
    rintro ⟨granted, rfl⟩
    exact refused _ _ ((h.letsIn_iff granted.opens granted.hello).2 ⟨⟨rfl, rfl⟩, granted⟩)

/-- The dialer has a link then if both have let each other in, or it has none. -/
theorem Sound.conclude_cases (h : s.Sound t) {bytes : ByteArray}
    (said : t.listener.said = some bytes) :
    ((s.Agreed ∧ bytes = s.grant.framed) ∧ t.dialer.conclude bytes =
      t.dialer.attach (.attachPeer s.listener.board.identity.id true)) ∨
    (¬ (s.Agreed ∧ bytes = s.grant.framed) ∧ t.dialer.conclude bytes = t.dialer.close) := by
  have allowed : t.dialer.board.allowed = s.dialer.board.allowed := (h.sides .dialer).same.allowed
  rw [Side.conclude]
  cases entered : t.dialer.board.enter bytes with
  | ok m =>
    obtain unwelcoming | ⟨granted, rfl⟩ := (h.sides .listener).words bytes said
    · exact absurd entered (unwelcoming _ m)
    · obtain ⟨readable, known, rfl⟩ :=
        (Switchboard.enter_grant (b := s.listener.board) granted.answer rfl).1 entered
      exact .inl ⟨⟨⟨granted, allowed ▸ known, readable⟩, rfl⟩, rfl⟩
  | error e =>
    refine .inr ⟨?_, rfl⟩
    rintro ⟨agreed, rfl⟩
    have := (Switchboard.enter_grant (a := t.dialer.board) (b := s.listener.board) (m := _)
      agreed.answer rfl).2 ⟨agreed.readable, allowed ▸ agreed.known, rfl⟩
    rw [show (s.listener.board.grant s.hello).framed = s.grant.framed from rfl, entered] at this
    cases this

theorem Sound.ask (h : s.Sound t) (pending : t.dialer.stage = .pending) :
    s.SoundAt .dialer (t.dialer.ask t.opens t.request) := by
  have sound := h.sides .dialer
  obtain ⟨asks, asked⟩ | ⟨-, asked⟩ := h.ask_cases
  · rw [asked]
    refine ⟨sound.same.trans ⟨rfl, rfl, rfl, rfl⟩, ⟨sound.linked.keyed, sound.linked.link⟩, nofun,
      fun bytes said => ?_, sound.entitled⟩
    exact .inr ⟨asks, (Option.some.inj said).symm⟩
  · rw [asked]
    exact sound.close pending

theorem Sound.answer (h : s.Sound t) (pending : t.listener.stage = .pending) {bytes : ByteArray}
    (said : t.dialer.said = some bytes) : s.SoundAt .listener (t.listener.answer bytes) := by
  have sound := h.sides .listener
  obtain ⟨⟨granted, -⟩, answered⟩ | ⟨-, written, unwelcoming, answered⟩ := h.answer_cases said
  · have linked := sound.linked.attach pending
    rw [answered]
    refine ⟨sound.same.trans ⟨rfl, rfl, rfl, rfl⟩, ⟨linked.keyed, linked.link⟩, nofun,
      fun bytes said => ?_, fun _ _ => granted⟩
    exact .inr ⟨granted, (Option.some.inj said).symm⟩
  · have closed := sound.linked.close pending
    rw [answered]
    refine ⟨sound.same.trans ⟨rfl, rfl, rfl, rfl⟩, ⟨closed.keyed, closed.link⟩, nofun,
      fun bytes said => ?_, nofun⟩
    obtain rfl := Option.some.inj said
    exact .inl unwelcoming

theorem Sound.conclude (h : s.Sound t) (pending : t.dialer.stage = .pending)
    (asked : t.dialer.said ≠ none) {bytes : ByteArray} (said : t.listener.said = some bytes) :
    s.SoundAt .dialer (t.dialer.conclude bytes) := by
  have sound := h.sides .dialer
  obtain ⟨⟨agreed, -⟩, concluded⟩ | ⟨-, concluded⟩ := h.conclude_cases said
  · rw [concluded]
    exact ⟨sound.same.trans ⟨rfl, rfl, rfl, rfl⟩, sound.linked.attach pending,
      fun silent => absurd silent asked, sound.words, fun _ _ => ⟨agreed.known, agreed.readable⟩⟩
  · rw [concluded]
    exact sound.close pending

/-- **Whatever happens, what always holds goes on to hold.** -/
theorem Sound.make (h : s.Sound t) {m : Move} (allowed : s.Allowed m) : s.Sound (t.make m) := by
  unfold Joining.make
  cases m with
  | ask =>
    dsimp only
    split
    · next pending _ => exact h.put (h.ask pending)
    · exact h
  | answer =>
    dsimp only
    split
    · next pending said => exact h.put (h.answer pending said)
    · exact h
  | conclude =>
    dsimp only
    split
    · next pending asked said =>
      exact h.put (h.conclude pending (by rw [asked]; nofun) said)
    · exact h
  | giveUp r =>
    dsimp only
    split
    · next pending => exact h.put ((h.sides r).close pending)
    · exact h
  | finish r =>
    dsimp only
    split
    · rw [(h.sides r.other).same.identity]
      exact h.put (h.sides r).finish
    · exact h
  | elsewhere r m => exact h.put ((h.sides r).elsewhere allowed)

theorem Sound.run (h : s.Sound t) {moves : List Move} (allowed : ∀ m ∈ moves, s.Allowed m) :
    s.Sound (t.run moves) := by
  induction moves generalizing t with
  | nil => exact h
  | cons m rest ih =>
    obtain ⟨first, later⟩ := List.forall_mem_cons.1 allowed
    exact ih (h.make first) later

/-! ### What comes of an agreement -/

/-- What one side says if both let each other in. -/
def words (s : Joining η τ) : Role → Packet
  | .dialer => s.hello
  | .listener => s.grant

/-- A side has not turned away from the other one. -/
structure PromisingAt (s : Joining η τ) (r : Role) (x : Side η τ) : Prop where
  words : ∀ bytes, x.said = some bytes → bytes = (s.words r).framed
  alive : x.stage ≠ .closed

/-- Neither side has turned away from the other one. -/
def Promising (s t : Joining η τ) : Prop := ∀ r, s.PromisingAt r (t.side r)

theorem Start.promising (h : s.Start) : s.Promising s := by
  refine fun r => ⟨fun bytes said => ?_, ?_⟩
  · rw [h.silent r] at said
    cases said
  · rw [h.pending r]
    nofun

theorem Promising.put (h : s.Promising t) {r : Role} {x : Side η τ}
    (promising : s.PromisingAt r x) : s.Promising (t.put r x) := by
  cases r with
  | dialer =>
    rintro (_ | _)
    · exact promising
    · exact h .listener
  | listener =>
    rintro (_ | _)
    · exact h .dialer
    · exact promising

/-- If both let each other in, nobody turns away as long as nobody stops waiting. -/
theorem Promising.make (h : s.Promising t) (sound : s.Sound t) (agreed : s.Agreed) {m : Move}
    (patient : m.Patient) : s.Promising (t.make m) := by
  unfold Joining.make
  cases m with
  | ask =>
    dsimp only
    split
    · refine h.put ?_
      obtain ⟨-, asked⟩ | ⟨refused, -⟩ := sound.ask_cases
      · rw [asked]
        exact ⟨fun bytes said => (Option.some.inj said).symm, (h .dialer).alive⟩
      · exact absurd ⟨agreed.opens, agreed.hello⟩ refused
    · exact h
  | answer =>
    dsimp only
    split
    · next said =>
      refine h.put ?_
      obtain ⟨-, answered⟩ | ⟨refused, -⟩ := sound.answer_cases said
      · rw [answered]
        exact ⟨fun bytes said => (Option.some.inj said).symm, nofun⟩
      · exact absurd ⟨agreed.toGranted, (h .dialer).words _ said⟩ refused
    · exact h
  | conclude =>
    dsimp only
    split
    · next said =>
      refine h.put ?_
      obtain ⟨-, concluded⟩ | ⟨refused, -⟩ := sound.conclude_cases said
      · rw [concluded]
        exact ⟨(h .dialer).words, nofun⟩
      · exact absurd ⟨agreed, (h .listener).words _ said⟩ refused
    · exact h
  | giveUp r => exact patient.elim
  | finish r =>
    dsimp only
    split
    · next closed => exact absurd closed (h r.other).alive
    · exact h
  | elsewhere r m => exact h.put ⟨(h r).words, (h r).alive⟩

theorem Promising.run (h : s.Promising t) (sound : s.Sound t) (agreed : s.Agreed)
    {moves : List Move} (allowed : ∀ m ∈ moves, s.Allowed m) (patient : ∀ m ∈ moves, m.Patient) :
    s.Promising (t.run moves) := by
  induction moves generalizing t with
  | nil => exact h
  | cons m rest ih =>
    obtain ⟨first, later⟩ := List.forall_mem_cons.1 allowed
    obtain ⟨waits, wait⟩ := List.forall_mem_cons.1 patient
    exact ih (h.make sound agreed waits) (sound.make first) later wait

/-! ### How it ends -/

/-- One side has a link to the other exactly if the connection is one. -/
theorem Sound.linked_iff (h : s.Sound t) {r : Role} :
    t.Linked r ↔ ∃ c, (t.side r).stage = .linked c := by
  rw [Joining.linked_iff, (h.sides r.other).same.identity, (h.sides r).linked.link]
  cases (t.side r).stage <;> simp [Stage.link?]

/-- In the end the connection is a link of both or of neither. -/
theorem Quiet.linked_or_closed (h : t.Quiet) :
    (∀ r, ∃ c, (t.side r).stage = .linked c) ∨ ∀ r, (t.side r).stage = .closed := by
  have dialer := h.settled .dialer
  have listener := h.settled .listener
  cases dialed : (t.side .dialer).stage with
  | pending => exact absurd dialed dialer
  | linked c =>
    cases taken : (t.side .listener).stage with
    | pending => exact absurd taken listener
    | linked d =>
      refine .inl ?_
      rintro (_ | _)
      · exact ⟨c, dialed⟩
      · exact ⟨d, taken⟩
    | closed => exact absurd taken (h.followed .dialer c dialed)
  | closed =>
    cases taken : (t.side .listener).stage with
    | pending => exact absurd taken listener
    | linked d => exact absurd dialed (h.followed .listener d taken)
    | closed =>
      refine .inr ?_
      rintro (_ | _)
      · exact dialed
      · exact taken

theorem quiet_of_linked {c d : ℕ} (dialed : t.dialer.stage = .linked c)
    (taken : t.listener.stage = .linked d) : t.Quiet := by
  constructor
  · rintro (_ | _) <;> simp [side, dialed, taken]
  · rintro (_ | _) <;> simp [side, Role.other, dialed, taken]

theorem quiet_of_closed (dialed : t.dialer.stage = .closed) (taken : t.listener.stage = .closed) :
    t.Quiet := by
  constructor
  · rintro (_ | _) <;> simp [side, dialed, taken]
  · rintro (_ | _) <;> simp [side, dialed, taken]

/-- If there is a link in the end, each lets the other in. -/
theorem Sound.agreed (h : s.Sound t) (quiet : t.Quiet) {r : Role} (linked : t.Linked r) :
    s.Agreed := by
  obtain all | closed := quiet.linked_or_closed
  · obtain ⟨c, dialed⟩ := all .dialer
    obtain ⟨d, taken⟩ := all .listener
    obtain ⟨known, readable⟩ := (h.sides .dialer).entitled c dialed
    exact ⟨(h.sides .listener).entitled d taken, known, readable⟩
  · rw [h.linked_iff, closed r] at linked
    obtain ⟨c, linked⟩ := linked
    cases linked

/-- Once both sides have come to terms or closed the connection, each follows the other. -/
theorem quiet_finish (dialer : t.dialer.stage ≠ .pending) (listener : t.listener.stage ≠ .pending) :
    (t.run [.finish .listener, .finish .dialer]).Quiet := by
  obtain ⟨c, dialed⟩ | dialed := Stage.linked_or_closed dialer <;>
    obtain ⟨d, taken⟩ | taken := Stage.linked_or_closed listener <;>
    simp only [run, List.foldl_cons, List.foldl_nil, make, Role.other, side, put, Side.finish,
      dialed, taken]
  · exact quiet_of_linked dialed taken
  · exact quiet_of_closed rfl taken
  · exact quiet_of_closed dialed rfl
  · exact quiet_of_closed dialed taken

/-- The dialer always comes to say something. -/
theorem Sound.asked (h : s.Sound t) : (t.make .ask).dialer.said ≠ none := by
  unfold Joining.make
  dsimp only
  split
  · obtain ⟨-, asked⟩ | ⟨-, asked⟩ := h.ask_cases <;>
      · rw [asked]
        nofun
  · next other =>
    intro silent
    exact other ((h.sides .dialer).silent silent) silent

/-- The listener answers whatever the dialer has said. -/
theorem Sound.answered (h : s.Sound t) (said : t.dialer.said ≠ none) :
    (t.make .answer).listener.stage ≠ .pending := by
  unfold Joining.make
  dsimp only
  split
  · next said =>
    obtain ⟨-, answered⟩ | ⟨-, written, -, answered⟩ := h.answer_cases said <;>
      · rw [answered]
        nofun
  · next other =>
    intro pending
    obtain ⟨bytes, said⟩ := Option.ne_none_iff_exists'.1 said
    exact other bytes pending said

/-- The dialer reads whatever the listener has answered. -/
theorem Sound.concluded (h : s.Sound t) (asked : t.dialer.said ≠ none)
    (said : t.listener.said ≠ none) : (t.make .conclude).dialer.stage ≠ .pending := by
  unfold Joining.make
  dsimp only
  split
  · next said =>
    obtain ⟨-, concluded⟩ | ⟨-, concluded⟩ := h.conclude_cases said <;>
      · rw [concluded]
        nofun
  · next other =>
    intro pending
    obtain ⟨words, asked⟩ := Option.ne_none_iff_exists'.1 asked
    obtain ⟨bytes, said⟩ := Option.ne_none_iff_exists'.1 said
    exact other words bytes pending asked said

/-- All that may be left to be done. -/
def whole : List Move := [.ask, .answer, .conclude, .finish .listener, .finish .dialer]

theorem allowed_whole (s : Joining η τ) : ∀ m ∈ whole, s.Allowed m := by
  simp [whole, Allowed]

theorem patient_whole : ∀ m ∈ whole, m.Patient := by
  simp [whole, Move.Patient]

/-- The connection can always come to its end. -/
theorem Sound.quiet_whole (h : s.Sound t) : (t.run whole).Quiet := by
  have asked := h.asked
  have h₁ := h.make (m := .ask) trivial
  generalize ht₁ : t.make .ask = t₁ at asked h₁
  have answered := h₁.answered asked
  have h₂ := h₁.make (m := .answer) trivial
  have dialer₂ : (t₁.make .answer).dialer = t₁.dialer := by
    unfold Joining.make
    dsimp only
    split <;> rfl
  generalize ht₂ : t₁.make .answer = t₂ at answered h₂ dialer₂
  have said : t₂.listener.said ≠ none := fun silent =>
    answered ((h₂.sides .listener).silent silent)
  have concluded := h₂.concluded (dialer₂ ▸ asked) said
  have listener₃ : (t₂.make .conclude).listener = t₂.listener := by
    unfold Joining.make
    dsimp only
    split <;> rfl
  have quiet := quiet_finish concluded (listener₃ ▸ answered)
  rw [← ht₂, ← ht₁] at quiet
  exact quiet

/-- **A node lets in exactly those it should, and both nodes come to a link or neither does.** From
the first bytes on a connection, whatever they are, there is a link of one that asks for it on the
channel for joining, knows the secret and, if it is a node, is another one that is allowed; or else
nothing changes and nobody is told. When two nodes are done with a connection, there is a link
between them at both ends or at neither, and if neither stops waiting there is one exactly if each
lets the other in. -/
theorem joined_iff (b : Switchboard η) (bytes : ByteArray) (start : s.Start) {moves : List Move}
    (allowed : ∀ m ∈ moves, s.Allowed m) :
    ((∀ first q, b.LetsIn bytes first q →
        (b.accept bytes).effect = (b.move (Switchboard.joined q)).1 ∧
        (b.accept bytes).board = (b.move (Switchboard.joined q)).2) ∧
      ((∀ first q, ¬ b.LetsIn bytes first q) →
        (b.accept bytes).effect = {} ∧ (b.accept bytes).board = b)) ∧
    ((s.run moves).Quiet →
      ((s.run moves).Linked .dialer ↔ (s.run moves).Linked .listener) ∧
      ((∀ m ∈ moves, m.Patient) → ∀ r, (s.run moves).Linked r ↔ s.Agreed)) ∧
    ∃ rest, (∀ m ∈ rest, s.Allowed m ∧ m.Patient) ∧ ((s.run moves).run rest).Quiet := by
  have sound := start.sound.run allowed
  refine ⟨⟨fun first q letsIn => ?_, fun refused => ?_⟩, fun quiet => ?_, ?_⟩
  · obtain ⟨p, r, letsIn', accepted⟩ | ⟨refused, -⟩ := b.accept_cases bytes
    · obtain ⟨rfl, rfl⟩ := letsIn.toAsks.unique letsIn'.toAsks
      rw [accepted]
      exact ⟨rfl, rfl⟩
    · exact absurd letsIn (refused first q)
  · obtain ⟨p, r, letsIn, -⟩ | ⟨-, written, e, -, accepted⟩ := b.accept_cases bytes
    · exact absurd letsIn (refused p r)
    · rw [accepted]
      exact ⟨rfl, rfl⟩
  · obtain linked | closed := quiet.linked_or_closed
    · have all r : (s.run moves).Linked r := sound.linked_iff.2 (linked r)
      exact ⟨iff_of_true (all _) (all _),
        fun _ r => iff_of_true (all r) (sound.agreed quiet (all r))⟩
    · have none r : ¬ (s.run moves).Linked r := by
        rw [sound.linked_iff, closed r]
        nofun
      refine ⟨iff_of_false (none _) (none _),
        fun patient r => iff_of_false (none r) fun agreed => ?_⟩
      exact (start.promising.run start.sound agreed allowed patient r).alive (closed r)
  · exact ⟨whole, fun m hm => ⟨allowed_whole s m hm, patient_whole m hm⟩, sound.quiet_whole⟩

/-! ### Small runs -/

/-- Two nodes that let each other in. -/
def steady : Joining Unit String where
  dialer.board := .new ⟨"node-1", [⟨"127.0.0.1", 1410⟩]⟩ "s" ["node-2"]
  listener.board := .new ⟨"node-2", [⟨"127.0.0.1", 1411⟩]⟩ "s" ["node-1"]
  trusts a b := a = b
  request := .ofNat 7

theorem steady_agreed : steady.Agreed where
  opens := rfl
  secret := rfl
  distinct := by decide
  allowed := by decide
  portable := List.forall_mem_singleton.2 (by decide)
  hello := by decide +kernel
  answer := by decide +kernel
  known := by decide
  readable := List.forall_mem_singleton.2 (by decide)

/-- Nothing has happened between two nodes without links. -/
theorem start_new {a b : NodeIdentity} {m n : String} {k l : List NodeId} {p q : Option τ}
    {trusts : τ → τ → Bool} {request : Uuid} :
    Start { dialer := { board := (.new a m k : Switchboard η), security := p },
            listener := { board := .new b n l, security := q }, trusts, request } where
  tables := by rintro (_ | _) <;> exact LinkTable.sound_new _
  apart := by rintro (_ | _) <;> nofun
  silent := by rintro (_ | _) <;> rfl
  pending := by rintro (_ | _) <;> rfl

theorem steady_joined : steady.Start ∧ (∀ m ∈ whole, steady.Allowed m ∧ m.Patient) ∧
    (steady.run whole).Quiet ∧ ∀ r, (steady.run whole).Linked r := by
  have start : steady.Start := start_new
  have quiet := start.sound.quiet_whole
  obtain ⟨-, joined, -⟩ := joined_iff steady.listener.board steady.hello.framed start
    (allowed_whole steady)
  exact ⟨start, fun m hm => ⟨allowed_whole steady m hm, patient_whole m hm⟩, quiet, fun r =>
    ((joined quiet).2 patient_whole r).2 steady_agreed⟩

/-- The same nodes, but only one of them secures its connections. -/
def unlike : Joining Unit String := { steady with dialer.security := some "ca" }

/-- The same nodes, but one takes connections at an address without a host. -/
def hostless : Joining Unit String :=
  { steady with dialer.board := .new ⟨"node-1", [⟨"", 1410⟩]⟩ "s" ["node-2"] }

/-- The secrets are equal, and each node is another one that the other allows. -/
structure Configured (s : Joining η τ) : Prop where
  secret : s.dialer.board.secret = s.listener.board.secret
  distinct : s.dialer.board.identity.id ≠ s.listener.board.identity.id
  allowed : s.dialer.board.identity.id ∈ s.listener.board.allowed
  known : s.listener.board.identity.id ∈ s.dialer.board.allowed

/-- Without an agreement there is no link in the end. -/
theorem Start.not_linked (start : s.Start) (disagreed : ¬ s.Agreed) :
    (∀ m ∈ whole, s.Allowed m ∧ m.Patient) ∧ (s.run whole).Quiet ∧
      ∀ r, ¬ (s.run whole).Linked r := by
  have quiet := start.sound.quiet_whole
  refine ⟨fun m hm => ⟨allowed_whole s m hm, patient_whole m hm⟩, quiet, fun r linked => ?_⟩
  exact disagreed ((start.sound.run (allowed_whole s)).agreed quiet linked)

/-- To be configured for each other is not enough. -/
theorem unlike_not_joined :
    (unlike.Start ∧ unlike.Configured ∧ (∀ m ∈ whole, unlike.Allowed m ∧ m.Patient) ∧
      (unlike.run whole).Quiet ∧ ∀ r, ¬ (unlike.run whole).Linked r) ∧
    hostless.Start ∧ hostless.Configured ∧ (∀ m ∈ whole, hostless.Allowed m ∧ m.Patient) ∧
      (hostless.run whole).Quiet ∧ ∀ r, ¬ (hostless.run whole).Linked r := by
  have unlike_start : unlike.Start := start_new
  have hostless_start : hostless.Start := start_new
  refine ⟨⟨unlike_start, ⟨rfl, by decide, by decide, by decide⟩, unlike_start.not_linked ?_⟩,
    hostless_start, ⟨rfl, by decide, by decide, by decide⟩, hostless_start.not_linked ?_⟩
  · exact fun agreed => Bool.false_ne_true agreed.opens
  · exact fun agreed => agreed.portable _ (List.mem_singleton_self _) rfl

end Joining

end WorkerCluster
