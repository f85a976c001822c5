import WorkerCluster.Link.Joining
import WorkerCluster.Proofs.Json.Refusal
import WorkerCluster.Proofs.Message
import WorkerCluster.Proofs.Packet.Frame
import WorkerCluster.Proofs.Store

/-!
# Who is let in

* `JoinRequest.read_node` and `JoinVerdict.read_verdict` say which requests and verdicts are read
  back: those in which all addresses have hosts.
* `Opens` and `Asks` say what the first bytes on a connection hold. `Switchboard.Admits` is who is
  let in, `Switchboard.LetsIn` is when.
* `Switchboard.accept_cases` is all that may come of the first bytes on a connection at the
  listening side, `Switchboard.enter_ok_iff` is when the other side takes the answer.
* `Switchboard.letsIn_hello` and `Switchboard.enter_grant` put both together for two nodes.
-/

namespace WorkerCluster

open Json
open Json.Codec (list_refuses option_refuses refine_refuses string_reads)
open Json.Fields (record_refuses)

/-! ### What of the messages is read -/

theorem Address.codec_refuses {a : Address} (h : a.host = "") : Address.codec.Refuses a :=
  refine_refuses (string_reads _) rfl (by rw [parse_text_of_no_host h]; rfl)

theorem Address.codec_nests {n : ℕ} : Address.codec.Nests n := fun _ => n.zero_le

namespace NodeIdentity

variable {n : NodeIdentity}

theorem codec_refuses (h : ¬ n.Portable) : codec.Refuses n := by
  obtain ⟨a, listens, hostless⟩ : ∃ a ∈ n.listeners, a.host = "" := by
    simpa [Portable] using h
  exact record_refuses (by decide)
    (.inr (.inl (list_refuses listens (Address.codec_refuses hostless))))

theorem codec_nests {k : ℕ} : codec.Nests (k + 2) :=
  record_nests (.cons string_nests <| .cons (list_nests Address.codec_nests) .nil)

end NodeIdentity

theorem JoinRequest.nodeFields_nests {k : ℕ} : nodeFields.Nests (k + 2) :=
  .cons NodeIdentity.codec_nests <| .cons string_nests .nil

/-- A request of a node is read back exactly if its identity is. -/
theorem JoinRequest.read_node (n : NodeIdentity) (secret : String) (q : JoinRequest) :
    codec.read (codec.encode (.node n secret)).bytes = .ok q ↔ n.Portable ∧ q = .node n secret := by
  have depth : (codec.encode (.node n secret)).depth ≤ Reading.nestingLimit :=
    Nat.succ_le_succ (max_le (Nat.zero_le _) (nodeFields_nests (n, secret, ())))
  refine Codec.read_bytes_iff (fun portable => codec_reads portable) (fun refused q => ?_) depth
  exact Variant.read_refuses (r := .text) depth rfl (by decide) (by decide)
    (.inl (NodeIdentity.codec_refuses refused)) q

theorem JoinVerdict.codec_nests : codec.Nests Reading.nestingLimit :=
  record_nests (.cons bool_nests <| .cons (option_nests NodeIdentity.codec_nests) .nil)

theorem JoinVerdict.codec_refuses {v : JoinVerdict} (h : ¬ v.Portable) : codec.Refuses v := by
  obtain ⟨accepted, node⟩ := v
  obtain ⟨n, rfl, refused⟩ : ∃ n, node = some n ∧ ¬ n.Portable := by
    simpa [Portable] using h
  exact record_refuses (by decide)
    (.inr (.inl (option_refuses (NodeIdentity.codec_refuses refused) Json.noConfusion)))

/-- A verdict is read back exactly if the identity in it is. -/
theorem JoinVerdict.read_verdict (v w : JoinVerdict) :
    codec.read (codec.encode v).bytes = .ok w ↔ v.Portable ∧ w = v :=
  Codec.read_bytes_iff codec_reads (fun refused w => codec_refuses refused .text w) (codec_nests v)

/-! ### First packets -/

/-- The first packet that the bytes hold, on the channel for joining. -/
structure Opens (bytes : ByteArray) (first : Packet) : Prop where
  framed : (Packet.readFrame bytes).1 = .ok (some first)
  channel : first.channel = Channel.join

variable {bytes : ByteArray} {first : Packet}

theorem firstPacket_ok_iff : firstPacket bytes = .ok first ↔ Opens bytes first := by
  unfold firstPacket
  constructor
  · intro read
    split at read
    · cases read
    · cases read
    · next p framed =>
      split at read
      · next channel =>
        obtain rfl := Except.ok.inj read
        exact ⟨framed, channel⟩
      · cases read
  · rintro ⟨framed, channel⟩
    rw [framed]
    exact if_pos channel

theorem Opens.unique {p : Packet} (h : Opens bytes first) (g : Opens bytes p) : first = p :=
  Option.some.inj (Except.ok.inj (h.framed.symm.trans g.framed))

theorem opens_framed {p : Packet} (fits : p.Fits) (channel : p.channel = Channel.join) :
    Opens p.framed first ↔ first = p := by
  have read := Packet.readFrame_framed fits .empty
  rw [ByteArray.append_empty] at read
  constructor
  · rintro ⟨framed, -⟩
    rw [read] at framed
    exact (Option.some.inj (Except.ok.inj framed)).symm
  · rintro rfl
    exact ⟨by rw [read], channel⟩

/-- At the end of a connection there is no packet. -/
theorem not_opens_empty : ¬ Opens .empty first := by
  rintro ⟨framed, -⟩
  cases framed

theorem Packet.message_ok_iff {α : Type} {c : Codec α} {p : Packet} {a : α} :
    p.message c = .ok a ↔ p.decode c = .ok a := by
  unfold message
  cases p.decode c with
  | ok b => simp
  | error e => simp

namespace Switchboard

variable {η : Type} {a b : Switchboard η} {q : JoinRequest} {id : Uuid}

/-! ### The listening side -/

/-- Who is let in: those who know the secret, and of the nodes only others that are allowed. -/
def Admits (b : Switchboard η) : JoinRequest → Prop
  | .node node secret =>
    secret = b.secret ∧ node.id ≠ b.identity.id ∧ node.id ∈ b.allowed
  | .worker _ secret => secret = b.secret

theorem verify_ok_iff : b.verify q = .ok () ↔ b.Admits q := by
  unfold verify
  split
  · next differs =>
    have differs : q.secret ≠ b.secret := by simpa using differs
    refine ⟨nofun, fun admits => absurd ?_ differs⟩
    cases q with
    | node => exact admits.1
    | worker => exact admits
  · next same =>
    have same : q.secret = b.secret := by simpa using same
    cases q with
    | worker => exact ⟨fun _ => same, fun _ => rfl⟩
    | node node secret =>
      have same : secret = b.secret := same
      dsimp only [Admits]
      split
      · next itself => simp [itself]
      · next other =>
        split
        · next unknown =>
          have unknown : node.id ∉ b.allowed := by simpa using unknown
          simp [unknown]
        · next known =>
          have known : node.id ∈ b.allowed := by simpa using known
          simp [same, other, known]

/-- The answer to one that is let in. -/
def grant (b : Switchboard η) (first : Packet) : Packet :=
  first.reply JoinVerdict.codec ⟨true, some b.identity⟩

/-- The answer to one that is not let in. -/
def refusal (first : Packet) : Packet := first.reply JoinVerdict.codec ⟨false, none⟩

/-- From these bytes no node takes that it is let in. -/
def Unwelcoming (bytes : ByteArray) : Prop :=
  ∀ {η : Type} (b : Switchboard η) m, b.enter bytes ≠ .ok m

/-! ### The side that opens -/

theorem host?_ok_iff {p : Packet} {silent : String} {node : NodeIdentity} :
    JoinVerdict.host? p silent = .ok node ↔ p.decode JoinVerdict.codec = .ok ⟨true, some node⟩ := by
  rw [← Packet.message_ok_iff, JoinVerdict.host?]
  cases p.message JoinVerdict.codec with
  | error e => simp [bind, Except.bind]
  | ok v =>
    obtain ⟨accepted, named⟩ := v
    cases accepted with
    | false => simp [bind, Except.bind]
    | true => cases named <;> simp [bind, Except.bind]

/-- What a node that has opened a connection makes of the answer. -/
theorem enter_ok_iff {m : LinkTable.Move} :
    b.enter bytes = .ok m ↔ ∃ first node, Opens bytes first ∧
      first.decode JoinVerdict.codec = .ok ⟨true, some node⟩ ∧ node.id ∈ b.allowed ∧
      m = .attachPeer node.id true := by
  unfold enter
  constructor
  · intro entered
    obtain ⟨first, opens, entered⟩ := bind_eq_ok entered
    obtain ⟨node, named, entered⟩ := bind_eq_ok entered
    split at entered
    · next allowed =>
      obtain rfl := Except.ok.inj entered
      exact ⟨first, node, firstPacket_ok_iff.1 opens, host?_ok_iff.1 named, by simpa using allowed,
        rfl⟩
    · cases entered
  · rintro ⟨first, node, opens, named, allowed, rfl⟩
    have named : JoinVerdict.host? first "remote did not identify itself" = .ok node :=
      host?_ok_iff.2 named
    have allowed : b.allowed.contains node.id = true := by simpa using allowed
    rw [firstPacket_ok_iff.2 opens]
    show (JoinVerdict.host? first _ >>= _) = _
    rw [named]
    exact if_pos allowed

theorem not_enter_empty (b : Switchboard η) (m : LinkTable.Move) : b.enter .empty ≠ .ok m := by
  intro entered
  obtain ⟨first, node, opens, -⟩ := enter_ok_iff.1 entered
  exact not_opens_empty opens

/-- No node takes that it is let in if it is told that it is not. -/
theorem not_enter_refusal (fits : (refusal first).Fits) (channel : first.channel = Channel.join)
    (b : Switchboard η) (m : LinkTable.Move) : b.enter (refusal first).framed ≠ .ok m := by
  intro entered
  obtain ⟨answer, node, opens, named, -⟩ := enter_ok_iff.1 entered
  obtain rfl := (opens_framed fits channel).1 opens
  obtain ⟨-, same⟩ := (JoinVerdict.read_verdict ⟨false, none⟩ _).1 named
  cases same

/-- A node that is told that it is let in takes it so exactly if it can read who the other node is,
and allows it. -/
theorem enter_grant (fits : (b.grant first).Fits) (channel : first.channel = Channel.join)
    {m : LinkTable.Move} : a.enter (b.grant first).framed = .ok m ↔
      b.identity.Portable ∧ b.identity.id ∈ a.allowed ∧ m = .attachPeer b.identity.id true := by
  rw [enter_ok_iff]
  constructor
  · rintro ⟨answer, node, opens, named, allowed, rfl⟩
    obtain rfl := (opens_framed fits channel).1 opens
    obtain ⟨portable, same⟩ := (JoinVerdict.read_verdict ⟨true, some b.identity⟩ _).1 named
    cases same
    exact ⟨portable _ rfl, allowed, rfl⟩
  · rintro ⟨portable, allowed, rfl⟩
    refine ⟨_, _, (opens_framed fits channel).2 rfl, ?_, allowed, rfl⟩
    refine (JoinVerdict.read_verdict ⟨true, some b.identity⟩ _).2 ⟨fun n named => ?_, rfl⟩
    obtain rfl := Option.some.inj named
    exact portable

/-! ### The listening side -/

/-- The first bytes on a connection are a request. -/
structure Asks (bytes : ByteArray) (first : Packet) (q : JoinRequest) : Prop
    extends Opens bytes first where
  request : first.decode JoinRequest.codec = .ok q

theorem Asks.unique {p : Packet} {r : JoinRequest} (h : Asks bytes first q) (g : Asks bytes p r) :
    first = p ∧ q = r := by
  obtain rfl := h.toOpens.unique g.toOpens
  exact ⟨rfl, Except.ok.inj (h.request.symm.trans g.request)⟩

/-- What the listening side makes of the first bytes on a connection. -/
theorem welcome_cases (b : Switchboard η) (bytes : ByteArray) :
    (∃ e, (∀ first q, ¬ Asks bytes first q) ∧ b.welcome bytes = (none, .error e)) ∨
    (∃ first q e, Asks bytes first q ∧ ¬ b.Admits q ∧
      b.welcome bytes = (some (refusal first), .error e)) ∨
    ∃ first q, Asks bytes first q ∧ b.Admits q ∧
      b.welcome bytes = (some (b.grant first), .ok (joined q)) := by
  unfold welcome
  cases opened : firstPacket bytes with
  | error e =>
    refine .inl ⟨e, fun first q asks => ?_, rfl⟩
    rw [firstPacket_ok_iff.2 asks.toOpens] at opened
    cases opened
  | ok first =>
    have opens := firstPacket_ok_iff.1 opened
    dsimp only
    cases message : first.message JoinRequest.codec with
    | error e =>
      refine .inl ⟨e, fun p q asks => ?_, rfl⟩
      obtain rfl := asks.toOpens.unique opens
      rw [Packet.message_ok_iff.2 asks.request] at message
      cases message
    | ok q =>
      have asks : Asks bytes first q := ⟨opens, Packet.message_ok_iff.1 message⟩
      dsimp only
      cases verified : b.verify q with
      | error e =>
        refine .inr (.inl ⟨first, q, e, asks, fun admits => ?_, rfl⟩)
        rw [verify_ok_iff.2 admits] at verified
        cases verified
      | ok _ => exact .inr (.inr ⟨first, q, asks, verify_ok_iff.1 verified, rfl⟩)

/-- The first bytes on a connection are a request of one that is let in, and the answer can be
written. -/
structure LetsIn (b : Switchboard η) (bytes : ByteArray) (first : Packet) (q : JoinRequest) : Prop
    extends Asks bytes first q where
  admits : b.Admits q
  answer : (b.grant first).Fits

/-- **All that may come of the first bytes on a connection**: the link of one that is let in, or
nothing. -/
theorem accept_cases (b : Switchboard η) (bytes : ByteArray) :
    (∃ first q, b.LetsIn bytes first q ∧ b.accept bytes =
      ⟨(b.grant first).framed, (b.move (joined q)).1, (b.move (joined q)).2, .ok ()⟩) ∨
    ((∀ first q, ¬ b.LetsIn bytes first q) ∧ ∃ written e, Unwelcoming written ∧
      b.accept bytes = ⟨written, {}, b, .error e⟩) := by
  have nothing : Unwelcoming .empty := fun b m => b.not_enter_empty m
  obtain ⟨e, silent, welcome⟩ | ⟨first, q, e, asks, refused, welcome⟩ |
    ⟨first, q, asks, admits, welcome⟩ := b.welcome_cases bytes
  · exact .inr ⟨fun first q h => silent first q h.toAsks, _, e, nothing, by
      rw [accept, welcome]; rfl⟩
  · have refused : ∀ p r, ¬ b.LetsIn bytes p r := by
      intro p r h
      obtain ⟨rfl, rfl⟩ := asks.unique h.toAsks
      exact refused h.admits
    by_cases fits : (refusal first).Fits
    · refine .inr ⟨refused, _, e, fun b m => not_enter_refusal fits asks.channel b m, ?_⟩
      rw [accept, welcome]
      dsimp only [Option.elim]
      rw [Packet.frame_of_fits fits]
    · obtain ⟨f, large⟩ := Packet.frame_of_not_fits fits
      refine .inr ⟨refused, _, f, nothing, ?_⟩
      rw [accept, welcome]
      dsimp only [Option.elim]
      rw [large]
  · by_cases fits : (b.grant first).Fits
    · refine .inl ⟨first, q, ⟨asks, admits, fits⟩, ?_⟩
      rw [accept, welcome]
      dsimp only [Option.elim]
      rw [Packet.frame_of_fits fits]
    · obtain ⟨f, large⟩ := Packet.frame_of_not_fits fits
      refine .inr ⟨fun p r h => ?_, _, f, nothing, ?_⟩
      · obtain ⟨rfl, rfl⟩ := asks.unique h.toAsks
        exact fits h.answer
      · rw [accept, welcome]
        dsimp only [Option.elim]
        rw [large]

/-- A node is let in exactly if it can be read who it is, and is admitted. -/
theorem letsIn_hello (fits : (a.hello id).Fits) :
    b.LetsIn (a.hello id).framed first q ↔
      (first = a.hello id ∧ q = .node a.identity a.secret) ∧ a.identity.Portable ∧
        b.Admits (.node a.identity a.secret) ∧ (b.grant (a.hello id)).Fits := by
  constructor
  · rintro ⟨⟨opens, request⟩, admits, answer⟩
    obtain rfl := (opens_framed fits rfl).1 opens
    obtain ⟨portable, rfl⟩ := (JoinRequest.read_node a.identity a.secret q).1 request
    exact ⟨⟨rfl, rfl⟩, portable, admits, answer⟩
  · rintro ⟨⟨rfl, rfl⟩, portable, admits, answer⟩
    refine ⟨⟨(opens_framed fits rfl).2 rfl, ?_⟩, admits, answer⟩
    exact (JoinRequest.read_node a.identity a.secret _).2 ⟨portable, rfl⟩

end Switchboard

end WorkerCluster
