import WorkerCluster.Proofs.Config
import WorkerCluster.Proofs.Node.Follow
import WorkerCluster.Proofs.Node.Memory
import WorkerCluster.Proofs.Node.Turn
import WorkerCluster.Proofs.Store
import WorkerCluster.Proofs.Supervisor.Answers

/-!
# Operations that are passed on

A node that does not own a worker passes operations on it to the node that does, and plans to the
node that they name. Nobody can tell the difference.

* `RemoteRequest.Sendable` and `RemoteResponse.Sendable` hold for what survives being written and
  read. Every operation on a worker does: `WorkerRequest.sendable`.
* `Node.ask` carries a request to a node and its answer back.
* `Node.dispatch_elsewhere` and `Node.dispatchCreate_elsewhere` are about the node that passes on,
  `Node.receive_request` and `Node.ofReply_ask` about the one that is asked.
* `passed_on_transparently` puts both together.
-/

namespace WorkerCluster

open Json

/-! ### Requests and answers in packets -/

/-- A request that can be sent: its properties are as JSON holds them, and it nests no deeper than
can be read. -/
structure RemoteRequest.Sendable (q : RemoteRequest) : Prop where
  portable : q.Portable
  depth : (RemoteRequest.codec.encode q).depth ≤ Reading.nestingLimit

/-- An answer that can be sent: its properties are as JSON holds them, and it nests no deeper than
can be read. -/
structure RemoteResponse.Sendable (a : RemoteResponse) : Prop where
  canonical : a.Canonical
  depth : (RemoteResponse.codec.encode a).depth ≤ Reading.nestingLimit

theorem WorkerOperation.entries_nest (o : WorkerOperation) :
    ∀ e ∈ o.entries.2, e.2.depth ≤ 2 := by
  cases o with
  | run command => exact List.forall_mem_singleton.2 (string_nests command)
  | addTemplate t => exact List.forall_mem_singleton.2 (Template.codec_nests t)
  | addInclusion i => exact List.forall_mem_singleton.2 (Inclusion.codec_nests i)
  | addDeployment d => exact List.forall_mem_singleton.2 (Deployment.codec_nests d)
  | _ => exact fun _ h => nomatch h

/-- Operations on workers can be sent, whatever they hold. -/
theorem WorkerRequest.sendable (q : WorkerRequest) : RemoteRequest.Sendable (.worker q) where
  portable := trivial
  depth := by
    have fields : depthFields (("type", .string "service") :: q.entries) ≤ 2 := by
      refine depthFields_le (List.forall_mem_cons.2 ⟨Nat.zero_le _, ?_⟩)
      refine List.forall_mem_cons.2 ⟨Nat.zero_le _, ?_⟩
      exact List.forall_mem_cons.2 ⟨Nat.zero_le _, q.operation.entries_nest⟩
    exact (Nat.succ_le_succ fields).trans (by decide)

/-- What the packet of a request asks for is to serve it. -/
theorem RemoteRequest.Sendable.ofPacket {q : RemoteRequest} (h : q.Sendable) (origin : Origin)
    (id : Uuid) : Errand.ofPacket origin (q.packet id) = some (.serve origin (q.packet id) q) := by
  have read : (q.packet id).decode RemoteRequest.codec = .ok q :=
    Packet.decode_json (RemoteRequest.codec_reads h.portable) h.depth Channel.remote
  have named : (q.packet id).id = some id := rfl
  have channel : (q.packet id).channel = Channel.remote := rfl
  unfold Errand.ofPacket
  rw [channel, if_neg (by decide), if_neg (by decide), if_pos rfl, read, named]

/-- An answer that is no refusal is what its packet means. -/
theorem RemoteResponse.ofReply_reply {a : RemoteResponse} (portable : a.Portable)
    (depth : (RemoteResponse.codec.encode a).depth ≤ Reading.nestingLimit)
    (answered : ∀ reason, a ≠ .refused reason) (p : Packet) :
    ofReply (.ok (p.reply RemoteResponse.codec a)) = some a := by
  have read : (p.reply RemoteResponse.codec a).decode RemoteResponse.codec = .ok a :=
    Packet.decode_json (RemoteResponse.codec_reads portable) depth p.channel
  unfold ofReply
  dsimp only
  rw [read]
  cases a with
  | record w => rfl
  | logs lines => rfl
  | refused reason => exact absurd rfl (answered reason)

namespace Node

variable {ca cb c : Config} {a b n : Node} {q : RemoteRequest}

/-! ### The node that is asked -/

/-- What a node answers to a packet, if anything. -/
def answer? (n : Node) (origin : Origin) (p : Packet) : Option Packet :=
  match Errand.ofPacket origin p with
  | some e =>
    match (n.perform e).1 with
    | .reply _ answer => some answer
    | _ => none
  | none => none

/-- Ask a node in the name of another one. Nobody else can be asked; if there is no answer, the time
runs out. -/
def ask (n : Node) (asker : NodeId) (id : Uuid) (node : NodeId) (q : RemoteRequest) :
    Except TransportError Packet :=
  if node = n.identity.id then
    match n.answer? (.peer asker) (q.packet id) with
    | some answer => .ok answer
    | none => .error .timeout
  else .error (.notConnected node)

/-- A node that is asked serves the request. -/
theorem receive_request (sendable : q.Sendable) (n : Node) (origin : Origin) (id : Uuid) :
    n.receive origin (q.packet id) = (n.onSupervisor (·.serve q)).2 := by
  rw [receive, sendable.ofPacket]
  rfl

/-- It answers what the supervisor does, under the id of the request. -/
theorem answer?_request (sendable : q.Sendable) (n : Node) (origin : Origin) (id : Uuid) :
    n.answer? origin (q.packet id) =
      some ((q.packet id).reply RemoteResponse.codec (n.supervisor.serve q).1) := by
  rw [answer?, sendable.ofPacket]
  rfl

/-- The supervisor of a node whose listeners have hosts is healthy at all times. -/
theorem Reachable.healthy (h : Reachable c n) (hosts : c.identity.Portable) :
    n.supervisor.Healthy := by
  unfold Supervisor.Healthy
  rw [h.configured.node]
  exact h.allOwned (Supervisor.kept_healthy c.identity c.settings hosts)

/-- **Who asks a node learns what it answers.** -/
theorem ofReply_ask (h : Reachable c n) (hosts : c.identity.Portable) (request : q.Sendable)
    (response : (n.supervisor.serve q).1.Sendable) (asker : NodeId) (id : Uuid) :
    RemoteResponse.ofReply (n.ask asker id n.identity.id q) = some (n.supervisor.serve q).1 := by
  have portable : (n.supervisor.serve q).1.Portable := by
    refine Supervisor.serve_portable ?_ (h.healthy hosts) response.canonical
    rw [h.configured.node]
    exact hosts
  rw [ask, if_pos rfl, answer?_request request]
  exact RemoteResponse.ofReply_reply portable response.depth (Supervisor.serve_ne_refused _ q) _

/-! ### The node that passes on -/

/-- Nothing happens to a node whose supervisor does nothing. -/
theorem onSupervisor_self {α : Type} {act : Supervisor → α × Supervisor} {x : α}
    (quiet : n.supervisor.outbox = []) (h : act n.supervisor = (x, n.supervisor)) :
    n.onSupervisor act = (x, n) := by
  obtain ⟨roster, supervisor, replica, probe, outbox⟩ := n
  obtain ⟨node, settings, owned, remote, launcher, host, told⟩ := supervisor
  dsimp only at quiet h
  subst quiet
  unfold onSupervisor
  dsimp only
  rw [h]
  simp [postAll]

/-- A node is never connected to itself. -/
theorem Configured.ne_of_isConnected (h : Configured c n) {peer : NodeId}
    (connected : n.roster.isConnected peer = true) : peer ≠ n.supervisor.node.id := by
  rintro rfl
  have known := Roster.contains_of_isConnected connected
  rw [h.node, h.stranger] at known
  cases known

/-- **An operation on a worker of a connected peer is passed on as it is**, and nothing else
happens. -/
theorem dispatch_elsewhere (h : Configured c n) {q : WorkerRequest} {w : WorkerRecord}
    (foreign : n.supervisor.owns q.worker = false)
    (found : n.supervisor.remote.find? q.worker = some w)
    (connected : n.roster.isConnected w.owner = true) :
    n.dispatch q = (.forward w.owner (.worker q), n) := by
  refine onSupervisor_self h.outbox ?_
  have route : n.supervisor.route n.roster.isConnected q.worker = .peer w.owner := by
    simp [Supervisor.route, foreign, found, connected]
  rw [Supervisor.dispatch, route]

/-- **A plan that names a connected peer is passed on as it is**, and nothing else happens. -/
theorem dispatchCreate_elsewhere (h : Configured c n) {plan : WorkerPlan} {peer : NodeId}
    (named : plan.owner = some peer) (connected : n.roster.isConnected peer = true) :
    n.dispatchCreate plan = (.forward peer (.create plan), n) := by
  refine onSupervisor_self h.outbox ?_
  have other : peer ≠ n.supervisor.node.id := h.ne_of_isConnected connected
  simp [Supervisor.dispatchCreate, named, other, connected]

/-! ### Both -/

/-- **Passing an operation on comes to the same as doing it where it goes to.** Let the second node
be connected, as far as the first one knows, in whatever states both are.

An operation on a worker that the first node has recorded as one of the second is passed on
unchanged, and nothing happens to the first node; the answer that comes back is the one that the
second node gives to the operation itself; and the second node is left as by the operation itself.
The same holds of a plan that names the second node.

The values in requests and answers can be sent. The listeners of the second node have hosts, as all
those have that are read from a file (`Config.portable_of_parse`). -/
theorem passed_on_transparently (ha : Reachable ca a) (hb : Reachable cb b)
    (hosts : cb.identity.Portable) (connected : a.roster.isConnected b.identity.id = true)
    (id : Uuid) :
    (∀ (q : WorkerRequest) (w : WorkerRecord),
      a.supervisor.remote.find? q.worker = some w → w.owner = b.identity.id →
      a.supervisor.owns q.worker = false → (b.supervisor.execute q).1.Sendable →
        a.dispatch q = (.forward b.identity.id (.worker q), a) ∧
        (a.dispatch q).1.resolve (b.ask a.identity.id id) = some (b.supervisor.execute q).1 ∧
        b.receive (.peer a.identity.id) ((RemoteRequest.worker q).packet id) =
          (b.onSupervisor (·.execute q)).2) ∧
    (∀ plan : WorkerPlan,
      plan.owner = some b.identity.id → (RemoteRequest.create plan).Sendable →
      (RemoteResponse.record (b.supervisor.create plan).1).Sendable →
        a.dispatchCreate plan = (.forward b.identity.id (.create plan), a) ∧
        (a.dispatchCreate plan).1.resolve (b.ask a.identity.id id) =
          some (.record (b.supervisor.create plan).1) ∧
        b.receive (.peer a.identity.id) ((RemoteRequest.create plan).packet id) =
          (b.onSupervisor (·.create plan)).2) := by
  constructor
  · intro q w found owner foreign response
    have forward : a.dispatch q = (.forward b.identity.id (.worker q), a) := by
      rw [← owner]
      exact dispatch_elsewhere ha.configured foreign found (owner ▸ connected)
    refine ⟨forward, ?_, receive_request q.sendable b _ id⟩
    rw [forward]
    exact ofReply_ask hb hosts q.sendable response a.identity.id id
  · intro plan named request response
    have forward : a.dispatchCreate plan = (.forward b.identity.id (.create plan), a) :=
      dispatchCreate_elsewhere ha.configured named connected
    refine ⟨forward, ?_, receive_request request b _ id⟩
    rw [forward]
    exact ofReply_ask hb hosts request response a.identity.id id

/-! ### A small run -/

/-- The configuration of a node with one listener and one peer. -/
def linkedConfig (home peer : NodeIdentity) : Config :=
  { identity := home, cluster := { nodes := [peer] } }

/-- Such a node before anything has happened. -/
def linked (home peer : NodeIdentity) : Node :=
  (Node.new (linkedConfig home peer) {} {} {}).toOption.getD default

/-- The first node. -/
def borrowerIdentity : NodeIdentity := ⟨"node-1", [⟨"10.0.0.1", 1410⟩]⟩

/-- The second node. -/
def lenderIdentity : NodeIdentity := ⟨"node-2", [⟨"10.0.0.2", 1410⟩]⟩

/-- The configuration of the second node as it is written in a file. -/
def lenderText : String :=
  "[identity]\nid = \"node-2\"\nlisteners = [\"10.0.0.2:1410\"]\n" ++
    "[[cluster.nodes]]\nid = \"node-1\"\nlisteners = [\"10.0.0.1:1410\"]\n"

theorem parse_lenderText :
    Config.parse lenderText = .ok (linkedConfig lenderIdentity borrowerIdentity) := by
  have read : (Config.parse lenderText).toOption =
      some (linkedConfig lenderIdentity borrowerIdentity) := by decide +kernel
  cases parsed : Config.parse lenderText with
  | error e =>
    rw [parsed] at read
    cases read
  | ok c =>
    rw [parsed] at read
    exact congrArg _ (Option.some.inj read)

/-- The second node has made a worker. -/
def lender : Node :=
  (linked lenderIdentity borrowerIdentity).run [.supervise (.create Supervisor.lobbyPlan)]

/-- The record of that worker. -/
def lentRecord : WorkerRecord := (lender.supervisor.ownedRecords.head?).getD default

/-- The first node is connected to the second one and has heard of the worker. -/
def borrower : Node :=
  (linked borrowerIdentity lenderIdentity).run
    [.errand (.notice (.peerConnected "node-2")), .errand (.follow "node-2" ⟨lentRecord⟩)]

/-- An operation on the worker. -/
def startLent : WorkerRequest := ⟨Supervisor.lobbyId, .start⟩

/-- A plan that names the second node. -/
def lenderPlan : WorkerPlan := { Supervisor.lobbyPlan with owner := some "node-2" }

theorem reachable_lender : Reachable (linkedConfig lenderIdentity borrowerIdentity) lender :=
  Reachable.run (.start {} {} {} rfl) _

theorem reachable_borrower : Reachable (linkedConfig borrowerIdentity lenderIdentity) borrower :=
  Reachable.run (.start {} {} {} rfl) _

/-- The worker is started from the first node, and another one is made there. -/
theorem lender_passed_on :
    ((lender.supervisor.execute startLent).1.record?.map (·.lifecycle) = some .running ∧
      (lender.supervisor.create lenderPlan).1.map (·.id.number) = some 2) ∧
      (borrower.dispatch startLent = (.forward "node-2" (.worker startLent), borrower) ∧
        (borrower.dispatch startLent).1.resolve (lender.ask "node-1" (.ofNat 9)) =
          some (lender.supervisor.execute startLent).1 ∧
        lender.receive (.peer "node-1") ((RemoteRequest.worker startLent).packet (.ofNat 9)) =
          (lender.onSupervisor (·.execute startLent)).2) ∧
      (borrower.dispatchCreate lenderPlan = (.forward "node-2" (.create lenderPlan), borrower) ∧
        (borrower.dispatchCreate lenderPlan).1.resolve (lender.ask "node-1" (.ofNat 9)) =
          some (.record (lender.supervisor.create lenderPlan).1) ∧
        lender.receive (.peer "node-1") ((RemoteRequest.create lenderPlan).packet (.ofNat 9)) =
          (lender.onSupervisor (·.create lenderPlan)).2) := by
  have both := passed_on_transparently reachable_borrower reachable_lender
    (Config.portable_of_parse parse_lenderText) (by decide +kernel) (.ofNat 9)
  -- no worker has any properties here
  have empty : Properties.Canonical .empty := fun _ h => nomatch h
  have started : (lender.supervisor.execute startLent).1.Sendable := by
    refine ⟨fun w hw => ?_, by decide +kernel⟩
    cases hw
    exact ⟨empty, empty⟩
  have made : (RemoteResponse.record (lender.supervisor.create lenderPlan).1).Sendable := by
    refine ⟨fun w hw => ?_, by decide +kernel⟩
    cases hw
    exact ⟨empty, empty⟩
  exact ⟨by decide +kernel, both.1 startLent lentRecord rfl rfl (by decide +kernel) started,
    both.2 lenderPlan rfl ⟨empty, by decide +kernel⟩ made⟩

end Node

end WorkerCluster
