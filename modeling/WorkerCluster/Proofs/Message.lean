import WorkerCluster.Message.Channel
import WorkerCluster.Message.Join
import WorkerCluster.Message.Remote
import WorkerCluster.Proofs.Worker

/-!
# Messages read back

* For every type of message, `Portable` says what JSON can hold of it and `codec_reads` that such a
  message is read back.
* `WorkerRequest.codec_reads` takes apart what stands side by side in one object: the worker and the
  fields of the operation.
* `MessageKind` lists the types of messages; `MessageKind.decode_packet` is the main statement, for
  all of them.
-/

namespace WorkerCluster

open Json
open Json.Codec (string_reads bool_reads uint16_reads uint32_reads uint64_reads list_reads
  map_reads option_reads json_reads)
open Json.Fields (record_reads option_record_reads)

/-! ### Nodes -/

/-- All listeners have hosts. -/
def NodeIdentity.Portable (n : NodeIdentity) : Prop := ∀ a ∈ n.listeners, a.host ≠ ""

theorem NodeIdentity.codec_reads {n : NodeIdentity} (h : n.Portable) : NodeIdentity.codec.Reads n :=
  record_reads (by decide)
    ⟨string_reads _, list_reads fun a ha => Address.codec_reads (h a ha), trivial⟩ rfl

/-- What JSON can hold of a status. -/
structure NodeStatus.Portable (s : NodeStatus) : Prop where
  /-- All listeners have hosts. -/
  node : s.node.Portable
  /-- The use of the processor is a number. -/
  usage : s.process.cpuUsage.isFinite = true

theorem NodeStatus.codec_reads {s : NodeStatus} (h : s.Portable) : NodeStatus.codec.Reads s :=
  record_reads (by decide)
    ⟨uint64_reads _, NodeIdentity.codec_reads h.node, string_reads _, uint32_reads _,
      uint64_reads _, uint64_reads _, uint64_reads _, ProcessUsage.codec_reads h.usage, trivial⟩ rfl

/-! ### Collections -/

theorem GroupSpec.codec_reads (g : GroupSpec) : GroupSpec.codec.Reads g :=
  record_reads (by decide)
    ⟨string_reads _, list_reads fun t _ => t.codec_reads, list_reads fun i _ => i.codec_reads,
      list_reads fun d _ => d.codec_reads, trivial⟩ rfl

theorem TaskSpec.codec_reads (t : TaskSpec) : TaskSpec.codec.Reads t :=
  record_reads (by decide)
    ⟨string_reads _, uint32_reads _, strings_read _, bool_reads _, strings_read _,
      list_reads fun t _ => t.codec_reads, list_reads fun i _ => i.codec_reads,
      list_reads fun d _ => d.codec_reads, t.program.codec_reads,
      option_reads fun n _ => ⟨uint16_reads n, Json.noConfusion⟩, bool_reads _, bool_reads _,
      trivial⟩ rfl

/-- Users and groups are as JSON holds them. -/
def Permissions.Canonical (p : Permissions) : Prop :=
  (∀ j ∈ p.users, j.Canonical) ∧ ∀ j ∈ p.groups, j.Canonical

theorem Permissions.codec_reads {p : Permissions} (h : p.Canonical) : Permissions.codec.Reads p :=
  record_reads (by decide)
    ⟨list_reads fun j hj => json_reads (h.1 j hj), list_reads fun j hj => json_reads (h.2 j hj),
      trivial⟩ rfl

/-- The documents are as JSON holds them. -/
def Datasets.Canonical (d : Datasets) : Prop :=
  ∀ e ∈ d.entries, ∀ document ∈ e.2.entries, document.2.Canonical

theorem Datasets.codec_reads {d : Datasets} (h : d.Canonical) : Datasets.codec.Reads d :=
  map_reads fun e he => map_reads fun document hd => json_reads (h e he document hd)

/-! ### Joining -/

/-- What JSON can hold of a request to join. -/
def JoinRequest.Portable : JoinRequest → Prop
  | .node n _ => n.Portable
  | .worker _ _ => True

theorem JoinRequest.codec_reads {q : JoinRequest} (h : q.Portable) : JoinRequest.codec.Reads q := by
  intro r admits
  cases q with
  | node node secret =>
    exact Variant.read_ofFields admits rfl rfl (by decide) (by decide)
      ⟨NodeIdentity.codec_reads h, string_reads _, trivial⟩
  | worker worker secret =>
    exact Variant.read_ofFields admits rfl rfl (by decide) (by decide)
      ⟨worker.codec_reads, string_reads _, trivial⟩

/-- What JSON can hold of a verdict. -/
def JoinVerdict.Portable (v : JoinVerdict) : Prop := ∀ n ∈ v.node, n.Portable

theorem JoinVerdict.codec_reads {v : JoinVerdict} (h : v.Portable) : JoinVerdict.codec.Reads v :=
  record_reads (by decide)
    ⟨bool_reads _, option_record_reads fun n hn => NodeIdentity.codec_reads (h n hn), trivial⟩
    rfl

/-! ### The cluster -/

/-- What JSON can hold of a message between nodes. -/
def ClusterMessage.Portable : ClusterMessage → Prop
  | .status s => s.Portable
  | .tasks _ | .groups _ => True
  | .permissions p => p.Canonical
  | .datasets d => d.Canonical
  | .workers l => ∀ w ∈ l, w.Portable

theorem ClusterMessage.codec_reads {m : ClusterMessage} (h : m.Portable) :
    ClusterMessage.codec.Reads m := by
  intro r admits
  cases m with
  | status s =>
    exact Variant.read_ofFields admits rfl rfl (by decide) (by decide)
      ⟨NodeStatus.codec_reads h, trivial⟩
  | tasks l =>
    exact Variant.read_ofFields admits rfl rfl (by decide) (by decide)
      ⟨list_reads fun t _ => t.codec_reads, trivial⟩
  | groups l =>
    exact Variant.read_ofFields admits rfl rfl (by decide) (by decide)
      ⟨list_reads fun g _ => g.codec_reads, trivial⟩
  | permissions p =>
    exact Variant.read_ofFields admits rfl rfl (by decide) (by decide)
      ⟨Permissions.codec_reads h, trivial⟩
  | datasets d =>
    exact Variant.read_ofFields admits rfl rfl (by decide) (by decide)
      ⟨Datasets.codec_reads h, trivial⟩
  | workers l =>
    exact Variant.read_ofFields admits rfl rfl (by decide) (by decide)
      ⟨list_reads fun w hw => WorkerRecord.codec_reads (h w hw), trivial⟩

/-! ### Requests and answers -/

theorem WorkerOperation.codec_reads (o : WorkerOperation) : WorkerOperation.codec.Reads o := by
  intro r admits
  cases o with
  | run command =>
    exact Variant.read_ofFields admits rfl rfl (by decide) (by decide) ⟨string_reads _, trivial⟩
  | addTemplate t =>
    exact Variant.read_ofFields admits rfl rfl (by decide) (by decide) ⟨t.codec_reads, trivial⟩
  | addInclusion i =>
    exact Variant.read_ofFields admits rfl rfl (by decide) (by decide) ⟨i.codec_reads, trivial⟩
  | addDeployment d =>
    exact Variant.read_ofFields admits rfl rfl (by decide) (by decide) ⟨d.codec_reads, trivial⟩
  | _ => exact Variant.read_unit admits rfl

namespace WorkerRequest

/-- The fields of the operation are only passed on. -/
theorem readEntries_others {r : Reading} {entries : List (String × Json)}
    (ne : ∀ e ∈ entries, e.1 ≠ "service_id") (admits : r.Admits (depthFields entries))
    (found : Option Uuid) :
    readEntries r (Source.ofFields entries) found = .ok (found, Source.ofFields entries) := by
  refine passed_on (f := fun l => readEntries r l found) rfl ?_ ne admits
  intro name j entries other
  rw [Source.ofFields, readEntries,
    show (Atom.ofScalar (.string name)).string? = .ok name from rfl, bind_ok, if_neg other]

/-- The names under which operations are written. -/
theorem mem_operation_names {o : WorkerOperation} {e : String × Json} (h : e ∈ o.entries.2) :
    e.1 ∈ ["command", "template", "inclusion", "deployment"] := by
  cases o with
  | run | addTemplate | addInclusion | addDeployment =>
    cases List.mem_singleton.1 h
    simp [Field.required]
  | _ => cases h

theorem ne_of_mem_operation {o : WorkerOperation} {name : String}
    (distinct : name ∉ ["op", "command", "template", "inclusion", "deployment"]) :
    ∀ e ∈ ("op", Json.string o.entries.1) :: o.entries.2, e.1 ≠ name := by
  rintro e he rfl
  rcases List.mem_cons.1 he with rfl | he
  · exact distinct (List.mem_cons_self ..)
  · exact distinct (List.mem_cons_of_mem _ (mem_operation_names he))

/-- **A request is read back**: the worker from its own field, the operation from the others. -/
theorem codec_reads (q : WorkerRequest) : codec.Reads q := by
  intro r admits
  obtain ⟨r', enter, admits⟩ := Reading.Admits.enter admits
  have worker := q.worker.codec_reads r' (admits.mono (le_max_left ..))
  have others := readEntries_others (ne_of_mem_operation (o := q.operation) (by decide))
    (admits.mono (le_max_right ..)) (some q.worker)
  have operation : WorkerOperation.codec.decode .buffered (.fields (Source.ofFields
      (("op", .string q.operation.entries.1) :: q.operation.entries.2)) none) = .ok q.operation :=
    q.operation.codec_reads .buffered trivial
  have all : readEntries r' (Source.ofFields q.entries) none = .ok (some q.worker,
      Source.ofFields (("op", .string q.operation.entries.1) :: q.operation.entries.2)) := by
    rw [entries, Source.ofFields, readEntries,
      show (Atom.ofScalar (.string "service_id")).string? = .ok "service_id" from rfl, bind_ok,
      if_pos rfl, worker]
    exact others
  unfold codec
  dsimp only
  rw [Source.ofJson]
  dsimp only
  rw [enter, bind_ok, all, bind_ok, closed, bind_ok]
  dsimp only
  rw [operation]
  rfl

end WorkerRequest

/-- What JSON can hold of a request between nodes. -/
def RemoteRequest.Portable : RemoteRequest → Prop
  | .worker _ => True
  | .create p => p.properties.Canonical

theorem RemoteRequest.codec_reads {q : RemoteRequest} (h : q.Portable) :
    RemoteRequest.codec.Reads q := by
  intro r admits
  cases q with
  | worker q =>
    have service : WorkerRequest.codec.decode .buffered (.fields (Source.ofFields q.entries) none) =
        .ok q := q.codec_reads .buffered trivial
    refine (Variant.read_write rfl ?_ admits).trans ?_
    · intro e he
      rcases List.mem_cons.1 he with rfl | he
      · exact (by decide : "service_id" ≠ "type")
      · exact WorkerRequest.ne_of_mem_operation (by decide) e he
    · show RemoteRequest.worker <$> WorkerRequest.codec.decode .buffered _ = _
      rw [service]
      rfl
  | create p =>
    exact Variant.read_ofFields admits rfl rfl (by decide) (by decide)
      ⟨WorkerPlan.codec_reads h, trivial⟩

/-- What JSON can hold of an answer. -/
def RemoteResponse.Portable : RemoteResponse → Prop
  | .record o => ∀ w ∈ o, w.Portable
  | .logs _ | .refused _ => True

theorem RemoteResponse.codec_reads {a : RemoteResponse} (h : a.Portable) :
    RemoteResponse.codec.Reads a := by
  intro r admits
  cases a with
  | record w =>
    exact Variant.read_ofFields admits rfl rfl (by decide) (by decide)
      ⟨option_record_reads fun w hw => WorkerRecord.codec_reads (h w hw), trivial⟩
  | logs l =>
    exact Variant.read_ofFields admits rfl rfl (by decide) (by decide)
      ⟨option_reads fun l _ => ⟨strings_read l, Json.noConfusion⟩, trivial⟩
  | refused reason =>
    exact Variant.read_ofFields admits rfl rfl (by decide) (by decide) ⟨string_reads _, trivial⟩

/-! ### Announcements -/

theorem Announcement.codec_reads {a : Announcement} (h : a.data.Canonical) :
    Announcement.codec.Reads a :=
  record_reads (by decide)
    ⟨string_reads _, string_reads _, string_reads _, json_reads h, trivial⟩ rfl

/-! ### All messages -/

/-- The types of messages that travel in packets. -/
inductive MessageKind
  | joinRequest
  | joinVerdict
  | cluster
  | workerUpdate
  | workerRequest
  | remoteRequest
  | remoteResponse
  | announcement

namespace MessageKind

/-- The messages of a type. -/
abbrev Message : MessageKind → Type
  | .joinRequest => JoinRequest
  | .joinVerdict => JoinVerdict
  | .cluster => ClusterMessage
  | .workerUpdate => WorkerUpdate
  | .workerRequest => WorkerRequest
  | .remoteRequest => RemoteRequest
  | .remoteResponse => RemoteResponse
  | .announcement => Announcement

/-- How they are written and read. -/
def codec : (k : MessageKind) → Codec k.Message
  | .joinRequest => JoinRequest.codec
  | .joinVerdict => JoinVerdict.codec
  | .cluster => ClusterMessage.codec
  | .workerUpdate => WorkerUpdate.codec
  | .workerRequest => WorkerRequest.codec
  | .remoteRequest => RemoteRequest.codec
  | .remoteResponse => RemoteResponse.codec
  | .announcement => Announcement.codec

/-- What JSON can hold of them: uses of processors that are numbers, addresses with hosts, and JSON
values whose objects have their fields in order. -/
def Portable : (k : MessageKind) → k.Message → Prop
  | .joinRequest, q => q.Portable
  | .joinVerdict, v => v.Portable
  | .cluster, m => m.Portable
  | .workerUpdate, u => u.record.Portable
  | .workerRequest, _ => True
  | .remoteRequest, q => q.Portable
  | .remoteResponse, a => a.Portable
  | .announcement, a => a.data.Canonical

theorem codec_reads {k : MessageKind} {m : k.Message} (h : k.Portable m) : k.codec.Reads m := by
  cases k with
  | joinRequest => exact JoinRequest.codec_reads h
  | joinVerdict => exact JoinVerdict.codec_reads h
  | cluster => exact ClusterMessage.codec_reads h
  | workerUpdate => exact WorkerUpdate.codec_reads h
  | workerRequest => exact WorkerRequest.codec_reads m
  | remoteRequest => exact RemoteRequest.codec_reads h
  | remoteResponse => exact RemoteResponse.codec_reads h
  | announcement => exact Announcement.codec_reads h

/-- **A message of any type is read back from the packet in which it is written**, unless it nests
too deep. -/
theorem decode_packet (k : MessageKind) {m : k.Message} (portable : k.Portable m)
    (depth : (k.codec.encode m).depth ≤ Reading.nestingLimit) (channel : String) :
    (Packet.json channel k.codec m).decode k.codec = .ok m :=
  Packet.decode_json (codec_reads portable) depth channel

/-- An operation with fields of its own. -/
def queueing : RemoteRequest :=
  .worker ⟨.ofNat 7, .addDeployment ⟨⟨"global", "lobby", "local"⟩, ["logs"]⟩⟩

/-- A message with free data. -/
def remark : Announcement :=
  ⟨"node-1", "chat", "hello", .fields [("to", .array [.null, .string "all"])]⟩

/-- Both are read back. -/
theorem decode_packet_samples :
    (MessageKind.remoteRequest.Portable queueing ∧
      (MessageKind.remoteRequest.codec.encode queueing).depth ≤ Reading.nestingLimit ∧
      (Packet.json Channel.remote MessageKind.remoteRequest.codec queueing).decode
        MessageKind.remoteRequest.codec = .ok queueing) ∧
    MessageKind.announcement.Portable remark ∧
      (MessageKind.announcement.codec.encode remark).depth ≤ Reading.nestingLimit ∧
      (Packet.json Channel.announcements MessageKind.announcement.codec remark).decode
        MessageKind.announcement.codec = .ok remark := by
  have queueing_portable : MessageKind.remoteRequest.Portable queueing := trivial
  have queueing_depth :
      (MessageKind.remoteRequest.codec.encode queueing).depth ≤ Reading.nestingLimit := by decide
  have remark_portable : MessageKind.announcement.Portable remark :=
    ⟨List.pairwise_singleton _ _, ⟨trivial, trivial, trivial⟩, trivial⟩
  have remark_depth :
      (MessageKind.announcement.codec.encode remark).depth ≤ Reading.nestingLimit := by decide
  exact ⟨⟨queueing_portable, queueing_depth, decode_packet _ queueing_portable queueing_depth _⟩,
    remark_portable, remark_depth, decode_packet _ remark_portable remark_depth _⟩

end MessageKind

end WorkerCluster
