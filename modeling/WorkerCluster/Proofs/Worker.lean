import WorkerCluster.Message.Cluster
import WorkerCluster.Packet.Basic
import WorkerCluster.Proofs.Address
import WorkerCluster.Proofs.Json.Codec
import WorkerCluster.Proofs.Uuid

/-!
# Records of workers read back

* `WorkerRecord.Portable` says what JSON can hold of a record; `WorkerRecord.codec_reads` reads such
  a record back.
* `Packet.decode_json` takes that to packets.
-/

namespace WorkerCluster

open Json
open Json.Codec (string_reads bool_reads uint16_reads uint32_reads uint64_reads list_reads
  map_reads option_reads refine_reads)
open Json.Fields (record_reads)

/-! ### Parts -/

theorem Uuid.codec_reads (u : Uuid) : Uuid.codec.Reads u :=
  refine_reads (string_reads _) u.parse?_text

theorem Address.codec_reads {a : Address} (h : a.host ≠ "") : Address.codec.Reads a :=
  refine_reads (string_reads _) (by rw [Address.parse_text_of_host h]; rfl)

theorem Lifecycle.codec_reads (l : Lifecycle) : Lifecycle.codec.Reads l := by
  intro r _
  cases l <;> rfl

theorem strings_read (l : List String) : (Codec.list Codec.string).Reads l :=
  list_reads fun s _ => string_reads s

theorem Template.codec_reads (t : Template) : Template.codec.Reads t :=
  record_reads (by decide) ⟨string_reads _, string_reads _, string_reads _, trivial⟩ rfl

theorem Inclusion.codec_reads (i : Inclusion) : Inclusion.codec.Reads i :=
  record_reads (by decide) ⟨string_reads _, string_reads _, trivial⟩ rfl

theorem Deployment.codec_reads (d : Deployment) : Deployment.codec.Reads d :=
  record_reads (by decide) ⟨d.template.codec_reads, strings_read _, trivial⟩ rfl

theorem Program.codec_reads (p : Program) : Program.codec.Reads p :=
  record_reads (by decide)
    ⟨string_reads _, strings_read _, uint64_reads _, map_reads fun e _ => string_reads e.2, trivial⟩
    rfl

theorem WorkerId.codec_reads (w : WorkerId) : WorkerId.codec.Reads w :=
  record_reads (by decide)
    ⟨w.uuid.codec_reads, string_reads _, uint32_reads _, string_reads _, trivial⟩ rfl

theorem ProcessUsage.codec_reads {u : ProcessUsage} (h : u.cpuUsage.isFinite = true) :
    ProcessUsage.codec.Reads u :=
  record_reads (by decide)
    ⟨uint32_reads _, uint64_reads _, uint64_reads _, Codec.float_reads h, uint32_reads _, trivial⟩
    rfl

/-! ### Records -/

/-- The values are as JSON holds them: every object has its fields in order. -/
def Properties.Canonical (p : Properties) : Prop := ∀ e ∈ p.entries, e.2.Canonical

/-- What JSON can hold of a record. -/
structure WorkerRecord.Portable (w : WorkerRecord) : Prop where
  /-- Its address has a host. -/
  host : w.address.host ≠ ""
  /-- The use of the processor is a number. -/
  usage : w.process.cpuUsage.isFinite = true
  /-- The properties of its plan are as JSON holds them. -/
  plan : w.plan.properties.Canonical
  /-- Its properties are as JSON holds them. -/
  properties : w.properties.Canonical

theorem Properties.codec_reads {p : Properties} (h : p.Canonical) :
    (Codec.map Codec.json).Reads p :=
  map_reads fun e he => Codec.json_reads (h e he)

theorem WorkerPlan.codec_reads {p : WorkerPlan} (h : p.properties.Canonical) :
    WorkerPlan.codec.Reads p := by
  refine record_reads (by decide) ⟨string_reads _, option_reads fun s _ => ⟨string_reads s, ?_⟩,
    p.program.codec_reads, strings_read _, list_reads fun t _ => t.codec_reads,
    list_reads fun i _ => i.codec_reads, list_reads fun d _ => d.codec_reads,
    option_reads fun n _ => ⟨uint16_reads n, ?_⟩, bool_reads _, bool_reads _,
    Properties.codec_reads h, trivial⟩ rfl
  · exact Json.noConfusion
  · exact Json.noConfusion

theorem WorkerRecord.codec_reads {w : WorkerRecord} (h : w.Portable) :
    WorkerRecord.codec.Reads w :=
  record_reads (by decide)
    ⟨uint64_reads _, w.id.codec_reads, Address.codec_reads h.host, bool_reads _,
      w.lifecycle.codec_reads, ProcessUsage.codec_reads h.usage, WorkerPlan.codec_reads h.plan,
      Properties.codec_reads h.properties, trivial⟩ rfl

theorem WorkerUpdate.codec_reads {u : WorkerUpdate} (h : u.record.Portable) :
    WorkerUpdate.codec.Reads u :=
  record_reads (by decide) ⟨WorkerRecord.codec_reads h, trivial⟩ rfl

/-! ### Packets -/

/-- **The message of a packet is read back**, unless it nests too deep. -/
theorem Packet.decode_json {α : Type} {c : Codec α} {a : α} (reads : c.Reads a)
    (depth : (c.encode a).depth ≤ Reading.nestingLimit) (channel : String) :
    (Packet.json channel c a).decode c = .ok a := reads.read_bytes depth

end WorkerCluster
