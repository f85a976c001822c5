import WorkerCluster.Node.Loop
import WorkerCluster.Proofs.Supervisor.View
import WorkerCluster.Proofs.Worker

/-!
# Following the workers of another node

* `WorkerRecord.packet` is the packet in which everybody is told about a worker;
  `WorkerRecord.Sendable` holds for records that survive it.
* `Node.receive` does what a packet asks for; `Node.receive_packet` says what that is for the
  packets of workers.
* `Supervisor.facesOf_hear` and its variants say what comes of what is heard.
-/

namespace WorkerCluster

/-! ### Packets about workers -/

/-- Do what a packet asks for, if anything. -/
def Node.receive (n : Node) (origin : Origin) (p : Packet) : Node :=
  match Errand.ofPacket origin p with
  | some e => (n.perform e).2
  | none => n

/-- A record that can be sent: its values are as JSON holds them, and its packet nests no deeper
than can be read. -/
structure WorkerRecord.Sendable (w : WorkerRecord) : Prop where
  plan : w.plan.properties.Canonical
  properties : w.properties.Canonical
  depth : (WorkerUpdate.codec.encode ⟨w⟩).depth ≤ Json.Reading.nestingLimit

/-- The packet in which everybody is told about a worker. -/
def WorkerRecord.packet (w : WorkerRecord) : Packet := (Letter.worker w).parcel.packet

/-- What a node tells can be read. -/
theorem WorkerRecord.Sendable.ofPacket {w : WorkerRecord} {node : NodeId} (h : w.Sendable)
    (told : Supervisor.Told node w) :
    Errand.ofPacket (.peer node) w.packet = some (.follow node ⟨w⟩) := by
  have portable : w.Portable :=
    ⟨told.host, by rw [told.usage]; rfl, h.plan, h.properties⟩
  have read : w.packet.decode WorkerUpdate.codec = .ok ⟨w⟩ :=
    Packet.decode_json (WorkerUpdate.codec_reads portable) h.depth Channel.workers
  have channel : w.packet.channel = Channel.workers := rfl
  unfold Errand.ofPacket
  rw [channel, if_neg (by decide), if_pos rfl, read]

namespace Supervisor

variable {s t : Supervisor}

/-- Whoever follows a node takes in what it tells. -/
theorem facesOf_hear {w : WorkerRecord} {node : NodeId} (told : w.owner = node)
    (other : s.node.id ≠ node) : (s.hear w).2.facesOf node = (s.facesOf node).take w := by
  have foreign : ¬ w.owner = s.node.id := fun h => other (h ▸ told)
  unfold hear
  rw [if_neg foreign]
  split
  · rename_i gone
    rw [Faces.take_deleted _ gone]
    unfold facesOf
    rw [SortedMap.filter_erase, SortedMap.map_erase]
  · rename_i present
    rw [Faces.take_present _ present]
    unfold facesOf
    rw [SortedMap.filter_insert_of_pos (by simpa using told), SortedMap.map_insert]

/-- What one node says of a worker that another one never had leaves the faces of the other's
workers alone. -/
theorem facesOf_hear_other {w : WorkerRecord} {node : NodeId} (other : w.owner ≠ node)
    (fresh : (s.facesOf node).find? w.uuid = none) :
    (s.hear w).2.facesOf node = s.facesOf node := by
  unfold hear
  split
  · rfl
  · split
    · unfold facesOf at fresh ⊢
      rw [SortedMap.filter_erase, SortedMap.map_erase, SortedMap.erase_eq_self fresh]
    · unfold facesOf at fresh ⊢
      rw [SortedMap.filter_insert_of_neg (by simpa using other), SortedMap.map_erase,
        SortedMap.erase_eq_self fresh]

theorem facesOf_forget_other {peer node : NodeId} (other : peer ≠ node) :
    (s.forget peer).2.facesOf node = s.facesOf node := by
  unfold forget facesOf
  congr 1
  apply SortedMap.ext
  intro id
  simp only [SortedMap.find?_filter]
  cases s.remote.find? id with
  | none => rfl
  | some w =>
    by_cases h : w.owner = node
    · subst h
      simp [Option.filter, other.symm]
    · by_cases h' : w.owner = peer
      · simp [Option.filter, h', other]
      · simp [Option.filter, h, h']

/-- What every step of a fold over a supervisor keeps, the fold keeps. -/
theorem foldl_keeps {α β : Type} {P : Supervisor → Prop} {f : α × Supervisor → β → α × Supervisor}
    {l : List β} (hf : ∀ x, ∀ b ∈ l, P x.2 → P (f x b).2) (x : α × Supervisor) (hx : P x.2) :
    P (l.foldl f x).2 := by
  induction l generalizing x with
  | nil => exact hx
  | cons b l ih =>
    exact ih (fun x c hc => hf x c (List.mem_cons_of_mem _ hc)) _
      (hf x b (List.mem_cons_self ..) hx)

theorem facesOf_replace_other {peer node : NodeId} (other : peer ≠ node)
    {l : List WorkerRecord} (fresh : ∀ w ∈ l, (s.facesOf node).find? w.uuid = none) :
    (s.replace peer l).2.facesOf node = s.facesOf node := by
  refine foldl_keeps (P := fun t => t.facesOf node = s.facesOf node) (fun x w hw hx => ?_)
    (0, (s.forget peer).2) (facesOf_forget_other other)
  obtain ⟨hw, told⟩ := List.mem_filter.1 hw
  have owner : w.owner ≠ node := fun h => other (h ▸ (of_decide_eq_true told).symm)
  have heard := facesOf_hear_other (s := x.2) owner (hx ▸ fresh w hw)
  rw [hx] at heard
  dsimp only
  split <;> rename_i h <;> rwa [h] at heard

theorem facesOf_congr (h : t.remote = s.remote) (node : NodeId) :
    t.facesOf node = s.facesOf node := by
  rw [facesOf, h]
  rfl

theorem owns_iff {id : Uuid} : s.owns id = true ↔ ∃ f, s.ownFaces.find? id = some f := by
  rw [owns, SortedMap.contains_iff, ownFaces, SortedMap.find?_map]
  cases s.owned.find? id <;> simp

end Supervisor

namespace Node

variable {n : Node}

theorem supervisor_follow_own {peer : NodeId} {u : WorkerUpdate} (h : u.record.owner = peer) :
    (n.follow peer u).supervisor = { (n.supervisor.hear u.record).2 with outbox := [] } := by
  rw [follow, if_pos h]
  rfl

theorem follow_other {peer : NodeId} {u : WorkerUpdate} (h : u.record.owner ≠ peer) :
    n.follow peer u = n := if_neg h

theorem node_follow (peer : NodeId) (u : WorkerUpdate) :
    (n.follow peer u).supervisor.node = n.supervisor.node := by
  by_cases h : u.record.owner = peer
  · rw [supervisor_follow_own h]
    exact (Supervisor.hear_hearings ..).node_eq
  · rw [follow_other h]

theorem facesOf_follow {w : WorkerRecord} {node : NodeId} (told : w.owner = node)
    (other : n.supervisor.node.id ≠ node) :
    (n.follow node ⟨w⟩).supervisor.facesOf node = (n.supervisor.facesOf node).take w := by
  rw [← Supervisor.facesOf_hear told other]
  exact Supervisor.facesOf_congr (by rw [supervisor_follow_own (u := ⟨w⟩) told]) _

/-- What a packet about a worker asks for is to follow it. -/
theorem receive_packet {w : WorkerRecord} {node : NodeId} (sendable : w.Sendable)
    (told : Supervisor.Told node w) : n.receive (.peer node) w.packet = n.follow node ⟨w⟩ := by
  rw [receive, sendable.ofPacket told]
  rfl

end Node

/-! ### A small run -/

/-- Another node than that of the lobby. -/
def lobbyObserver : Node :=
  { (default : Node) with
    supervisor.node := ⟨"node-2", []⟩
    supervisor.settings := Supervisor.lobbySettings }

/-- Both packets about the worker in the lobby can be read. -/
theorem lobbyRunning_sendable : ∀ w ∈ Supervisor.lobbyRunning.outbox, w.Sendable := by
  have flat : ∀ w ∈ Supervisor.lobbyRunning.outbox,
      w.plan.properties.entries.isEmpty = true ∧ w.properties.entries.isEmpty = true ∧
        (WorkerUpdate.codec.encode ⟨w⟩).depth ≤ Json.Reading.nestingLimit := by decide +kernel
  intro w hw
  obtain ⟨plan, properties, depth⟩ := flat w hw
  refine ⟨?_, ?_, depth⟩
  · simp [Properties.Canonical, List.isEmpty_iff.1 plan]
  · simp [Properties.Canonical, List.isEmpty_iff.1 properties]

/-- First the worker is made, then it runs. -/
theorem lobbyRunning_outbox : ∃ made running, Supervisor.lobbyRunning.outbox = [made, running] ∧
    (made.uuid = Supervisor.lobbyId ∧ made.lifecycle = .prepared) ∧
    (running.uuid = Supervisor.lobbyId ∧ running.lifecycle = .running) := by
  have ids : Supervisor.lobbyRunning.outbox.map (·.uuid) =
      [Supervisor.lobbyId, Supervisor.lobbyId] := by decide +kernel
  have lifecycles : Supervisor.lobbyRunning.outbox.map (·.lifecycle) = [.prepared, .running] := by
    decide +kernel
  obtain ⟨made, running, h⟩ := List.length_eq_two.1 (by simpa using congrArg List.length ids)
  rw [h] at ids lifecycles
  simp only [List.map_cons, List.map_nil, List.cons.injEq] at ids lifecycles
  exact ⟨made, running, h, ⟨ids.1, lifecycles.1⟩, ids.2.1, lifecycles.2.1⟩

theorem lobbyRunning_told :
    ∀ w ∈ Supervisor.lobbyRunning.outbox, Supervisor.Told Supervisor.lobbyNode.id w := by
  have facts : ∀ w ∈ Supervisor.lobbyRunning.outbox, w.owner = Supervisor.lobbyNode.id ∧
      w.address.host ≠ "" ∧ w.process.cpuUsage = .zero := by decide +kernel
  intro w hw
  obtain ⟨owner, host, usage⟩ := facts w hw
  exact ⟨owner, host, usage⟩

end WorkerCluster
