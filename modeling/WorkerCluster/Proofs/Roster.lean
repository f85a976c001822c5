import WorkerCluster.Proofs.SortedMap
import WorkerCluster.Roster

/-!
# What rosters hold

What becomes of the peers of a roster, peer by peer, when something happens, and what holds of them
at all times.

* `heard?` is what is remembered of a peer. `isConnected_connect`, `heard?_hear` and their like say
  what an event makes of it.
* `of_peer?_new` says which peers there are in the beginning.
* `Sound` holds if everything stands under the right name. Every event keeps it.
* `Sound.mem_candidates` and `Sound.sorted_candidates` say what placement is given: the connected
  peers, with what they have said, by id.
-/

namespace WorkerCluster

namespace Roster

variable {r : Roster} {node peer : NodeId} {s : NodeStatus}

/-! ### Peers -/

/-- What a peer last said about itself, as long as it is remembered. -/
def heard? (r : Roster) (peer : NodeId) : Option NodeStatus := (r.peer? peer).bind (·.status)

theorem isConnected_eq_any (r : Roster) (peer : NodeId) :
    r.isConnected peer = (r.peer? peer).any (·.connected) := by
  unfold isConnected
  cases r.peer? peer <;> rfl

/-- Only configured peers are connected. -/
theorem contains_of_isConnected (h : r.isConnected peer = true) : r.peers.contains peer = true := by
  rw [isConnected_eq_any, Option.any_eq_true] at h
  obtain ⟨p, found, -⟩ := h
  exact SortedMap.contains_iff.2 ⟨p, found⟩

/-- A configured peer is connected from now on. -/
theorem isConnected_connect (r : Roster) (node peer : NodeId) :
    (r.connect node).2.isConnected peer =
      if peer = node then r.peers.contains peer else r.isConnected peer := by
  simp only [isConnected_eq_any, peer?, connect, SortedMap.find?_modify, SortedMap.contains]
  split
  · cases r.peers.find? peer <;> rfl
  · rfl

theorem heard?_connect (r : Roster) (node peer : NodeId) :
    (r.connect node).2.heard? peer = r.heard? peer := by
  simp only [heard?, peer?, connect, SortedMap.find?_modify]
  split
  · cases r.peers.find? peer <;> rfl
  · rfl

theorem isConnected_disconnect (r : Roster) (node peer : NodeId) :
    (r.disconnect node).2.isConnected peer = (decide (peer ≠ node) && r.isConnected peer) := by
  simp only [isConnected_eq_any, peer?, disconnect, SortedMap.find?_modify]
  split
  · next same => cases r.peers.find? peer <;> simp [same]
  · next other => simp [other]

theorem heard?_disconnect (r : Roster) (node peer : NodeId) :
    (r.disconnect node).2.heard? peer = if peer = node then none else r.heard? peer := by
  simp only [heard?, peer?, disconnect, SortedMap.find?_modify]
  split
  · cases r.peers.find? peer <;> rfl
  · rfl

theorem isConnected_hear (r : Roster) (s : NodeStatus) (peer : NodeId) :
    (r.hear s).2.isConnected peer = r.isConnected peer := by
  simp only [isConnected_eq_any, peer?, hear, SortedMap.find?_modify]
  split
  · cases r.peers.find? peer <;> rfl
  · rfl

/-- What a configured peer says is remembered, whether or not it is connected. -/
theorem heard?_hear (r : Roster) (s : NodeStatus) (peer : NodeId) :
    (r.hear s).2.heard? peer =
      if peer = s.node.id ∧ r.peers.contains peer = true then some s else r.heard? peer := by
  simp only [heard?, peer?, hear, SortedMap.find?_modify, SortedMap.contains]
  by_cases same : peer = s.node.id
  · simp only [same, true_and]
    cases r.peers.find? s.node.id <;> rfl
  · simp [same]

/-! ### The beginning -/

section

variable (home : NodeIdentity) (peers : List NodeIdentity)

/-- In the beginning every peer is another node, which is not connected and has not said
anything. -/
theorem of_peer?_new {p : Peer} (found : (new home peers).peer? peer = some p) :
    p.identity.id = peer ∧ peer ≠ home.id ∧ p = { identity := p.identity } := by
  unfold peer? new at found
  rw [SortedMap.find?_ofList] at found
  obtain ⟨e, last, rfl⟩ := Option.map_eq_some_iff.1 found
  obtain ⟨mem, key⟩ := List.mem_filter.1 (List.mem_of_getLast? last)
  obtain ⟨identity, listed, rfl⟩ := List.mem_map.1 mem
  have own : identity.id = peer := by simpa using key
  have other : identity.id ≠ home.id := by simpa using (List.mem_filter.1 listed).2
  exact ⟨own, own ▸ other, rfl⟩

/-- Nothing has been heard of any peer in the beginning. -/
theorem heard?_new (peer : NodeId) : (new home peers).heard? peer = none := by
  cases found : (new home peers).peer? peer with
  | none => rw [heard?, found, Option.bind_none]
  | some p => rw [heard?, found, Option.bind_some, (of_peer?_new home peers found).2.2]

/-- No peer is connected in the beginning. -/
theorem isConnected_new (peer : NodeId) : (new home peers).isConnected peer = false := by
  rw [isConnected_eq_any, Option.any_eq_false]
  intro p found
  rw [(of_peer?_new home peers found).2.2]

/-- Nobody is a peer of itself. -/
theorem contains_new : (new home peers).peers.contains home.id = false := by
  rw [← Bool.not_eq_true, SortedMap.contains_iff]
  rintro ⟨p, found⟩
  exact (of_peer?_new home peers found).2.1 rfl

end

/-! ### Names -/

/-- Everything stands under the right name, and the node has said something about itself. -/
structure Sound (r : Roster) : Prop where
  /-- Peers stand under their ids. -/
  keyed : r.peers.KeyedBy (·.identity.id)
  /-- What is remembered of a peer, it has said about itself. -/
  heard : ∀ peer s, r.heard? peer = some s → s.node.id = peer
  /-- What the node has said is about itself. -/
  current : ∃ s, r.current = some s ∧ s.node = r.home

/-- A roster is sound once the node has said something about itself. -/
theorem sound_roll_new {home : NodeIdentity} (peers : List NodeIdentity) (own : s.node = home) :
    ((new home peers).roll s).Sound where
  keyed _ _ found := (of_peer?_new home peers found).1
  heard peer _ heard := by
    have nothing : (new home peers).heard? peer = none := heard?_new home peers peer
    cases nothing.symm.trans heard
  current := ⟨s, rfl, own⟩

theorem Sound.connect (h : r.Sound) (node : NodeId) : (r.connect node).2.Sound where
  keyed := h.keyed.modify node fun _ => rfl
  heard peer s found := h.heard peer s ((heard?_connect r node peer).symm.trans found)
  current := h.current

theorem Sound.disconnect (h : r.Sound) (node : NodeId) : (r.disconnect node).2.Sound where
  keyed := h.keyed.modify node fun _ => rfl
  heard peer s found := by
    rw [heard?_disconnect] at found
    split at found
    · cases found
    · exact h.heard peer s found
  current := h.current

theorem Sound.hear (h : r.Sound) (status : NodeStatus) : (r.hear status).2.Sound where
  keyed := h.keyed.modify status.node.id fun _ => rfl
  heard peer s found := by
    rw [heard?_hear] at found
    split at found
    · next said => exact Option.some.inj found ▸ said.1.symm
    · exact h.heard peer s found
  current := h.current

theorem Sound.roll (h : r.Sound) (own : s.node = r.home) : (r.roll s).Sound where
  keyed := h.keyed
  heard := h.heard
  current := ⟨s, rfl, own⟩

/-- Whatever is remembered of a node, it has said about itself. -/
theorem Sound.named (h : r.Sound) (said : r.status? peer = some s) : s.node.id = peer := by
  unfold status? at said
  split at said
  · next own =>
    obtain ⟨current, now, named⟩ := h.current
    obtain rfl := Option.some.inj (now.symm.trans said)
    rw [named, own]
  · exact h.heard peer s said

/-! ### What placement is given -/

/-- The connected candidates are the connected peers, with what they have said about themselves. -/
theorem Sound.mem_candidates (h : r.Sound) {c : Placement.Candidate}
    (connected : c.connected = true) :
    c ∈ r.candidates ↔ r.isConnected c.node = true ∧ r.heard? c.node = c.status := by
  rw [isConnected_eq_any, Option.any_eq_true, heard?]
  constructor
  · intro mem
    obtain ⟨p, listed, rfl⟩ := List.mem_map.1 mem
    obtain ⟨id, found⟩ : ∃ id, r.peer? id = some p := SortedMap.mem_values.1 listed
    obtain rfl : p.identity.id = id := h.keyed id p found
    exact ⟨⟨p, found, connected⟩, by rw [found, Option.bind_some]⟩
  · rintro ⟨⟨p, found, linked⟩, status⟩
    have listed : p ∈ r.peers.values := SortedMap.mem_values.2 ⟨c.node, found⟩
    have named : p.identity.id = c.node := h.keyed c.node p found
    rw [found, Option.bind_some] at status
    refine List.mem_map.2 ⟨p, listed, ?_⟩
    rw [named, linked, status, ← connected]

/-- The candidates stand in the order of their ids. -/
theorem Sound.sorted_candidates (h : r.Sound) :
    r.candidates.Pairwise fun c d => c.node < d.node := by
  have nodes : r.candidates.map (·.node) = r.peers.keys := by
    rw [← h.keyed.map_values, candidates, List.map_map]
    rfl
  have keys : r.peers.keys.Pairwise (· < ·) := List.pairwise_map.2 r.peers.sorted
  rw [← nodes] at keys
  exact List.pairwise_map.1 keys

end Roster

end WorkerCluster
