import WorkerCluster.Link.Joining
import WorkerCluster.Proofs.Config.Valid
import WorkerCluster.Proofs.Node.Turn
import WorkerCluster.Proofs.Roster

/-!
# No peer is lost

A configuration that makes sense lists its peers once. The roster, those who are let in, and the
addresses that are picked all come from this list, and agree on it.

* `Roster.Event` is what changes a roster. Who the peers are never changes: `identity?_run`. Whether
  a peer is connected is decided by the last event about that: `isConnected_run`.
* `Dialable` holds if every peer listens. Then `Dialable.mem_targets` and `Dialable.sorted_targets`
  say for whom an address is picked, whatever the numbers drawn.
* `peer?_new` says which peers a list gives in which no id stands twice.
-/

namespace WorkerCluster

/-- Every key of a list in which none stands twice keeps its value. -/
theorem SortedMap.find?_ofList_of_nodup {κ α : Type} [KeyOrder κ] [DecidableEq κ]
    {l : List (κ × α)} (distinct : (l.map Prod.fst).Nodup) {k : κ} {a : α} :
    (ofList l).find? k = some a ↔ (k, a) ∈ l := by
  rw [find?_ofList, Option.map_eq_some_iff]
  constructor
  · rintro ⟨e, last, rfl⟩
    obtain ⟨mem, key⟩ := List.mem_filter.1 (List.mem_of_getLast? last)
    obtain rfl : e.1 = k := of_decide_eq_true key
    exact mem
  · intro mem
    have among : (k, a) ∈ l.filter fun e => decide (e.1 = k) :=
      List.mem_filter.2 ⟨mem, decide_eq_true rfl⟩
    obtain ⟨e, last⟩ := Option.isSome_iff_exists.1
      (List.getLast?_isSome.2 (List.ne_nil_of_mem among))
    obtain ⟨listed, key⟩ := List.mem_filter.1 (List.mem_of_getLast? last)
    have same : e = (k, a) :=
      List.inj_on_of_nodup_map distinct listed mem (of_decide_eq_true key)
    exact ⟨e, last, by rw [same]⟩

namespace Roster

/-- Something that a roster follows. -/
inductive Event
  /-- A node has been connected. -/
  | connected (node : NodeId)
  /-- A node is no longer connected. -/
  | disconnected (node : NodeId)
  /-- A node has said something about itself. -/
  | heard (status : NodeStatus)
  /-- This node has said something about itself. -/
  | said (status : NodeStatus)

/-- What is known after an event. -/
def after (r : Roster) : Event → Roster
  | .connected node => (r.connect node).2
  | .disconnected node => (r.disconnect node).2
  | .heard status => (r.hear status).2
  | .said status => r.roll status

/-- What is known after events. -/
def run (r : Roster) (events : List Event) : Roster := events.foldl after r

/-- Whether a node is linked after an event, if it was before. -/
def Event.leaves (node : NodeId) (linked : Bool) : Event → Bool
  | .connected n => n = node || linked
  | .disconnected n => n ≠ node && linked
  | _ => linked

/-- Whether the last event about a link to a node has connected it; at first it is as given. -/
def linked (node : NodeId) (first : Bool) (events : List Event) : Bool :=
  events.foldl (Event.leaves node) first

/-- Who a peer is. -/
def identity? (r : Roster) (node : NodeId) : Option NodeIdentity :=
  (r.peer? node).map (·.identity)

variable {r : Roster} {node : NodeId} {n : NodeIdentity} {a : Address}

/-! ### Events -/

/-- Who the peers are does not change. -/
theorem identity?_after (r : Roster) (e : Event) (node : NodeId) :
    (r.after e).identity? node = r.identity? node := by
  have modified (key : NodeId) (f : Peer → Peer) (same : ∀ p, (f p).identity = p.identity) :
      ((r.peers.modify key f).find? node).map (·.identity) =
        (r.peers.find? node).map (·.identity) := by
    rw [SortedMap.find?_modify]
    split
    · rw [Option.map_map]
      exact congrArg (Option.map · _) (funext same)
    · rfl
  cases e with
  | connected n => exact modified n _ fun _ => rfl
  | disconnected n => exact modified n _ fun _ => rfl
  | heard s => exact modified s.node.id _ fun _ => rfl
  | said s => rfl

theorem identity?_run (r : Roster) (events : List Event) (node : NodeId) :
    (r.run events).identity? node = r.identity? node := by
  induction events generalizing r with
  | nil => rfl
  | cons e events ih => exact (ih (r.after e)).trans (identity?_after r e node)

theorem isSome_identity? (r : Roster) (node : NodeId) :
    (r.identity? node).isSome = r.peers.contains node := Option.isSome_map

/-- An event about a link decides whether a peer is connected. -/
theorem isConnected_after (known : r.peers.contains node = true) (e : Event) :
    (r.after e).isConnected node = e.leaves node (r.isConnected node) := by
  cases e with
  | connected n =>
    rw [after, isConnected_connect, Event.leaves]
    by_cases same : node = n
    · simp [same, same ▸ known]
    · simp [same, Ne.symm same]
  | disconnected n =>
    rw [after, isConnected_disconnect, Event.leaves]
    by_cases same : node = n <;> simp [same, eq_comm]
  | heard s => exact isConnected_hear r s node
  | said s => rfl

/-- **The last event about its link decides whether a peer is connected.** -/
theorem isConnected_run (known : r.peers.contains node = true) (events : List Event) :
    (r.run events).isConnected node = linked node (r.isConnected node) events := by
  induction events generalizing r with
  | nil => rfl
  | cons e events ih =>
    have later : (r.after e).peers.contains node = true := by
      rwa [← isSome_identity?, identity?_after, isSome_identity?]
    rw [run, List.foldl_cons, ← run, ih later, isConnected_after known, linked, linked,
      List.foldl_cons]

/-! ### Addresses -/

/-- All peers stand under their ids, and listen. -/
def Dialable (r : Roster) : Prop :=
  ∀ node n, r.identity? node = some n → n.id = node ∧ n.listeners ≠ []

theorem Dialable.run (h : r.Dialable) (events : List Event) : (r.run events).Dialable :=
  fun node n found => h node n ((identity?_run r events node).symm.trans found)

/-- One of the addresses is picked, if there are any. -/
theorem pick_mem {l : List Address} (ne : l ≠ []) (draw : ℕ) :
    ∃ a ∈ l, pick l draw = some a := by
  have within : draw % l.length < l.length := Nat.mod_lt _ (List.length_pos_of_ne_nil ne)
  exact ⟨l[draw % l.length], List.getElem_mem within, List.getElem?_eq_getElem within⟩

/-- If all nodes listen, an address is picked for each of them, and it listens there. -/
theorem forall₂_pickAll {l : List NodeIdentity} (listening : ∀ n ∈ l, n.listeners ≠ [])
    (draws : ℕ → ℕ) :
    List.Forall₂ (fun n e => e.1 = n.id ∧ e.2 ∈ n.listeners) l (pickAll l draws) := by
  induction l generalizing draws with
  | nil => exact .nil
  | cons n l ih =>
    obtain ⟨first, others⟩ := List.forall_mem_cons.1 listening
    obtain ⟨a, mem, picked⟩ := pick_mem first (draws 0)
    rw [pickAll, picked]
    exact .cons ⟨rfl, mem⟩ (ih others _)

/-- The peers that are not connected, by id. -/
def absent (r : Roster) : List Peer := r.peers.values.filter (! ·.connected)

theorem Dialable.forall₂_targets (h : r.Dialable) (draws : ℕ → ℕ) :
    List.Forall₂ (fun p e => e.1 = p.identity.id ∧ e.2 ∈ p.identity.listeners) r.absent
      (r.targets draws) := by
  refine List.forall₂_map_left_iff.1 (forall₂_pickAll ?_ draws)
  rw [List.forall_mem_map]
  intro p absent
  obtain ⟨node, found⟩ := SortedMap.mem_values.1 (List.mem_of_mem_filter absent)
  exact (h node p.identity (by rw [identity?, peer?, found]; rfl)).2

theorem Dialable.keyed (h : r.Dialable) : r.peers.KeyedBy (·.identity.id) := fun node p found =>
  (h node p.identity (by rw [identity?, peer?, found]; rfl)).1

theorem Dialable.map_targets (h : r.Dialable) (draws : ℕ → ℕ) :
    (r.targets draws).map Prod.fst = r.absent.map (·.identity.id) := by
  refine (List.forall₂_eq_eq_eq ▸ List.forall₂_map_right_iff.2 (List.forall₂_map_left_iff.2 ?_) :
    r.absent.map (·.identity.id) = (r.targets draws).map Prod.fst).symm
  exact (h.forall₂_targets draws).imp fun _ _ picked => picked.1.symm

/-- Addresses are picked in the order of the ids, for no peer twice. -/
theorem Dialable.sorted_targets (h : r.Dialable) (draws : ℕ → ℕ) :
    ((r.targets draws).map Prod.fst).Pairwise (· < ·) := by
  have keys : r.peers.keys.Pairwise (· < ·) := List.pairwise_map.2 r.peers.sorted
  rw [← h.keyed.map_values] at keys
  rw [h.map_targets]
  exact keys.sublist (List.filter_sublist.map _)

/-- An address is picked for the peers that are not connected. -/
theorem Dialable.mem_targets (h : r.Dialable) (draws : ℕ → ℕ) :
    (∃ a, (node, a) ∈ r.targets draws) ↔
      r.peers.contains node = true ∧ r.isConnected node = false := by
  have listed : (∃ a, (node, a) ∈ r.targets draws) ↔ node ∈ (r.targets draws).map Prod.fst := by
    simp
  rw [listed, h.map_targets, List.mem_map, SortedMap.contains_iff, isConnected_eq_any, peer?]
  constructor
  · rintro ⟨p, absent, rfl⟩
    obtain ⟨mem, apart⟩ := List.mem_filter.1 absent
    have found := h.keyed.mem_values.1 mem
    exact ⟨⟨p, found⟩, by simpa [found] using apart⟩
  · rintro ⟨⟨p, found⟩, apart⟩
    rw [found] at apart
    refine ⟨p, List.mem_filter.2 ⟨SortedMap.mem_values.2 ⟨node, found⟩, ?_⟩, h.keyed node p found⟩
    simpa using apart

/-- A picked address is one of the peer's own. -/
theorem Dialable.listens (h : r.Dialable) {draws : ℕ → ℕ} (picked : (node, a) ∈ r.targets draws) :
    ∃ n, r.identity? node = some n ∧ a ∈ n.listeners := by
  -- the peer is the one that stands where the address does
  obtain ⟨i, within, at_i⟩ := List.getElem_of_mem picked
  obtain ⟨same, each⟩ := List.forall₂_iff_get.1 (h.forall₂_targets draws)
  have mem : r.absent[i] ∈ r.absent := List.getElem_mem (same ▸ within)
  obtain ⟨own, listens⟩ := each i (same ▸ within) within
  rw [List.get_eq_getElem, List.get_eq_getElem, at_i] at own listens
  have own : node = r.absent[i].identity.id := own
  have found := h.keyed.mem_values.1 (List.mem_of_mem_filter mem)
  rw [← own] at found
  exact ⟨_, by rw [identity?, peer?, found]; rfl, listens⟩

/-! ### The beginning -/

section

variable {home : NodeIdentity} {peers : List NodeIdentity}

/-- If no id stands twice, and none is that of the node, every entry is a peer. -/
theorem peer?_new (distinct : (peers.map (·.id)).Nodup) (others : ∀ n ∈ peers, n.id ≠ home.id)
    {p : Peer} : (new home peers).peer? node = some p ↔
      ∃ n ∈ peers, n.id = node ∧ p = { identity := n } := by
  have all : (peers.filter fun p => p.id != home.id) = peers :=
    List.filter_eq_self.2 fun n hn => bne_iff_ne.2 (others n hn)
  rw [peer?, new, all, SortedMap.find?_ofList_of_nodup (by rwa [List.map_map]), List.mem_map]
  simp only [Prod.mk.injEq, eq_comm]

end

end Roster

namespace Config

variable {c : Config} {node : NodeId}

/-- The roster of a node to which nothing has happened. -/
def roster (c : Config) : Roster := .new c.identity c.cluster.nodes

/-- Every peer is another node, stands once and listens. -/
theorem peers_of_validate (valid : c.validate = .ok ()) :
    (∀ n ∈ c.cluster.nodes, n.id ≠ c.identity.id ∧ n.listeners ≠ []) ∧
      (c.cluster.nodes.map (·.id)).Nodup := by
  obtain ⟨-, -, -, -, checked, -⟩ := validate_eq_ok_iff.1 valid
  obtain ⟨each, distinct⟩ := checkPeers_eq_ok_iff.1 checked
  exact ⟨fun n hn => ⟨(each n hn).1, (each n hn).2.2⟩, distinct⟩

theorem peer?_roster (valid : c.validate = .ok ()) {p : Peer} :
    c.roster.peer? node = some p ↔ ∃ n ∈ c.cluster.nodes, n.id = node ∧ p = { identity := n } :=
  have ⟨each, distinct⟩ := peers_of_validate valid
  Roster.peer?_new distinct fun n hn => (each n hn).1

theorem contains_roster (valid : c.validate = .ok ()) :
    c.roster.peers.contains node = true ↔ ∃ n ∈ c.cluster.nodes, n.id = node := by
  rw [SortedMap.contains_iff]
  constructor
  · rintro ⟨p, found⟩
    obtain ⟨n, listed, own, -⟩ := (peer?_roster valid).1 found
    exact ⟨n, listed, own⟩
  · rintro ⟨n, listed, own⟩
    exact ⟨_, (peer?_roster valid).2 ⟨n, listed, own, rfl⟩⟩

theorem identity?_roster (valid : c.validate = .ok ()) {n : NodeIdentity} :
    c.roster.identity? node = some n ↔ n ∈ c.cluster.nodes ∧ n.id = node := by
  rw [Roster.identity?, Option.map_eq_some_iff]
  constructor
  · rintro ⟨p, found, rfl⟩
    obtain ⟨n, listed, own, rfl⟩ := (peer?_roster valid).1 found
    exact ⟨listed, own⟩
  · rintro ⟨listed, own⟩
    exact ⟨_, (peer?_roster valid).2 ⟨n, listed, own, rfl⟩, rfl⟩

theorem dialable_roster (valid : c.validate = .ok ()) : c.roster.Dialable := by
  intro node n found
  obtain ⟨listed, own⟩ := (identity?_roster valid).1 found
  exact ⟨own, ((peers_of_validate valid).1 n listed).2⟩

/-- There is one peer for each entry. -/
theorem values_roster_perm (valid : c.validate = .ok ()) :
    c.roster.peers.values.Perm (c.cluster.nodes.map fun n => { identity := n }) := by
  have keyed := (dialable_roster valid).keyed
  have distinct := (peers_of_validate valid).2
  -- no peer is in either list twice, so it is enough to know who is in them
  rw [List.perm_ext_iff_of_nodup keyed.nodup_values.of_map]
  · intro p
    rw [SortedMap.mem_values, List.mem_map]
    constructor
    · rintro ⟨node, found⟩
      obtain ⟨n, listed, -, rfl⟩ := (peer?_roster valid).1 found
      exact ⟨n, listed, rfl⟩
    · rintro ⟨n, listed, rfl⟩
      exact ⟨n.id, (peer?_roster valid).2 ⟨n, listed, rfl, rfl⟩⟩
  · exact (distinct.of_map).map fun _ _ same => congrArg Peer.identity same

/-- The peers are those who are let in. -/
theorem mem_allowed_iff {η : Type} (valid : c.validate = .ok ()) :
    node ∈ (Switchboard.ofConfig c : Switchboard η).allowed ↔
      c.roster.peers.contains node = true := by
  rw [contains_roster valid]
  exact List.mem_map

theorem verify_eq_ok_iff {η : Type} (valid : c.validate = .ok ()) {n : NodeIdentity}
    {secret : String} :
    (Switchboard.ofConfig c : Switchboard η).verify (.node n secret) = .ok () ↔
      secret = c.cluster.secret ∧ c.roster.peers.contains n.id = true := by
  have other (known : c.roster.peers.contains n.id = true) : n.id ≠ c.identity.id := by
    obtain ⟨m, listed, own⟩ := (contains_roster valid).1 known
    exact own ▸ ((peers_of_validate valid).1 m listed).1
  have allowed : n.id ∈ (Switchboard.ofConfig c : Switchboard η).allowed ↔ _ :=
    mem_allowed_iff valid
  rw [← List.contains_iff_mem] at allowed
  unfold Switchboard.verify
  split
  · next unlike => simp_all [JoinRequest.secret, Switchboard.ofConfig, Switchboard.new]
  · next same =>
    dsimp only
    split
    · next own => simp_all [Switchboard.ofConfig, Switchboard.new]
    · split
      · simp_all
      · simp_all [JoinRequest.secret, Switchboard.ofConfig, Switchboard.new]

/-- **No peer of a configuration that makes sense is lost.** The roster has one peer for every
entry, none of them the node itself and none connected; just these peers are let in; and whatever
happens then, an address is picked, by any numbers, for each peer that is not connected and for
nobody else, in the order of the ids and among its own. -/
theorem loses_no_peer (η : Type) (valid : c.validate = .ok ()) :
    (c.roster.peers.values.Perm (c.cluster.nodes.map fun n => { identity := n }) ∧
      c.roster.peer? c.identity.id = none) ∧
    (∀ store probe host n, Node.new c store probe host = .ok n →
      ∃ s, n.roster = c.roster.run [.said s]) ∧
    (∀ node, node ∈ (Switchboard.ofConfig c : Switchboard η).allowed ↔
      c.roster.peers.contains node = true) ∧
    (∀ n secret, (Switchboard.ofConfig c : Switchboard η).verify (.node n secret) = .ok () ↔
      secret = c.cluster.secret ∧ c.roster.peers.contains n.id = true) ∧
    ∀ events draws,
      (((c.roster.run events).targets draws).map Prod.fst).Pairwise (· < ·) ∧
      (∀ node, c.roster.peers.contains node = true →
        (c.roster.run events).isConnected node = Roster.linked node false events) ∧
      (∀ node, (∃ a, (node, a) ∈ (c.roster.run events).targets draws) ↔
        c.roster.peers.contains node = true ∧ (c.roster.run events).isConnected node = false) ∧
      ∀ node a, (node, a) ∈ (c.roster.run events).targets draws →
        ∃ n ∈ c.cluster.nodes, n.id = node ∧ a ∈ n.listeners := by
  have dialable := dialable_roster valid
  refine ⟨⟨values_roster_perm valid, ?_⟩, fun store probe host n new => ?_,
    fun node => mem_allowed_iff valid, fun n secret => verify_eq_ok_iff valid,
    fun events draws => ⟨?_, fun node known => ?_, fun node => ?_, fun node a mem => ?_⟩⟩
  · rw [Option.eq_none_iff_forall_ne_some]
    intro p found
    obtain ⟨n, listed, own, -⟩ := (peer?_roster valid).1 found
    exact ((peers_of_validate valid).1 n listed).1 own
  · obtain ⟨-, status, -, roster⟩ := Node.new_parts new
    exact ⟨status, roster⟩
  · exact (dialable.run events).sorted_targets draws
  · rw [Roster.isConnected_run known, roster, Roster.isConnected_new]
  · rw [(dialable.run events).mem_targets, ← Roster.isSome_identity?, Roster.identity?_run,
      Roster.isSome_identity?]
  · obtain ⟨n, found, listens⟩ := (dialable.run events).listens mem
    rw [Roster.identity?_run] at found
    obtain ⟨listed, own⟩ := (identity?_roster valid).1 found
    exact ⟨n, listed, own, listens⟩

/-- A node with two peers. -/
def trio : Config where
  identity := { id := "node-2", listeners := [⟨"10.0.0.2", 1410⟩] }
  cluster.nodes := [{ id := "node-3", listeners := [⟨"10.0.0.3", 1410⟩] },
    { id := "node-1", listeners := [⟨"10.0.0.1", 1410⟩, ⟨"::1", 80⟩] }]

/-- With one of them connected, there is an address to dial for the other one only. -/
theorem trio_loses_no_peer :
    trio.validate = .ok () ∧ ∀ draws,
      (∃ a, ("node-1", a) ∈ (trio.roster.run [.connected "node-3"]).targets draws) ∧
        ¬ ∃ a, ("node-3", a) ∈ (trio.roster.run [.connected "node-3"]).targets draws := by
  have valid : trio.validate = .ok () := by decide
  refine ⟨valid, fun draws => ?_⟩
  obtain ⟨-, -, -, -, always⟩ := loses_no_peer Unit valid
  obtain ⟨-, -, picked, -⟩ := always [.connected "node-3"] draws
  exact ⟨(picked "node-1").2 (by decide), mt (picked "node-3").1 (by decide)⟩

end Config

end WorkerCluster
