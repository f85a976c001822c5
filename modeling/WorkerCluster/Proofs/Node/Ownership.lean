import WorkerCluster.Node.Loop
import WorkerCluster.Proofs.Supervisor.View

/-!
# Whose workers a peer speaks for

A node takes in what a peer says about workers of its own. It looks at the owner that the peer names
and keeps the record under the id that the peer names.

* `Report` is what a peer says, `Report.taken` what a node takes of it.
* `Node.find?_told` says what the node remembers then.
* `Supervisor.Spares` holds if nothing has become of the records of all others, `Supervisor.Unique`
  if no id stands twice among all records.
* `spares_others_iff` is the main statement: both hold as long as the peer names no id that belongs
  to the worker of someone else.
-/

namespace WorkerCluster

/-! ### Tables of records -/

namespace WorkerRecord

/-- What is remembered of a worker when this has been told: nothing if it has been deleted. -/
def remembered (w : WorkerRecord) : Option WorkerRecord :=
  if w.lifecycle = .deleted then none else some w

/-- Take in what is told of a worker. -/
def enter (m : SortedMap Uuid WorkerRecord) (w : WorkerRecord) : SortedMap Uuid WorkerRecord :=
  if w.lifecycle = .deleted then m.erase w.uuid else m.insert w.uuid w

variable {m : SortedMap Uuid WorkerRecord} {w v : WorkerRecord} {l : List WorkerRecord} {id : Uuid}

theorem find?_enter (m : SortedMap Uuid WorkerRecord) (w : WorkerRecord) (id : Uuid) :
    (enter m w).find? id = if id = w.uuid then w.remembered else m.find? id := by
  unfold enter remembered
  split <;> simp

theorem keyedBy_enter (h : m.KeyedBy (·.uuid)) (w : WorkerRecord) :
    (enter m w).KeyedBy (·.uuid) := by
  unfold enter
  split
  · exact h.erase w.uuid
  · exact h.insert w

theorem keyedBy_enterAll (h : m.KeyedBy (·.uuid)) (l : List WorkerRecord) :
    (l.foldl enter m).KeyedBy (·.uuid) := by
  induction l generalizing m with
  | nil => exact h
  | cons w l ih => exact ih (keyedBy_enter h w)

/-- The last that is told of a worker is what is remembered of it. -/
theorem find?_enterAll (m : SortedMap Uuid WorkerRecord) (l : List WorkerRecord) (id : Uuid) :
    (l.foldl enter m).find? id = (latest id l).elim (m.find? id) remembered := by
  -- from the end, since it is the last that counts
  induction l using List.reverseRecOn with
  | nil => rfl
  | append_singleton l w ih =>
    rw [List.foldl_append, List.foldl_cons, List.foldl_nil, find?_enter]
    by_cases same : w.uuid = id
    · subst same
      rw [if_pos rfl, latest_append_self]
      rfl
    · rw [if_neg (Ne.symm same), ih, latest_append_of_ne l same]

theorem remembered_eq_none : w.remembered = none ↔ w.lifecycle = .deleted := by
  unfold remembered
  split <;> simp_all

theorem eq_of_remembered (h : w.remembered = some v) : v = w := by
  unfold remembered at h
  split at h
  · cases h
  · exact (Option.some.inj h).symm

/-- A worker of which something is told has a last record. -/
theorem exists_latest (h : w ∈ l) : ∃ v, latest w.uuid l = some v ∧ v ∈ l := by
  cases last : latest w.uuid l with
  | none => exact absurd rfl (latest_eq_none.1 last w h)
  | some v => exact ⟨v, rfl, (mem_of_latest last).1⟩

end WorkerRecord

open WorkerRecord (latest enter)

/-! ### What a supervisor hears -/

namespace Supervisor

variable {s t : Supervisor}

theorem remote_hear (s : Supervisor) (w : WorkerRecord) : (s.hear w).2.remote =
    if w.owner = s.node.id then s.remote else enter s.remote w := by
  unfold hear enter
  split
  · rfl
  · split <;> rfl

theorem remote_hearAll (l : List WorkerRecord) (x : Nat × Supervisor) :
    (l.foldl (fun (n, s) w =>
      match s.hear w with
      | (true, s) => (n + 1, s)
      | (false, s) => (n, s)) x).2.remote =
      (l.filter (·.owner ≠ x.2.node.id)).foldl enter x.2.remote := by
  induction l generalizing x with
  | nil => rfl
  | cons w l ih =>
    have counted : (match x.2.hear w with
        | (true, s) => (x.1 + 1, s)
        | (false, s) => (x.1, s)).2 = (x.2.hear w).2 := by
      obtain ⟨taken, s⟩ := x.2.hear w
      cases taken <;> rfl
    refine (ih _).trans ?_
    dsimp only
    rw [counted, (hear_hearings x.2 w).node_eq, remote_hear]
    by_cases own : w.owner = x.2.node.id
    · rw [if_pos own, List.filter_cons_of_neg (by simpa using own)]
    · rw [if_neg own, List.filter_cons_of_pos (by simpa using own)]
      rfl

/-- What is known of a node is replaced by what it says itself, as far as it does not speak for this
node. -/
theorem remote_replace (s : Supervisor) (peer : NodeId) (l : List WorkerRecord) :
    (s.replace peer l).2.remote =
      ((l.filter (·.owner = peer)).filter (·.owner ≠ s.node.id)).foldl enter
        (s.remote.filter fun _ w => w.owner != peer) :=
  remote_hearAll _ (0, (s.forget peer).2)

/-- Every record stands under its own id. -/
structure Filed (s : Supervisor) : Prop where
  owned : s.owned.KeyedBy (·.record.uuid)
  remote : s.remote.KeyedBy (·.uuid)

theorem Reachable.filed {node : NodeIdentity} {settings : Settings}
    (h : Reachable node settings s) : s.Filed where
  owned id w found := (h.owned_sound id w found).uuid
  remote id w found := (h.remote_sound id w found).uuid

/-- No id stands twice among the records of all workers, so that nobody lists or counts a worker
twice. -/
def Unique (s : Supervisor) : Prop := (s.records.map (·.uuid)).Nodup

/-- Nothing has become of the records of workers, of this node or of others, that do not belong to a
peer. -/
structure Spares (s : Supervisor) (peer : NodeId) (t : Supervisor) : Prop where
  owned : t.owned = s.owned
  remote : ∀ id w, w.owner ≠ peer → (t.remote.find? id = some w ↔ s.remote.find? id = some w)

/-- The ids of all records are the keys of both tables. -/
theorem Filed.unique_iff (h : s.Filed) :
    s.Unique ↔ ∀ id w, s.owned.find? id = some w → s.remote.find? id = none := by
  have ids : s.records.map (·.uuid) = s.owned.keys ++ s.remote.keys := by
    rw [records, List.map_append, List.map_map]
    exact congrArg₂ (· ++ ·) h.owned.map_values h.remote.map_values
  rw [Unique, ids, List.nodup_append]
  constructor
  · rintro ⟨-, -, apart⟩ id w found
    refine Option.eq_none_iff_forall_ne_some.2 fun v other => ?_
    exact apart id (SortedMap.mem_keys.2 ⟨w, found⟩) id (SortedMap.mem_keys.2 ⟨v, other⟩) rfl
  · intro apart
    refine ⟨s.owned.nodup_keys, s.remote.nodup_keys, ?_⟩
    rintro id own _ remote rfl
    obtain ⟨w, found⟩ := SortedMap.mem_keys.1 own
    obtain ⟨v, other⟩ := SortedMap.mem_keys.1 remote
    rw [apart id w found] at other
    cases other

end Supervisor

/-! ### What a peer says -/

/-- What a peer says about workers: about one of them, or about all that it has. -/
inductive Report
  | one (update : WorkerUpdate)
  | all (workers : List WorkerRecord)

namespace Report

/-- What a node has to do when a peer says it. -/
def errand (peer : NodeId) : Report → Errand
  | .one u => .follow peer u
  | .all l => .hear peer (.workers l)

/-- The records that it is about. -/
def records : Report → List WorkerRecord
  | .one u => [u.record]
  | .all l => l

/-- What a node takes of it: the peer speaks for itself, and never for this node. -/
def taken (r : Report) (home peer : NodeId) : List WorkerRecord :=
  (r.records.filter (·.owner = peer)).filter (·.owner ≠ home)

/-- What the node remembers as long as it has not taken anything. All that a peer has takes the
place of what it had before. -/
def kept (peer : NodeId) (m : SortedMap Uuid WorkerRecord) : Report → SortedMap Uuid WorkerRecord
  | .one _ => m
  | .all _ => m.filter fun _ w => w.owner != peer

end Report

namespace Node

variable {n : Node} {peer : NodeId} {r : Report}

/-- The state of the supervisor when a peer has said something about workers. -/
def told (n : Node) (peer : NodeId) (r : Report) : Supervisor :=
  (n.perform (r.errand peer)).2.supervisor

theorem remote_told (n : Node) (peer : NodeId) (r : Report) : (n.told peer r).remote =
    (r.taken n.supervisor.node.id peer).foldl enter (r.kept peer n.supervisor.remote) := by
  cases r with
  | one u =>
    show (n.follow peer u).supervisor.remote = _
    unfold follow Report.taken Report.records
    by_cases told : u.record.owner = peer
    · rw [if_pos told, List.filter_cons_of_pos (by simpa using told), List.filter_nil]
      refine (Supervisor.remote_hear n.supervisor u.record).trans ?_
      by_cases own : u.record.owner = n.supervisor.node.id
      · rw [if_pos own, List.filter_cons_of_neg (by simpa using own)]
        rfl
      · rw [if_neg own, List.filter_cons_of_pos (by simpa using own)]
        rfl
    · rw [if_neg told, List.filter_cons_of_neg (by simpa using told)]
      rfl
  | all l => exact Supervisor.remote_replace n.supervisor peer l

theorem owned_told (n : Node) (peer : NodeId) (r : Report) :
    (n.told peer r).owned = n.supervisor.owned := by
  cases r with
  | one u =>
    show (n.follow peer u).supervisor.owned = _
    unfold follow
    split
    · exact (Supervisor.hear_hearings n.supervisor u.record).owned_eq
    · rfl
  | all l => exact (Supervisor.replace_hearings n.supervisor peer l).owned_eq

theorem filed_told (h : n.supervisor.Filed) (peer : NodeId) (r : Report) :
    (n.told peer r).Filed where
  owned := by
    rw [owned_told]
    exact h.owned
  remote := by
    rw [remote_told]
    refine WorkerRecord.keyedBy_enterAll ?_ _
    cases r with
    | one u => exact h.remote
    | all l =>
      intro id w found
      rw [Report.kept, SortedMap.find?_filter] at found
      exact h.remote id w (Option.filter_eq_some_iff.1 found).1

/-- What the node remembers of a worker is the last that it takes, or what it has kept. -/
theorem find?_told (n : Node) (peer : NodeId) (r : Report) (id : Uuid) :
    (n.told peer r).remote.find? id =
      (latest id (r.taken n.supervisor.node.id peer)).elim
        ((r.kept peer n.supervisor.remote).find? id) WorkerRecord.remembered := by
  rw [remote_told, WorkerRecord.find?_enterAll]

end Node

namespace Report

variable {peer home : NodeId} {m : SortedMap Uuid WorkerRecord} {id : Uuid} {w : WorkerRecord}

theorem owner_of_taken {r : Report} (h : w ∈ r.taken home peer) : w.owner = peer := by
  simpa using (List.mem_filter.1 (List.mem_filter.1 h).1).2

/-- A node keeps all that it remembers of others. -/
theorem find?_kept (r : Report) (other : w.owner ≠ peer) :
    (r.kept peer m).find? id = some w ↔ m.find? id = some w := by
  cases r with
  | one u => rfl
  | all l =>
    rw [kept, SortedMap.find?_filter, Option.filter_eq_some_iff]
    simp [other]

theorem find?_kept_none (r : Report) (h : m.find? id = none) : (r.kept peer m).find? id = none := by
  cases r with
  | one u => exact h
  | all l =>
    rw [kept, SortedMap.find?_filter, h]
    rfl

end Report

namespace Node

variable {n : Node} {peer : NodeId} {r : Report}

/-- Nothing becomes of the records of others exactly if the peer names the id of none of them. -/
theorem spares_told_iff : n.supervisor.Spares peer (n.told peer r) ↔
    ∀ w ∈ r.taken n.supervisor.node.id peer, ∀ v,
      n.supervisor.remote.find? w.uuid = some v → v.owner = peer := by
  constructor
  · intro spares w taken v found
    by_contra other
    have after := (spares.remote w.uuid v other).2 found
    obtain ⟨u, last, mem⟩ := WorkerRecord.exists_latest taken
    rw [find?_told, last] at after
    have same := WorkerRecord.eq_of_remembered after
    exact other (same ▸ Report.owner_of_taken mem)
  · intro named
    refine ⟨owned_told n peer r, fun id v other => ?_⟩
    rw [find?_told]
    cases last : latest id (r.taken n.supervisor.node.id peer) with
    | none => exact r.find?_kept other
    | some w =>
      obtain ⟨mem, rfl⟩ := WorkerRecord.mem_of_latest last
      constructor
      · intro after
        have same := WorkerRecord.eq_of_remembered after
        exact absurd (same ▸ Report.owner_of_taken mem) other
      · exact fun before => absurd (named w mem v before) other

/-- No id stands twice exactly if the peer deletes whatever it says of ids of workers of this
node. -/
theorem unique_told_iff (filed : n.supervisor.Filed) (unique : n.supervisor.Unique) :
    (n.told peer r).Unique ↔ ∀ id w, n.supervisor.owned.contains id = true →
      latest id (r.taken n.supervisor.node.id peer) = some w → w.lifecycle = .deleted := by
  rw [(filed_told filed peer r).unique_iff, owned_told]
  rw [filed.unique_iff] at unique
  constructor
  · intro apart id w own last
    obtain ⟨v, found⟩ := SortedMap.contains_iff.1 own
    have after := apart id v found
    rw [find?_told, last] at after
    exact WorkerRecord.remembered_eq_none.1 after
  · intro deleted id v found
    rw [find?_told]
    cases last : latest id (r.taken n.supervisor.node.id peer) with
    | none => exact r.find?_kept_none (unique id v found)
    | some w =>
      exact WorkerRecord.remembered_eq_none.2
        (deleted id w (SortedMap.contains_iff.2 ⟨v, found⟩) last)

/-- **A peer touches only its own workers as long as it does not use the ids of others.** Whatever
it says, nothing becomes of the workers of this node. Nothing becomes of those of third nodes
either, and no id stands twice afterwards, exactly if the peer names no id that stands for the
worker of a third node, and the last that it says of an id that stands for a worker of this node is
that it has been deleted. -/
theorem spares_others_iff (filed : n.supervisor.Filed) (unique : n.supervisor.Unique)
    (peer : NodeId) (r : Report) :
    (n.told peer r).owned = n.supervisor.owned ∧
      (n.supervisor.Spares peer (n.told peer r) ∧ (n.told peer r).Unique ↔
        (∀ w ∈ r.taken n.supervisor.node.id peer, ∀ v,
          n.supervisor.remote.find? w.uuid = some v → v.owner = peer) ∧
        ∀ id w, n.supervisor.owned.contains id = true →
          latest id (r.taken n.supervisor.node.id peer) = some w → w.lifecycle = .deleted) :=
  ⟨owned_told n peer r, and_congr spares_told_iff (unique_told_iff filed unique)⟩

/-! ### A small run -/

/-- A node that has one worker and knows another one of the second node. -/
def inLobby : Node := { (default : Node) with supervisor := Supervisor.lobby }

/-- What the owner of the worker in the lobby says about it. -/
def honest : Report := .all [{ Supervisor.lobbyRecord with lifecycle := .running }]

/-- A third node names both ids as those of its own workers. -/
def claiming : Report :=
  let id : WorkerId := { Supervisor.lobbyRecord.id with owner := "node-3" }
  .all [{ Supervisor.lobbyRecord with id },
    { Supervisor.lobbyRecord with id := { id with uuid := Supervisor.lobbyId } }]

theorem inLobby_filed : inLobby.supervisor.Filed := Supervisor.reachable_lobby.filed

theorem inLobby_unique : inLobby.supervisor.Unique := by
  unfold Supervisor.Unique
  decide +kernel

/-- The owner touches nothing but its own worker. -/
theorem honest_spares : inLobby.supervisor.Filed ∧ inLobby.supervisor.Unique ∧
    inLobby.supervisor.Spares "node-2" (inLobby.told "node-2" honest) ∧
      (inLobby.told "node-2" honest).Unique := by
  have iff := (spares_others_iff inLobby_filed inLobby_unique "node-2" honest).2
  refine ⟨inLobby_filed, inLobby_unique, iff.2 ⟨by decide +kernel, fun id w own last => ?_⟩⟩
  obtain ⟨mem, rfl⟩ := WorkerRecord.mem_of_latest last
  have foreign : ∀ w ∈ honest.taken "node-1" "node-2",
      inLobby.supervisor.owned.contains w.uuid = false := by decide +kernel
  rw [foreign w mem] at own
  cases own

/-- **A third node takes the worker of another one over**, and the worker of this node stands twice
in every list and in every count. -/
theorem claiming_takes_over : inLobby.supervisor.Filed ∧ inLobby.supervisor.Unique ∧
    ¬ inLobby.supervisor.Spares "node-3" (inLobby.told "node-3" claiming) ∧
    ¬ (inLobby.told "node-3" claiming).Unique ∧
    inLobby.supervisor.count "Lobby" = 2 ∧ (inLobby.told "node-3" claiming).count "Lobby" = 3 := by
  refine ⟨inLobby_filed, inLobby_unique, fun spares => ?_, fun unique => ?_, ?_, ?_⟩
  · have before : inLobby.supervisor.remote.find? (.ofNat 2) = some Supervisor.lobbyRecord := rfl
    have after := (spares.remote _ _ (by decide)).2 before
    have owner : ((inLobby.told "node-3" claiming).remote.find? (.ofNat 2)).map (·.owner) =
        some "node-3" := by decide +kernel
    rw [after] at owner
    exact absurd owner (by decide)
  · unfold Supervisor.Unique at unique
    exact absurd unique (by decide +kernel)
  · decide +kernel
  · decide +kernel

end Node

end WorkerCluster
