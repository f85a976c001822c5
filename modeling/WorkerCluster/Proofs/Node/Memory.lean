import WorkerCluster.Proofs.Node.Ownership
import WorkerCluster.Proofs.Node.Turn

/-!
# What nodes remember of their peers

A node keeps what its peers say about themselves and about their workers, and forgets it when it is
told that a peer is gone. Messages of that peer may still come after that.

* `Signal` is what a node is told of a peer, by its links or by the peer itself. `Node.after` is the
  node when it has followed some signals.
* `Node.Tidy` holds if all that the node remembers is about peers that are connected.
* `Signal.Leaves` says when a message leaves something behind. `Tidy.signal_iff` is what becomes of
  a tidy node then.
* `tidy_throughout_iff` is the main statement: a node is tidy at all times exactly if no message of
  a peer that is not connected leaves anything behind. In the run `belated` one does.
-/

namespace WorkerCluster

open WorkerRecord (latest)

/-! ### Signals -/

namespace Report

variable {peer : NodeId} {m : SortedMap Uuid WorkerRecord} {id : Uuid} {w : WorkerRecord}

/-- What is kept was remembered before. -/
theorem found_of_kept {r : Report} (h : (r.kept peer m).find? id = some w) :
    m.find? id = some w := by
  cases r with
  | one u => exact h
  | all l =>
    rw [kept, SortedMap.find?_filter, Option.filter_eq_some_iff] at h
    exact h.1

/-- The last that a peer says of one of its workers is not that it has been deleted. -/
def Lasts (r : Report) (home peer : NodeId) : Prop :=
  ∃ id w, latest id (r.taken home peer) = some w ∧ w.lifecycle ≠ .deleted

end Report

/-- Something that a node is told of a peer. -/
inductive Signal
  /-- There is a link to the peer now. -/
  | up (peer : NodeId)
  /-- There is none any more. -/
  | down (peer : NodeId)
  /-- The peer has said something about the cluster. -/
  | tells (peer : NodeId) (message : ClusterMessage)
  /-- The peer has said something about a worker. -/
  | updates (peer : NodeId) (update : WorkerUpdate)

namespace Signal

/-- The peer of which the node is told. -/
def peer : Signal → NodeId
  | .up peer | .down peer | .tells peer _ | .updates peer _ => peer

/-- What the node has to do then. -/
def errand : Signal → Errand
  | .up peer => .notice (.peerConnected peer)
  | .down peer => .notice (.peerDisconnected peer)
  | .tells peer m => .hear peer m
  | .updates peer u => .follow peer u

/-- The peer has told the node something that the node remembers: about itself, if it is a
configured peer, or about a worker of its own that has not been deleted. -/
def Leaves (n : Node) : Signal → Prop
  | .up _ | .down _ => False
  | .tells peer (.status s) => s.node.id = peer ∧ n.roster.peers.contains peer = true
  | .tells peer (.workers l) => (Report.all l).Lasts n.supervisor.node.id peer
  | .tells _ _ => False
  | .updates peer u => (Report.one u).Lasts n.supervisor.node.id peer

end Signal

namespace Node

variable {n : Node} {peer : NodeId}

/-- The node when it has followed some signals. -/
def after (n : Node) (signals : List Signal) : Node :=
  signals.foldl (fun n s => (n.perform s.errand).2) n

theorem after_concat (n : Node) (signals : List Signal) (s : Signal) :
    n.after (signals ++ [s]) = ((n.after signals).perform s.errand).2 := by
  simp [after]

/-- All that a node remembers of its peers is about connected ones. -/
structure Tidy (n : Node) : Prop where
  workers : ∀ id w, n.supervisor.remote.find? id = some w → n.roster.isConnected w.owner = true
  statuses : ∀ peer s, n.roster.heard? peer = some s → n.roster.isConnected peer = true

/-- In the beginning a node remembers nothing. -/
theorem tidy_new {c : Config} {store : Store} {probe : Probe} {host : Host}
    (new : Node.new c store probe host = .ok n) : n.Tidy := by
  obtain ⟨supervisor, status, -, roster⟩ := new_parts new
  refine ⟨fun id w found => ?_, fun peer s heard => ?_⟩
  · rw [supervisor] at found
    cases found
  · have nothing : n.roster.heard? peer = none := by
      rw [roster]
      exact Roster.heard?_new c.identity c.cluster.nodes peer
    cases nothing.symm.trans heard

/-! ### One signal -/

theorem roster_peerConnected (n : Node) (peer : NodeId) :
    (n.peerConnected peer).roster = (n.roster.connect peer).2 := by
  unfold peerConnected
  dsimp only
  split <;> rfl

theorem roster_peerDisconnected (n : Node) (peer : NodeId) :
    (n.peerDisconnected peer).roster = (n.roster.disconnect peer).2 := by
  unfold peerDisconnected
  dsimp only
  split <;> rfl

/-- A peer that is connected takes nothing away. -/
theorem Tidy.up (h : n.Tidy) (peer : NodeId) : (n.peerConnected peer).Tidy := by
  have roster := roster_peerConnected n peer
  have supervisor : (n.peerConnected peer).supervisor = n.supervisor := by
    unfold peerConnected
    dsimp only
    split <;> rfl
  have stays {other : NodeId} (connected : n.roster.isConnected other = true) :
      (n.peerConnected peer).roster.isConnected other = true := by
    rw [roster, Roster.isConnected_connect]
    split
    · exact Roster.contains_of_isConnected connected
    · exact connected
  refine ⟨fun id w found => stays (h.workers id w (supervisor ▸ found)), fun other s heard => ?_⟩
  rw [roster, Roster.heard?_connect] at heard
  exact stays (h.statuses other s heard)

/-- All that a peer has said is forgotten when it is gone. -/
theorem Tidy.down (h : n.Tidy) (peer : NodeId) : (n.peerDisconnected peer).Tidy := by
  have roster := roster_peerDisconnected n peer
  have remote : (n.peerDisconnected peer).supervisor.remote =
      if n.roster.peers.contains peer then n.supervisor.remote.filter fun _ w => w.owner != peer
      else n.supervisor.remote := by
    unfold peerDisconnected
    dsimp only [Roster.disconnect]
    split <;> rfl
  refine ⟨fun id w found => ?_, fun other s heard => ?_⟩
  · have known : n.supervisor.remote.find? id = some w ∧ w.owner ≠ peer := by
      rw [remote] at found
      split at found
      · rw [SortedMap.find?_filter, Option.filter_eq_some_iff] at found
        exact ⟨found.1, by simpa using found.2⟩
      · next stranger =>
        refine ⟨found, fun own => stranger ?_⟩
        exact own ▸ Roster.contains_of_isConnected (h.workers id w found)
    rw [roster, Roster.isConnected_disconnect, h.workers id w known.1]
    simp [known.2]
  · rw [roster, Roster.heard?_disconnect] at heard
    split at heard
    · cases heard
    · next other' =>
      rw [roster, Roster.isConnected_disconnect, h.statuses other s heard]
      simp [other']

/-- A node that remembers the same of the same peers stays tidy. -/
theorem Tidy.congr {t : Node} (h : n.Tidy) (roster : t.roster = n.roster)
    (remote : t.supervisor.remote = n.supervisor.remote) : t.Tidy where
  workers id w found := roster ▸ h.workers id w (remote ▸ found)
  statuses peer s heard := roster ▸ h.statuses peer s (roster ▸ heard)

theorem roster_told (n : Node) (peer : NodeId) (r : Report) :
    (n.perform (r.errand peer)).2.roster = n.roster := by
  cases r with
  | one u =>
    show (n.follow peer u).roster = _
    unfold follow
    split <;> rfl
  | all l => rfl

/-- What a peer says of its workers lasts, or the node stays tidy. -/
theorem Tidy.report_iff (h : n.Tidy) (peer : NodeId) (r : Report) :
    (n.perform (r.errand peer)).2.Tidy ↔
      (r.Lasts n.supervisor.node.id peer → n.roster.isConnected peer = true) := by
  constructor
  · rintro after ⟨id, w, last, present⟩
    have owner := Report.owner_of_taken (WorkerRecord.mem_of_latest last).1
    have found : (n.told peer r).remote.find? id = some w := by
      rw [find?_told, last]
      exact if_neg present
    have connected := after.workers id w found
    rwa [roster_told, owner] at connected
  · intro connected
    refine ⟨fun id w found => ?_, fun other s heard => ?_⟩
    · change (n.told peer r).remote.find? id = some w at found
      rw [roster_told]
      rw [find?_told] at found
      cases last : latest id (r.taken n.supervisor.node.id peer) with
      | none =>
        rw [last] at found
        exact h.workers id w (Report.found_of_kept found)
      | some v =>
        rw [last] at found
        obtain rfl := WorkerRecord.eq_of_remembered found
        have present : w.lifecycle ≠ .deleted := fun gone => by
          rw [Option.elim_some, WorkerRecord.remembered_eq_none.2 gone] at found
          cases found
        rw [Report.owner_of_taken (WorkerRecord.mem_of_latest last).1]
        exact connected ⟨id, w, last, present⟩
    · rw [roster_told] at heard ⊢
      exact h.statuses other s heard

/-- What a peer says about itself is remembered, or the node stays tidy. -/
theorem Tidy.status_iff (h : n.Tidy) (peer : NodeId) (s : NodeStatus) :
    (n.hear peer (.status s)).Tidy ↔
      (s.node.id = peer ∧ n.roster.peers.contains peer = true →
        n.roster.isConnected peer = true) := by
  by_cases own : s.node.id = peer
  · subst own
    have after : n.hear s.node.id (.status s) = { n with roster := (n.roster.hear s).2 } :=
      if_pos rfl
    rw [after]
    constructor
    · rintro tidy ⟨-, known⟩
      have heard : (n.roster.hear s).2.heard? s.node.id = some s := by
        rw [Roster.heard?_hear, if_pos ⟨rfl, known⟩]
      exact Roster.isConnected_hear .. ▸ tidy.statuses s.node.id s heard
    · intro connected
      refine ⟨fun id w found => ?_, fun other s' heard => ?_⟩
      · exact (Roster.isConnected_hear ..).trans (h.workers id w found)
      · refine (Roster.isConnected_hear ..).trans ?_
        dsimp only at heard
        rw [Roster.heard?_hear] at heard
        split at heard
        · next new => exact new.1 ▸ connected ⟨rfl, new.1 ▸ new.2⟩
        · exact h.statuses other s' heard
  · have after : n.hear peer (.status s) = n := if_neg own
    rw [after]
    exact iff_of_true h fun claims => absurd claims.1 own

/-- **One signal**: the node stays tidy unless a message of a peer that is not connected leaves
something behind. -/
theorem Tidy.signal_iff (h : n.Tidy) (s : Signal) :
    (n.perform s.errand).2.Tidy ↔ (s.Leaves n → n.roster.isConnected s.peer = true) := by
  cases s with
  | up peer => exact iff_of_true (h.up peer) nofun
  | down peer => exact iff_of_true (h.down peer) nofun
  | updates peer u => exact h.report_iff peer (.one u)
  | tells peer m =>
    cases m with
    | status s => exact h.status_iff peer s
    | workers l => exact h.report_iff peer (.all l)
    | _ => exact iff_of_true (h.congr rfl rfl) nofun

/-! ### All signals -/

/-- A tidy node stays so exactly as long as no message of a peer that is not connected leaves
anything behind. -/
theorem Tidy.throughout_iff (h : n.Tidy) (signals : List Signal) :
    (∀ past, past <+: signals → (n.after past).Tidy) ↔
      ∀ past s, past ++ [s] <+: signals → s.Leaves (n.after past) →
        (n.after past).roster.isConnected s.peer = true := by
  constructor
  · intro tidy past s upTo
    have next := tidy _ upTo
    rw [after_concat] at next
    exact (tidy past ((List.prefix_append past [s]).trans upTo)).signal_iff s |>.1 next
  · intro connected past upTo
    induction past using List.reverseRecOn with
    | nil => exact h
    | append_singleton past s ih =>
      have before := ih ((List.prefix_append past [s]).trans upTo)
      rw [after_concat]
      exact (before.signal_iff s).2 (connected past s upTo)

/-- **All that a node remembers of its peers is at all times about connected ones exactly if no
message leaves anything behind that comes from a peer which is not connected** when the message is
followed. That holds from the beginning of the node on, whatever it is told of its peers. -/
theorem tidy_throughout_iff {c : Config} {store : Store} {probe : Probe} {host : Host}
    (new : Node.new c store probe host = .ok n) (signals : List Signal) :
    (∀ past, past <+: signals → (n.after past).Tidy) ↔
      ∀ past s, past ++ [s] <+: signals → s.Leaves (n.after past) →
        (n.after past).roster.isConnected s.peer = true :=
  (tidy_new new).throughout_iff signals

/-! ### A small run -/

/-- A node with one peer. -/
def pairedConfig : Config :=
  { (default : Config) with
    identity := ⟨"node-1", []⟩
    cluster := { nodes := [⟨"node-2", []⟩] } }

/-- The node before anything has happened. -/
def newcomer : Node := (Node.new pairedConfig {} {} {}).toOption.getD default

/-- What the peer says about itself. -/
def peerStatus : NodeStatus := { (default : NodeStatus) with node := ⟨"node-2", []⟩ }

/-- All that the peer says comes while it is connected. -/
def prompt : List Signal :=
  [.up "node-2", .tells "node-2" (.status peerStatus), .updates "node-2" ⟨Supervisor.lobbyRecord⟩,
    .down "node-2"]

/-- What the peer has said comes after the node has been told that it is gone. -/
def belated : List Signal :=
  [.up "node-2", .down "node-2", .tells "node-2" (.status peerStatus),
    .updates "node-2" ⟨Supervisor.lobbyRecord⟩]

theorem new_newcomer : Node.new pairedConfig {} {} {} = .ok newcomer := rfl

theorem prompt_tidy : Node.new pairedConfig {} {} {} = .ok newcomer ∧
    ∀ past, past <+: prompt → (newcomer.after past).Tidy := by
  refine ⟨new_newcomer, (tidy_throughout_iff new_newcomer prompt).2 ?_⟩
  rintro past s ⟨rest, split⟩ leaves
  rcases past with _ | ⟨a, _ | ⟨b, _ | ⟨c, _ | ⟨d, past⟩⟩⟩⟩
  all_goals
    simp only [prompt, List.nil_append, List.cons_append, List.cons.injEq] at split
  · obtain ⟨rfl, -⟩ := split
    exact leaves.elim
  · obtain ⟨rfl, rfl, -⟩ := split
    decide +kernel
  · obtain ⟨rfl, rfl, rfl, -⟩ := split
    decide +kernel
  · obtain ⟨rfl, rfl, rfl, rfl, -⟩ := split
    exact leaves.elim
  · simp at split

/-- **A node remembers a peer that is gone**: what it has said about itself, and a worker that
counts as an instance of its task. -/
theorem belated_remembered : Node.new pairedConfig {} {} {} = .ok newcomer ∧
    ¬ (∀ past, past <+: belated → (newcomer.after past).Tidy) ∧
    (newcomer.after belated).roster.isConnected "node-2" = false ∧
    (newcomer.after belated).roster.heard? "node-2" = some peerStatus ∧
    (newcomer.after belated).supervisor.remote.values = [Supervisor.lobbyRecord] ∧
    (newcomer.after belated).supervisor.count "Lobby" = 1 := by
  have gone : (newcomer.after belated).roster.isConnected "node-2" = false := by decide +kernel
  have heard : (newcomer.after belated).roster.heard? "node-2" = some peerStatus := by
    decide +kernel
  refine ⟨new_newcomer, fun tidy => ?_, gone, heard, ?_, by decide +kernel⟩
  · have connected := (tidy belated (List.prefix_refl _)).statuses _ _ heard
    rw [gone] at connected
    cases connected
  · rfl

end Node

end WorkerCluster
