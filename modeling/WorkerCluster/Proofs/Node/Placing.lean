import WorkerCluster.Proofs.Node.Forwarding
import WorkerCluster.Proofs.Selection

/-!
# Where an instance of a task goes

A node that is asked for an instance of a task makes it itself or passes its plan on to a peer. It
finds a destination first, by the names in what its peers have said about themselves, and then looks
at its roster once more to see whether the destination is connected.

* `Reachable.sound_roster`: at all times everything in the roster stands under the right name.
* `Eligible` holds for the nodes that may own an instance. `eligible_of_destination` says that a
  destination is one of them, `destination_eq_none_iff` that there is one if there are any.
* `routes_safely` is the main statement about what the node does: it passes the plan on to a
  connected peer that the task admits, or makes the instance itself if the task admits it, or does
  nothing if there is nobody to make it.
* `placed_best_or_first` is the main statement about the choice: if the task admits the node, nobody
  beats the chosen one. Otherwise the node takes its first eligible peer, whoever beats that one.
-/

namespace WorkerCluster

/-- Where an operation runs that a node has dispatched, if anywhere. -/
def Dispatch.place? (home : NodeId) : Dispatch → Option NodeId
  | .handled none => none
  | .handled (some _) => some home
  | .forward node _ => some node

/-- A supervisor follows a plan that names its own node. -/
theorem Supervisor.dispatchCreate_here {s : Supervisor} {plan : WorkerPlan}
    (isConnected : NodeId → Bool) (named : plan.owner = some s.node.id) :
    s.dispatchCreate isConnected plan =
      (s.create plan).map (fun r => .handled (some (.record r))) id := by
  unfold dispatchCreate
  rw [named]
  dsimp only
  rw [if_pos rfl]
  rfl

namespace Node

open Placement (Offers beats eligibleNodes eligiblePeers select)

variable {c : Config} {n m : Node} {t : TaskSpec} {task : String} {i j : NodeId}
  {here s : NodeStatus}

/-! ### The roster -/

/-- The roster is sound in the beginning. -/
theorem sound_roster_new {store : Store} {probe : Probe} {host : Host}
    (new : Node.new c store probe host = .ok n) : n.roster.Sound := by
  obtain ⟨-, status, own, roster⟩ := new_parts new
  rw [roster]
  exact Roster.sound_roll_new c.cluster.nodes own

/-- No turn of the node makes the roster unsound. -/
theorem Turn.sound_roster (h : n.roster.Sound) (turn : Turn n m) : m.roster.Sound := by
  cases turn with
  | connect peer => exact h.connect peer
  | disconnect peer => exact h.disconnect peer
  | hear status => exact h.hear status
  | roll status own => exact h.roll own
  | supervise | overhear | change | apply | measure | mail => exact h

theorem Reachable.sound_roster (h : Reachable c n) : n.roster.Sound :=
  h.ind (motive := fun n => n.roster.Sound) (fun _ _ _ _ new => sound_roster_new new)
    fun _ _ sound turn => turn.sound_roster sound

theorem Configured.node_eq (h : Configured c n) : n.supervisor.node = n.identity :=
  h.node.trans h.home.symm

/-- A node is connected to others only. -/
theorem Reachable.ne_identity (h : Reachable c n) (connected : n.roster.isConnected i = true) :
    i ≠ n.identity.id := by
  rw [← h.configured.node_eq]
  exact h.configured.ne_of_isConnected connected

/-- What the node last said about itself names it. -/
theorem Reachable.named_current (h : Reachable c n) (current : n.roster.current = some here) :
    here.node.id = n.identity.id :=
  h.sound_roster.named ((if_pos rfl).trans current)

/-! ### Eligible nodes -/

/-- A node that may own an instance of a task: one that the task admits, and either the node itself
or a peer that is connected. -/
def Eligible (n : Node) (t : TaskSpec) (i : NodeId) : Prop :=
  t.admits i = true ∧ (i = n.identity.id ∨ n.roster.isConnected i = true)

/-- What is up for choice are the statuses of the eligible peers. -/
theorem offers_iff (h : Reachable c n) :
    Offers t n.identity.id n.roster.candidates s ↔
      ∃ peer, t.admits peer = true ∧ n.roster.isConnected peer = true ∧
        n.roster.heard? peer = some s := by
  constructor
  · rintro ⟨c, mem, connected, -, admitted, status⟩
    obtain ⟨linked, heard⟩ := (h.sound_roster.mem_candidates connected).1 mem
    exact ⟨c.node, admitted, linked, heard.trans status⟩
  · rintro ⟨peer, admitted, linked, heard⟩
    have mem : ⟨peer, true, some s⟩ ∈ n.roster.candidates :=
      (h.sound_roster.mem_candidates rfl).2 ⟨linked, heard⟩
    exact ⟨_, mem, rfl, h.ne_identity linked, admitted, rfl⟩

/-- The eligible nodes are those that placement finds. -/
theorem mem_eligibleNodes (h : Reachable c n) :
    i ∈ eligibleNodes t n.identity.id n.roster.candidates ↔ n.Eligible t i := by
  rw [eligibleNodes, List.mem_append, List.mem_map]
  constructor
  · rintro (own | ⟨c, peer, rfl⟩)
    · split at own
      · next admitted =>
        obtain rfl := List.mem_singleton.1 own
        exact ⟨admitted, .inl rfl⟩
      · cases own
    · obtain ⟨mem, connected, -, admitted⟩ := Placement.mem_eligiblePeers.1 peer
      exact ⟨admitted, .inr ((h.sound_roster.mem_candidates connected).1 mem).1⟩
  · rintro ⟨admitted, rfl | linked⟩
    · left
      rw [if_pos admitted]
      exact List.mem_singleton_self _
    · right
      have mem : ⟨i, true, n.roster.heard? i⟩ ∈ n.roster.candidates :=
        (h.sound_roster.mem_candidates rfl).2 ⟨linked, rfl⟩
      have peer := Placement.mem_eligiblePeers.2 ⟨mem, rfl, h.ne_identity linked, admitted⟩
      exact ⟨_, peer, rfl⟩

/-- The eligible peers stand in the order of their ids. -/
theorem sorted_eligiblePeers (h : Reachable c n) :
    ((eligiblePeers t n.identity.id n.roster.candidates).map (·.node)).Pairwise (· < ·) :=
  List.pairwise_map.2 (h.sound_roster.sorted_candidates.sublist List.filter_sublist)

/-- The eligible node with the smallest id. -/
def IsFirst (n : Node) (t : TaskSpec) (i : NodeId) : Prop :=
  n.Eligible t i ∧ ∀ j, n.Eligible t j → j = i ∨ i < j

/-! ### Destinations -/

/-- What a node selects for a task that admits it is an eligible node, with what that node has said
about itself. -/
theorem select_eligible (h : Reachable c n) (current : n.roster.current = some here)
    (admitted : t.admits n.identity.id = true) :
    n.Eligible t (select t here n.roster.candidates).node.id ∧
      n.roster.status? (select t here n.roster.candidates).node.id =
        some (select t here n.roster.candidates) := by
  have own : here.node.id = n.identity.id := h.named_current current
  obtain stays | ⟨offered, -⟩ := Placement.select_cases t here n.roster.candidates
  · rw [stays, own]
    exact ⟨⟨admitted, .inl rfl⟩, (if_pos rfl).trans current⟩
  · rw [own, offers_iff h] at offered
    obtain ⟨peer, admitted, linked, heard⟩ := offered
    have named := h.sound_roster.heard peer _ heard
    rw [named]
    exact ⟨⟨admitted, .inr linked⟩, (if_neg (h.ne_identity linked)).trans heard⟩

/-- **A destination is an eligible node.** -/
theorem eligible_of_destination (h : Reachable c n) (current : n.roster.current = some here)
    (dest : n.destination here t = some i) : n.Eligible t i := by
  unfold destination at dest
  dsimp only at dest
  split at dest
  · next admitted =>
    obtain rfl := Option.some.inj dest
    exact (select_eligible h current admitted).1
  · exact (mem_eligibleNodes h).1 (List.mem_of_head? dest)

/-- **There is a destination if any node is eligible.** -/
theorem destination_eq_none_iff (h : Reachable c n) :
    n.destination here t = none ↔ ∀ i, ¬ n.Eligible t i := by
  unfold destination
  dsimp only
  split
  · next admitted =>
    exact iff_of_false nofun fun nobody => nobody n.identity.id ⟨admitted, .inl rfl⟩
  · rw [List.head?_eq_none_iff, List.eq_nil_iff_forall_not_mem]
    exact forall_congr' fun i => not_congr (mem_eligibleNodes h)

/-- For a task that does not admit the node the first eligible peer is the destination. -/
theorem isFirst_of_destination (h : Reachable c n) (outside : t.admits n.identity.id = false)
    (dest : n.destination here t = some i) : n.IsFirst t i := by
  have peers : eligibleNodes t n.identity.id n.roster.candidates =
      (eligiblePeers t n.identity.id n.roster.candidates).map (·.node) := by
    rw [eligibleNodes, outside]
    rfl
  have sorted := sorted_eligiblePeers (t := t) h
  rw [← peers] at sorted
  unfold destination at dest
  rw [outside] at dest
  obtain ⟨rest, split⟩ := List.head?_eq_some_iff.1 dest
  have mem {j : NodeId} : n.Eligible t j ↔ j = i ∨ j ∈ rest := by
    rw [← mem_eligibleNodes h, split, List.mem_cons]
  rw [split, List.pairwise_cons] at sorted
  exact ⟨mem.2 (.inl rfl), fun j eligible => (mem.1 eligible).imp_right (sorted.1 j)⟩

/-! ### Dispatching -/

/-- The plan of an instance of a task that is to go to a node. -/
def planFor (n : Node) (t : TaskSpec) (i : NodeId) : WorkerPlan :=
  { t.plan n.replica.groups.values with owner := some i }

/-- A worker is made by the node itself. -/
def createHere (n : Node) (plan : WorkerPlan) : Dispatch × Node :=
  (n.onSupervisor (·.create plan)).map (fun r => .handled (some (.record r))) id

/-- **A plan that names the node itself is followed by the node itself.** -/
theorem dispatchCreate_here (h : Configured c n) {plan : WorkerPlan}
    (named : plan.owner = some n.identity.id) : n.dispatchCreate plan = n.createHere plan := by
  have made := Supervisor.dispatchCreate_here n.roster.isConnected (h.node_eq ▸ named)
  unfold dispatchCreate createHere onSupervisor
  dsimp only
  rw [made]
  rfl

/-- Nothing is known of the task. -/
theorem dispatchTask_unknown (unknown : n.replica.tasks.find? task = none) :
    n.dispatchTask task = (.handled none, n) := by
  unfold dispatchTask
  rw [unknown]

/-- There is nobody to make an instance. -/
theorem dispatchTask_nowhere (known : n.replica.tasks.find? task = some t)
    (current : n.roster.current = some here) (nowhere : n.destination here t = none) :
    n.dispatchTask task = (.handled none, n) := by
  unfold dispatchTask
  rw [known, current]
  dsimp only
  rw [nowhere]

/-- The plan for the destination is dispatched. -/
theorem dispatchTask_somewhere (known : n.replica.tasks.find? task = some t)
    (current : n.roster.current = some here) (dest : n.destination here t = some i) :
    n.dispatchTask task = n.dispatchCreate (n.planFor t i) := by
  unfold dispatchTask
  rw [known, current]
  dsimp only
  rw [dest]
  rfl

/-- **An instance goes to the destination**, as far as a dispatch shows. -/
theorem place?_dispatchTask (h : Reachable c n) (known : n.replica.tasks.find? task = some t)
    (current : n.roster.current = some here) :
    (n.dispatchTask task).1.place? n.identity.id = n.destination here t := by
  cases dest : n.destination here t with
  | none =>
    rw [dispatchTask_nowhere known current dest]
    rfl
  | some i =>
    rw [dispatchTask_somewhere known current dest]
    obtain ⟨-, rfl | linked⟩ := eligible_of_destination h current dest
    · rw [dispatchCreate_here h.configured rfl]
      rfl
    · rw [dispatchCreate_elsewhere h.configured rfl linked]
      rfl

/-- **An instance is placed safely.** Whatever has happened to a node, if it is asked for an
instance of a task, one of three things happens.

* It passes the plan of the task on, which names a peer, and nothing else happens. The peer is
  connected, the task admits it, and it is not the node itself.
* It follows the plan itself. Then the task admits it.
* It does nothing at all. Then the task is unknown, or neither the node nor a connected peer is
  admitted by it. -/
theorem routes_safely (h : Reachable c n) (task : String) :
    (∃ t peer, n.replica.tasks.find? task = some t ∧
      n.roster.isConnected peer = true ∧ t.admits peer = true ∧ peer ≠ n.identity.id ∧
      n.dispatchTask task = (.forward peer (.create (n.planFor t peer)), n)) ∨
    (∃ t, n.replica.tasks.find? task = some t ∧ t.admits n.identity.id = true ∧
      n.dispatchTask task = n.createHere (n.planFor t n.identity.id)) ∨
    ((n.replica.tasks.find? task = none ∨
        ∃ t, n.replica.tasks.find? task = some t ∧ ∀ i, ¬ n.Eligible t i) ∧
      n.dispatchTask task = (.handled none, n)) := by
  obtain ⟨here, current, -⟩ := h.sound_roster.current
  cases known : n.replica.tasks.find? task with
  | none => exact .inr (.inr ⟨.inl rfl, dispatchTask_unknown known⟩)
  | some t =>
    cases dest : n.destination here t with
    | none =>
      have nobody := (destination_eq_none_iff h).1 dest
      exact .inr (.inr ⟨.inr ⟨t, rfl, nobody⟩, dispatchTask_nowhere known current dest⟩)
    | some i =>
      have dispatched := dispatchTask_somewhere known current dest
      obtain ⟨admitted, rfl | linked⟩ := eligible_of_destination h current dest
      · rw [dispatchCreate_here h.configured rfl] at dispatched
        exact .inr (.inl ⟨t, rfl, admitted, dispatched⟩)
      · rw [dispatchCreate_elsewhere h.configured rfl linked] at dispatched
        exact .inl ⟨t, i, rfl, linked, admitted, h.ne_identity linked, dispatched⟩

/-! ### A small cluster -/

/-- The configuration of a node with two peers. -/
def spreadConfig : Config :=
  { identity := ⟨"node-1", []⟩
    maxMemory := 1024
    cluster := { nodes := [⟨"node-2", []⟩, ⟨"node-3", []⟩] } }

/-- A task that some nodes may own. -/
def taskOn (name : String) (nodes : List NodeId) : TaskSpec :=
  { (default : TaskSpec) with name, nodes, program := Supervisor.lobbyPlan.program }

/-- Such a node, which is half busy, before anything has happened. -/
def idleSpread : Node :=
  (Node.new spreadConfig {} { last := { cpuUsage := .ofNat 50 } } {}).toOption.getD default

/-- The node makes a worker and says so; its peers say that they have more memory left and less
load, the second one more so than the first; and tasks are added. -/
def spreading : List Move := [
  .errand (.handle (.create Supervisor.lobbyPlan)),
  .publishStatus,
  .errand (.notice (.peerConnected "node-2")),
  .errand (.notice (.peerConnected "node-3")),
  .errand (.hear "node-2" (.status (Placement.oneWorker "node-2" 2048 20))),
  .errand (.hear "node-3" (.status (Placement.oneWorker "node-3" 8192 10))),
  .errand (.handle (.addTask (taskOn "Lobby" []))),
  .errand (.handle (.addTask (taskOn "Arena" ["node-2", "node-3"]))),
  .errand (.handle (.addTask (taskOn "Vault" ["node-1"]))),
  .errand (.handle (.addTask (taskOn "Attic" ["node-4"])))]

/-- The node after that. -/
def spread : Node := idleSpread.run spreading

theorem reachable_spread : Reachable spreadConfig spread :=
  Reachable.run (.start {} { last := { cpuUsage := .ofNat 50 } } {} rfl) spreading

/-- The tasks are there. -/
theorem known_spread : spread.replica.tasks.find? "Lobby" = some (taskOn "Lobby" []) ∧
    spread.replica.tasks.find? "Arena" = some (taskOn "Arena" ["node-2", "node-3"]) ∧
    spread.replica.tasks.find? "Vault" = some (taskOn "Vault" ["node-1"]) := by
  decide +kernel

/-- Where their instances go. -/
theorem place?_spread :
    (spread.dispatchTask "Lobby").1.place? "node-1" = some "node-3" ∧
    (spread.dispatchTask "Arena").1.place? "node-1" = some "node-2" ∧
    (spread.dispatchTask "Vault").1.place? "node-1" = some "node-1" ∧
    (spread.dispatchTask "Attic").1.place? "node-1" = none := by
  decide +kernel

/-- An instance of one task goes to the better peer, one of another is made by the node, and for one
there is nobody. -/
theorem spread_routed : Reachable spreadConfig spread ∧
    spread.dispatchTask "Lobby" =
      (.forward "node-3" (.create (spread.planFor (taskOn "Lobby" []) "node-3")), spread) ∧
    spread.dispatchTask "Vault" =
      spread.createHere (spread.planFor (taskOn "Vault" ["node-1"]) "node-1") ∧
    spread.dispatchTask "Attic" = (.handled none, spread) := by
  obtain ⟨lobby, -, vault, attic⟩ := place?_spread
  obtain ⟨lobbyKnown, -, vaultKnown⟩ := known_spread
  refine ⟨reachable_spread, ?_, ?_, ?_⟩
  · obtain ⟨t, peer, known, -, -, -, sent⟩ | ⟨t, -, -, made⟩ | ⟨-, nothing⟩ :=
      routes_safely reachable_spread "Lobby"
    · rw [sent] at lobby
      obtain rfl : peer = "node-3" := Option.some.inj lobby
      obtain rfl : taskOn "Lobby" [] = t := Option.some.inj (lobbyKnown.symm.trans known)
      exact sent
    · rw [made] at lobby
      exact absurd (Option.some.inj lobby) (by decide)
    · rw [nothing] at lobby
      cases lobby
  · obtain ⟨t, peer, -, -, -, other, sent⟩ | ⟨t, known, -, made⟩ | ⟨-, nothing⟩ :=
      routes_safely reachable_spread "Vault"
    · rw [sent] at vault
      exact (other (Option.some.inj vault)).elim
    · obtain rfl : taskOn "Vault" ["node-1"] = t := Option.some.inj (vaultKnown.symm.trans known)
      exact made
    · rw [nothing] at vault
      cases vault
  · obtain ⟨t, peer, -, -, -, -, sent⟩ | ⟨t, -, -, made⟩ | ⟨-, nothing⟩ :=
      routes_safely reachable_spread "Attic"
    · rw [sent] at attic
      cases attic
    · rw [made] at attic
      cases attic
    · exact nothing

/-! ### The choice -/

/-- No eligible node beats a node, as far as both have said something about themselves. -/
def Unbeaten (n : Node) (t : TaskSpec) (i : NodeId) : Prop :=
  ∀ j, n.Eligible t j → ∀ r s, n.roster.status? j = some r → n.roster.status? i = some s →
    beats r s = false

/-- **Nobody beats the node that is selected** for a task that admits the node itself. -/
theorem unbeaten_select (h : Reachable c n) (current : n.roster.current = some here)
    (admitted : t.admits n.identity.id = true) :
    n.Unbeaten t (select t here n.roster.candidates).node.id := by
  rintro j ⟨admits, place⟩ r s said known
  rw [(select_eligible h current admitted).2] at known
  obtain rfl := Option.some.inj known
  obtain rfl | linked := place
  · obtain rfl : here = r := Option.some.inj (current.symm.trans ((if_pos rfl).symm.trans said))
    exact Placement.not_beats_select_self t here n.roster.candidates
  · have heard : n.roster.heard? j = some r := (if_neg (h.ne_identity linked)).symm.trans said
    have offered := (offers_iff h).2 ⟨j, admits, linked, heard⟩
    rw [← h.named_current current] at offered
    exact Placement.not_beats_select offered

/-- **An instance gets a best place or the first one.** Let a node place an instance of a task. If
the task admits the node itself, the chosen node has said something about itself and no eligible one
beats it. Otherwise the eligible peer with the smallest id is chosen, whatever it has said. -/
theorem placed_best_or_first (h : Reachable c n) (known : n.replica.tasks.find? task = some t)
    (placed : (n.dispatchTask task).1.place? n.identity.id = some i) :
    (t.admits n.identity.id = true → (∃ s, n.roster.status? i = some s) ∧ n.Unbeaten t i) ∧
      (t.admits n.identity.id = false → n.IsFirst t i) := by
  obtain ⟨here, current, -⟩ := h.sound_roster.current
  have dest : n.destination here t = some i :=
    (place?_dispatchTask h known current).symm.trans placed
  constructor
  · intro admitted
    have chosen : (select t here n.roster.candidates).node.id = i :=
      Option.some.inj ((if_pos admitted).symm.trans dest)
    subst chosen
    exact ⟨⟨_, (select_eligible h current admitted).2⟩, unbeaten_select h current admitted⟩
  · intro outside
    exact isFirst_of_destination h outside dest

/-- Nobody beats the peer to which an instance goes for a task that admits the node. -/
theorem spread_best : Reachable spreadConfig spread ∧
    spread.replica.tasks.find? "Lobby" = some (taskOn "Lobby" []) ∧
    (spread.dispatchTask "Lobby").1.place? spread.identity.id = some "node-3" ∧
    (∃ s, spread.roster.status? "node-3" = some s) ∧
    spread.Unbeaten (taskOn "Lobby" []) "node-3" := by
  have known := known_spread.1
  have placed : (spread.dispatchTask "Lobby").1.place? spread.identity.id = some "node-3" :=
    place?_spread.1
  obtain ⟨heard, unbeaten⟩ := (placed_best_or_first reachable_spread known placed).1 rfl
  exact ⟨reachable_spread, known, placed, heard, unbeaten⟩

/-- **An instance goes to a peer that another one beats**, for a task that does not admit the
node. -/
theorem arena_beaten : Reachable spreadConfig spread ∧
    spread.replica.tasks.find? "Arena" = some (taskOn "Arena" ["node-2", "node-3"]) ∧
    (spread.dispatchTask "Arena").1.place? spread.identity.id = some "node-2" ∧
    ¬ spread.Unbeaten (taskOn "Arena" ["node-2", "node-3"]) "node-2" := by
  refine ⟨reachable_spread, known_spread.2.1, place?_spread.2.1, fun unbeaten => ?_⟩
  have linked : spread.roster.isConnected "node-3" = true := by decide +kernel
  have loses := unbeaten "node-3" ⟨by decide, .inr linked⟩ (Placement.oneWorker "node-3" 8192 10)
    (Placement.oneWorker "node-2" 2048 20) (by decide +kernel) (by decide +kernel)
  exact absurd loses (by decide +kernel)

end Node

end WorkerCluster
