import WorkerCluster.Placement

/-!
# Rosters

What a node knows about its peers: those that are configured, whether they are connected, and what
they last said about themselves; and what the node last said about itself.

* `Roster.connect`, `Roster.disconnect` and `Roster.hear` follow events.
* `Roster.candidates` is what placement is given.
* `Roster.targets` picks an address for every peer that is not connected.
-/

namespace WorkerCluster

/-- A configured peer. -/
structure Peer where
  identity : NodeIdentity
  connected : Bool := false
  /-- What it last said about itself. -/
  status : Option NodeStatus := none
  deriving DecidableEq, Inhabited

/-- What a node knows about its peers and itself. -/
structure Roster where
  home : NodeIdentity
  /-- The peers by id. -/
  peers : SortedMap NodeId Peer
  /-- What this node last said about itself. -/
  current : Option NodeStatus := none
  /-- What it said before. -/
  previous : Option NodeStatus := none
  deriving DecidableEq, Inhabited

namespace Roster

/-- No peer is connected at first. The node is no peer of itself; of several peers with one id the
last counts. -/
def new (home : NodeIdentity) (peers : List NodeIdentity) : Roster where
  home
  peers := .ofList ((peers.filter fun p => p.id != home.id).map fun p => (p.id, { identity := p }))

/-! ### Views -/

/-- A configured peer. -/
def peer? (r : Roster) (node : NodeId) : Option Peer := r.peers.find? node

/-- Whether a node is a connected peer. -/
def isConnected (r : Roster) (node : NodeId) : Bool :=
  match r.peer? node with
  | some p => p.connected
  | none => false

/-- The connected peers, by id. -/
def connected (r : Roster) : List NodeId :=
  (r.peers.values.filter (·.connected)).map (·.identity.id)

/-- What a node last said about itself. -/
def status? (r : Roster) (node : NodeId) : Option NodeStatus :=
  if node = r.home.id then r.current else (r.peer? node).bind (·.status)

/-- All that is known, about this node first. -/
def statuses (r : Roster) : List NodeStatus :=
  r.current.toList ++ r.peers.values.filterMap (·.status)

/-- The peers as placement sees them. -/
def candidates (r : Roster) : List Placement.Candidate :=
  r.peers.values.map fun p => ⟨p.identity.id, p.connected, p.status⟩

/-! ### Events -/

/-- A peer has been connected. The result is whether it is a configured one. -/
def connect (r : Roster) (node : NodeId) : Bool × Roster :=
  (r.peers.contains node,
    { r with peers := r.peers.modify node fun p => { p with connected := true } })

/-- A peer is no longer connected; what it said is forgotten. -/
def disconnect (r : Roster) (node : NodeId) : Bool × Roster :=
  (r.peers.contains node,
    { r with peers := r.peers.modify node fun p => { p with connected := false, status := none } })

/-- A peer has said something about itself. -/
def hear (r : Roster) (status : NodeStatus) : Bool × Roster :=
  (r.peers.contains status.node.id,
    { r with peers := r.peers.modify status.node.id fun p => { p with status := some status } })

/-- This node says something about itself. -/
def roll (r : Roster) (status : NodeStatus) : Roster :=
  { r with previous := r.current, current := some status }

/-! ### Addresses -/

/-- One of the addresses in a list, as a random number picks it. -/
def pick (addresses : List Address) (draw : Nat) : Option Address :=
  addresses[draw % addresses.length]?

/-- One of a peer's addresses, as a random number picks it. -/
def chooseListener (r : Roster) (node : NodeId) (draw : Nat) : Option Address :=
  (r.peer? node).bind fun p => pick p.identity.listeners draw

/-- The addresses that may be picked for a peer. -/
def listeners (r : Roster) (node : NodeId) : List Address :=
  match r.peer? node with
  | some p => p.identity.listeners
  | none => []

/-- The peers that are not connected. -/
def missing (r : Roster) : List NodeIdentity :=
  (r.peers.values.filter (! ·.connected)).map (·.identity)

/-- Pick an address for every one of some nodes that has one, each time with the next number. -/
def pickAll : List NodeIdentity → (draws : Nat → Nat) → List (NodeId × Address)
  | [], _ => []
  | n :: rest, draws =>
    match pick n.listeners (draws 0) with
    | some a => (n.id, a) :: pickAll rest fun i => draws (i + 1)
    | none => pickAll rest draws

/-- An address for every peer that is not connected, picked by random numbers. -/
def targets (r : Roster) (draws : Nat → Nat) : List (NodeId × Address) := pickAll r.missing draws

end Roster

end WorkerCluster
