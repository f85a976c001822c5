import WorkerCluster.Link.Event
import WorkerCluster.SortedMap

/-!
# Tables of links

The links that a node keeps: one at most to every peer, and one at most to every worker.

* `LinkTable.attachPeer` and `LinkTable.attachWorker` register a link once the other side has been
  let in.
* `LinkTable.finish` follows the end of a connection. One that has been replaced is no longer
  registered, so that its end changes nothing.
* `LinkTable.Move` is any of the changes, `LinkTable.perform` makes it.

When two nodes open connections to each other at the same time, both keep the one that the node with
the smaller id has opened.
-/

namespace WorkerCluster

/-- A registered link. -/
structure Link where
  /-- The number of its connection, which no other connection of the node has. -/
  connection : Nat
  /-- Whether this node has opened it. -/
  dialed : Bool
  deriving DecidableEq, Inhabited

/-- The links that a node keeps. -/
structure LinkTable where
  /-- The node. -/
  home : NodeId
  peers : SortedMap NodeId Link := .empty
  /-- The workers that are connected, and their links. -/
  workers : SortedMap Uuid (WorkerId × Link) := .empty
  /-- The number of the next connection. -/
  next : Nat := 1
  deriving DecidableEq, Inhabited

/-- What a change of the links leads to. -/
structure LinkEffect where
  /-- The connections that the node closes. -/
  closes : List Nat := []
  /-- What is told to those who follow the links. -/
  event : Option LinkEvent := none
  deriving DecidableEq, Inhabited

namespace LinkTable

/-- Whether there is a link to a peer. -/
def isLinked (t : LinkTable) (node : NodeId) : Bool := t.peers.contains node

/-- Whether a link in some direction is the one that is kept of two. -/
def prefers (t : LinkTable) (node : NodeId) (dialed : Bool) : Bool :=
  dialed == decide (t.home < node)

/-- Register a link to a peer. If there is one already, it is replaced unless it is the one to
keep. -/
def attachPeer (t : LinkTable) (node : NodeId) (dialed : Bool) : LinkEffect × LinkTable :=
  let link : Link := ⟨t.next, dialed⟩
  let t := { t with next := t.next + 1 }
  match t.peers.find? node with
  | none => ({ event := some (.peerConnected node) }, { t with peers := t.peers.insert node link })
  | some old =>
    if t.prefers node old.dialed && !t.prefers node dialed then ({ closes := [link.connection] }, t)
    else ({ closes := [old.connection] }, { t with peers := t.peers.insert node link })

/-- Register a link to a worker in place of any other. -/
def attachWorker (t : LinkTable) (worker : WorkerId) : LinkEffect × LinkTable :=
  let link : Link := ⟨t.next, false⟩
  let workers := t.workers.insert worker.uuid (worker, link)
  (match t.workers.find? worker.uuid with
    | none => { event := some (.workerConnected worker) }
    | some (_, old) => { closes := [old.connection] },
   { t with next := t.next + 1, workers })

/-- A connection has come to its end. Its link is forgotten if it is still registered. -/
def finish (t : LinkTable) (connection : Nat) : Origin → LinkEffect × LinkTable
  | .peer node =>
    if (t.peers.find? node).any (·.connection = connection) then
      ({ event := some (.peerDisconnected node) }, { t with peers := t.peers.erase node })
    else ({}, t)
  | .worker id =>
    match t.workers.find? id with
    | some (worker, link) =>
      if link.connection = connection then
        ({ event := some (.workerDisconnected worker) }, { t with workers := t.workers.erase id })
      else ({}, t)
    | none => ({}, t)

/-- Give up the link to a peer. -/
def disconnect (t : LinkTable) (node : NodeId) : LinkEffect × LinkTable :=
  match t.peers.find? node with
  | some link =>
    ({ closes := [link.connection], event := some (.peerDisconnected node) },
      { t with peers := t.peers.erase node })
  | none => ({}, t)

/-- Close all links, and tell nobody. -/
def closeAll (t : LinkTable) : LinkEffect × LinkTable :=
  ({ closes := t.peers.values.map (·.connection) ++ t.workers.values.map (·.2.connection) },
    { t with peers := .empty, workers := .empty })

/-- A change of the links. -/
inductive Move
  | attachPeer (node : NodeId) (dialed : Bool)
  | attachWorker (worker : WorkerId)
  | finish (connection : Nat) (origin : Origin)
  | disconnect (node : NodeId)
  | closeAll
  deriving DecidableEq, Inhabited

/-- Make a change. -/
def perform (t : LinkTable) : Move → LinkEffect × LinkTable
  | .attachPeer node dialed => t.attachPeer node dialed
  | .attachWorker worker => t.attachWorker worker
  | .finish connection origin => t.finish connection origin
  | .disconnect node => t.disconnect node
  | .closeAll => t.closeAll

/-- Make changes one after the other: what happens is told in order. -/
def run (t : LinkTable) : List Move → List LinkEvent × LinkTable
  | [] => ([], t)
  | m :: rest =>
    let (effect, t) := t.perform m
    let (events, t) := t.run rest
    (effect.event.toList ++ events, t)

end LinkTable

end WorkerCluster
