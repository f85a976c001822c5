import WorkerCluster.Config
import WorkerCluster.Link.Requests
import WorkerCluster.Link.Table

/-!
# Switchboards

A switchboard joins the links of a node, its requests, and those who handle the packets on a
channel.

* `Switchboard.reached` says who gets a packet that is sent.
* `Switchboard.receive` gives a packet that arrives to the request that it answers, or else to all
  who handle its channel.
* `Switchboard.shutdown` closes all links.
-/

namespace WorkerCluster

/-- The links, requests and handlers of a node. -/
structure Switchboard (η : Type) where
  /-- Who the node is. -/
  identity : NodeIdentity
  /-- What nodes and workers have to say to be let in. -/
  secret : String
  /-- The nodes that are let in. -/
  allowed : List NodeId
  table : LinkTable
  requests : Requests := {}
  /-- Those who handle packets, with their channels, in the order in which they came. -/
  handlers : List (String × η) := []

namespace Switchboard

variable {η : Type}

/-- A switchboard without links. -/
def new (identity : NodeIdentity) (secret : String) (allowed : List NodeId) : Switchboard η where
  identity
  secret
  allowed
  table := { home := identity.id }

/-- The switchboard that a configuration asks for. The peers are let in. -/
def ofConfig (c : Config) : Switchboard η :=
  new c.identity c.cluster.secret (c.cluster.nodes.map (·.id))

/-! ### Views -/

/-- The peers to which there are links, by id. -/
def peers (b : Switchboard η) : List NodeId := b.table.peers.keys

/-- The workers to which there are links. -/
def workers (b : Switchboard η) : List WorkerId := b.table.workers.values.map (·.1)

/-- Whether there is a link. -/
def isLinked (b : Switchboard η) : Origin → Bool
  | .peer node => b.table.isLinked node
  | .worker id => b.table.workers.contains id

/-- Who gets a packet that is sent: nobody to whom there is no link. -/
def reached (b : Switchboard η) : Target → List Origin
  | .node id => [Origin.peer id].filter b.isLinked
  | .all => b.peers.map .peer ++ b.table.workers.keys.map .worker
  | .peers => b.peers.map .peer

/-- Those who handle a channel. -/
def handlersOf (b : Switchboard η) (channel : String) : List η :=
  (b.handlers.filter (·.1 = channel)).map (·.2)

/-! ### Changes -/

/-- Add someone who handles a channel. -/
def register (b : Switchboard η) (channel : String) (h : η) : Switchboard η :=
  { b with handlers := b.handlers ++ [(channel, h)] }

/-- Change the links. -/
def move (b : Switchboard η) (m : LinkTable.Move) : LinkEffect × Switchboard η :=
  let (effect, table) := b.table.perform m
  (effect, { b with table })

/-- Send a request to a peer. -/
def ask (b : Switchboard η) (node : NodeId) (id : Uuid) : Switchboard η :=
  { b with requests := b.requests.ask id node (b.table.isLinked node) }

/-- A packet arrives: those who get it, unless it answers a request. -/
def receive (b : Switchboard η) (p : Packet) : List η × Switchboard η :=
  let (isAnswer, requests) := b.requests.arrive p
  (if isAnswer then [] else b.handlersOf p.channel, { b with requests })

/-- The time of a request is over. -/
def expire (b : Switchboard η) (id : Uuid) : Switchboard η :=
  { b with requests := b.requests.expire id }

/-- Close all links and give up all requests. -/
def shutdown (b : Switchboard η) : LinkEffect × Switchboard η :=
  let (effect, b) := b.move .closeAll
  (effect, { b with requests := b.requests.abandon })

end Switchboard

end WorkerCluster
