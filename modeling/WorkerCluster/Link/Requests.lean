import WorkerCluster.Packet.Basic
import WorkerCluster.Packet.Error

/-!
# Requests that wait

A request goes out in a packet with an id, and the first packet that comes back with that id answers
it.

* `Requests.ask` sends one, if there is a link.
* `Requests.arrive`, `Requests.expire` and `Requests.abandon` settle requests.
-/

namespace WorkerCluster

/-- The requests of a node. -/
structure Requests where
  /-- The ids of those that wait, in the order in which they were sent. -/
  waiting : List Uuid := []
  /-- What has become of the others, in order. -/
  settled : List (Uuid × Except TransportError Packet) := []

namespace Requests

/-- Settle a request, if it waits. -/
def settle (r : Requests) (id : Uuid) (outcome : Except TransportError Packet) : Requests :=
  if r.waiting.contains id then
    { waiting := r.waiting.filter (· != id), settled := r.settled ++ [(id, outcome)] }
  else r

/-- Send a request to a node. Without a link it fails at once. A request that waits under the same
id is given up. -/
def ask (r : Requests) (id : Uuid) (node : NodeId) (linked : Bool) : Requests :=
  let r := r.settle id (.error .closed)
  let r := { r with waiting := r.waiting ++ [id] }
  if linked then r else r.settle id (.error (.notConnected node))

/-- A packet has arrived. The result is whether it answers a request. -/
def arrive (r : Requests) (p : Packet) : Bool × Requests :=
  match p.id with
  | some id => (r.waiting.contains id, r.settle id (.ok p))
  | none => (false, r)

/-- The time of a request is over. -/
def expire (r : Requests) (id : Uuid) : Requests := r.settle id (.error .timeout)

/-- Give up all requests. -/
def abandon (r : Requests) : Requests where
  waiting := []
  settled := r.settled ++ r.waiting.map fun id => (id, .error .closed)

end Requests

end WorkerCluster
