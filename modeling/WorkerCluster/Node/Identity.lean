import WorkerCluster.Address

/-!
# Identities of nodes

A node has an id and the addresses on which it can be reached.
-/

namespace WorkerCluster

/-- The id of a node. -/
abbrev NodeId := String

/-- Who a node is and where it listens. -/
structure NodeIdentity where
  id : NodeId
  /-- The addresses on which it takes connections. -/
  listeners : List Address
  deriving DecidableEq, Inhabited

namespace NodeIdentity

open Json (Codec Field Fields)

/-- Identities are records of an id and listeners. -/
def codec : Codec NodeIdentity :=
  Fields.record
    (.cons (.required "id" .string) <|
     .cons (.required "listeners" (.list Address.codec)) <|
     .nil)
    (fun n => (n.id, n.listeners, ()))
    (fun (id, listeners, _) => { id, listeners })

instance : Json.Coded NodeIdentity := ⟨NodeIdentity.codec⟩

end NodeIdentity

end WorkerCluster
