import WorkerCluster.Worker.Identity

/-!
# Joining

The first message on a connection, by which a node or a worker asks to be let in, and the answer.
-/

namespace WorkerCluster

open Json

/-- What the side that opens a connection says first. -/
inductive JoinRequest
  /-- A node asks to be linked as a peer. -/
  | node (node : NodeIdentity) (secret : String)
  /-- A worker connects back to its node. -/
  | worker (worker : WorkerId) (secret : String)
  deriving DecidableEq, Inhabited

namespace JoinRequest

/-- The secret that the cluster shares. -/
def secret : JoinRequest → String
  | .node _ s | .worker _ s => s

/-- The fields of a node's request. -/
def nodeFields : Fields [NodeIdentity, String] :=
  .cons (.required "node" NodeIdentity.codec) (.cons (.required "secret" .string) .nil)

/-- The fields of a worker's request. -/
def workerFields : Fields [WorkerId, String] :=
  .cons (.required "service_id" WorkerId.codec) (.cons (.required "secret" .string) .nil)

/-- The field `kind` says who asks. -/
def codec : Codec JoinRequest where
  encode
    | .node n s => Variant.write "kind" "node" (nodeFields.encode (n, s, ()))
    | .worker w s => Variant.write "kind" "service" (workerFields.encode (w, s, ()))
  decode := Variant.read "kind" [
    Variant.ofFields "node" nodeFields fun (n, s, _) => .node n s,
    Variant.ofFields "service" workerFields fun (w, s, _) => .worker w s]

instance : Json.Coded JoinRequest := ⟨JoinRequest.codec⟩

end JoinRequest

/-- What the listening side answers. -/
structure JoinVerdict where
  accepted : Bool
  /-- Who the listening side is. -/
  node : Option NodeIdentity
  deriving DecidableEq, Inhabited

/-- Verdicts are records. -/
def JoinVerdict.codec : Codec JoinVerdict :=
  Fields.record
    (.cons (.required "accepted" .bool) <|
     .cons (.optional "node" NodeIdentity.codec) <|
     .nil)
    (fun v => (v.accepted, v.node, ()))
    (fun (accepted, node, _) => { accepted, node })

instance : Json.Coded JoinVerdict := ⟨JoinVerdict.codec⟩

end WorkerCluster
