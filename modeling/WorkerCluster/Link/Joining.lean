import WorkerCluster.Link.Switchboard
import WorkerCluster.Message.Join
import WorkerCluster.Packet.Frame

/-!
# Joining

How two sides come to a link. The one that has opened the connection says who it is, the other one
answers whether it is let in.

* `Switchboard.verify` decides who is let in.
* `Switchboard.welcome` is what the listening side answers to the first bytes on a connection, and
  `Switchboard.accept` is all that it does with them.
* `Switchboard.enter` is what a node that has opened the connection does with the answer.
-/

namespace WorkerCluster

/-- Read the first packet on a connection, which has to be on the channel for joining. -/
def firstPacket (bytes : ByteArray) : Except TransportError Packet :=
  match (Packet.readFrame bytes).1 with
  | .error e => .error e
  | .ok none => .error (.join "connection closed during auth")
  | .ok (some p) =>
    if p.channel = Channel.join then .ok p
    else .error (.join ("expected auth packet, got channel '" ++ p.channel ++ "'"))

/-- Read a message, or say how its payload fails to be one. -/
def Packet.message {α : Type} (p : Packet) (c : Json.Codec α) : Except TransportError α :=
  match p.decode c with
  | .ok a => .ok a
  | .error e => .error (.payload e)

/-- The verdict that a packet brings: who has let the other side in. -/
def JoinVerdict.host? (p : Packet) (silent : String) : Except TransportError NodeIdentity := do
  let verdict ← p.message JoinVerdict.codec
  if verdict.accepted then
    match verdict.node with
    | some node => .ok node
    | none => .error (.join silent)
  else .error (.join "rejected by remote node")

/-- What a worker that has opened a connection makes of the answer. -/
def JoinVerdict.forWorker (bytes : ByteArray) : Except TransportError NodeIdentity := do
  JoinVerdict.host? (← firstPacket bytes) "node did not identify itself"

namespace Switchboard

variable {η : Type}

/-! ### The listening side -/

/-- Whether the other side is let in. It has to know the secret; a node has to be one that is
allowed, and not this one. -/
def verify (b : Switchboard η) (q : JoinRequest) : Except TransportError Unit :=
  if q.secret != b.secret then .error (.join "cluster secret mismatch")
  else
    match q with
    | .node node _ =>
      if node.id = b.identity.id then
        .error (.join ("node '" ++ node.id ++ "' has the local node id"))
      else if !b.allowed.contains node.id then
        .error (.join ("node '" ++ node.id ++ "' is not a configured peer"))
      else .ok ()
    | .worker .. => .ok ()

/-- The link of one that is let in. -/
def joined : JoinRequest → LinkTable.Move
  | .node node _ => .attachPeer node.id false
  | .worker worker _ => .attachWorker worker

/-- What the listening side makes of the first bytes on a connection: what it answers, if the first
packet is a request, and then the link or why there is none. -/
def welcome (b : Switchboard η) (bytes : ByteArray) :
    Option Packet × Except TransportError LinkTable.Move :=
  match firstPacket bytes with
  | .error e => (none, .error e)
  | .ok first =>
    match first.message JoinRequest.codec with
    | .error e => (none, .error e)
    | .ok q =>
      match b.verify q with
      | .ok () =>
        (some (first.reply JoinVerdict.codec ⟨true, some b.identity⟩), .ok (joined q))
      | .error e => (some (first.reply JoinVerdict.codec ⟨false, none⟩), .error e)

/-- What comes of a connection that the listening side takes. -/
structure Reception (η : Type) where
  /-- What is written on the connection. -/
  written : ByteArray := .empty
  effect : LinkEffect := {}
  board : Switchboard η
  /-- Why the connection comes to nothing, if it does. -/
  outcome : Except TransportError Unit

/-- Answer the first bytes on a connection, and then register the link of one that is let in. If the
answer cannot be written, there is none. -/
def accept (b : Switchboard η) (bytes : ByteArray) : Reception η :=
  let (reply, verdict) := b.welcome bytes
  match reply.elim (.ok .empty) Packet.frame with
  | .error e => { board := b, outcome := .error e }
  | .ok written =>
    match verdict with
    | .error e => { written, board := b, outcome := .error e }
    | .ok m =>
      let (effect, board) := b.move m
      { written, effect, board, outcome := .ok () }

/-! ### The side that opens -/

/-- What a node that has opened a connection says first. -/
def hello (b : Switchboard η) (id : Uuid) : Packet :=
  (Packet.json Channel.join JoinRequest.codec (.node b.identity b.secret)).withId id

/-- What it makes of the answer: the link, if the other side is allowed. -/
def enter (b : Switchboard η) (bytes : ByteArray) : Except TransportError LinkTable.Move := do
  let node ← JoinVerdict.host? (← firstPacket bytes) "remote did not identify itself"
  if b.allowed.contains node.id then .ok (.attachPeer node.id true)
  else .error (.join ("'" ++ node.id ++ "' is not a configured peer"))

end Switchboard

end WorkerCluster
