import WorkerCluster.Message.Channel
import WorkerCluster.Uuid

/-!
# Packets

What travels on a connection: some bytes on a named channel, with an id if an answer is expected or
if it is an answer.

* `Packet.json` and `Packet.reply` write a message as JSON, `Packet.decode` reads it.
* `Parcel` is a packet with those to whom it goes.
-/

namespace WorkerCluster

/-- A message on a channel. -/
structure Packet where
  channel : String
  /-- Pairs a request with its answer. -/
  id : Option Uuid := none
  payload : ByteArray
  deriving Inhabited

namespace Packet

instance : DecidableEq Packet := fun p q =>
  decidable_of_iff (p.channel = q.channel ∧ p.id = q.id ∧ p.payload.data = q.payload.data)
    ⟨fun ⟨h₁, h₂, h₃⟩ => by
      cases p; cases q; cases h₁; cases h₂; cases ByteArray.ext h₃; rfl,
      fun h => h ▸ ⟨rfl, rfl, rfl⟩⟩

open Json (Codec Fault)

variable {α : Type}

/-- A packet that holds a message as JSON. -/
def json (channel : String) (c : Codec α) (a : α) : Packet :=
  { channel, payload := (c.encode a).text.toUTF8 }

/-- A packet with an id. -/
def withId (p : Packet) (id : Uuid) : Packet := { p with id := some id }

/-- An answer, on the same channel and with the same id. -/
def reply (p : Packet) (c : Codec α) (a : α) : Packet := { json p.channel c a with id := p.id }

/-- Read the message of a packet. -/
def decode (p : Packet) (c : Codec α) : Except Fault α := c.read p.payload.toList

end Packet

/-- To whom a packet goes. -/
inductive Target
  /-- One peer. -/
  | node (id : NodeId)
  /-- All peers and workers. -/
  | all
  /-- All peers. -/
  | peers
  deriving DecidableEq, Inhabited

/-- A packet and to whom it goes. -/
structure Parcel where
  target : Target
  packet : Packet
  deriving DecidableEq, Inhabited

/-- The messages on a channel that can be read, in order. -/
def Parcel.decoded {α : Type} (parcels : List Parcel) (channel : String) (c : Json.Codec α) :
    List α :=
  parcels.filterMap fun p =>
    if p.packet.channel = channel then (p.packet.decode c).toOption else none

end WorkerCluster
