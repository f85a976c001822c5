import WorkerCluster.Node.Identity

/-!
# Channels

Every packet travels on a channel, which says what its payload is.
-/

namespace WorkerCluster

open Json (Codec Field Fields)

namespace Channel

/-- Requests to join and verdicts. -/
def join : String := "fleet:auth"

/-- Messages between nodes. -/
def cluster : String := "fleet:cluster"

/-- Updates of workers. -/
def workers : String := "fleet:services"

/-- Requests between nodes and their answers. -/
def remote : String := "fleet:rpc"

/-- Announcements. -/
def announcements : String := "fleet:messages"

end Channel

/-- A free message to all peers and workers. -/
structure Announcement where
  sender : NodeId
  /-- What it is about. -/
  channel : String
  message : String
  data : Json
  deriving Inhabited

/-- Announcements are records; only the data may be missing. -/
def Announcement.codec : Codec Announcement :=
  Fields.record
    (.cons (.required "sender" .string) <|
     .cons (.required "channel" .string) <|
     .cons (.required "message" .string) <|
     .cons (.withDefault "data" .json .null) <|
     .nil)
    (fun a => (a.sender, a.channel, a.message, a.data, ()))
    (fun (sender, channel, message, data, _) => { sender, channel, message, data })

instance : Json.Coded Announcement := ⟨Announcement.codec⟩

end WorkerCluster
