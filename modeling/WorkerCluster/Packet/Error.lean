import WorkerCluster.Json.Source

/-!
# What goes wrong on connections

`TransportError` holds the causes; `TransportError.message` words those that are this library's own.
-/

namespace WorkerCluster

/-- What is wrong with a frame. -/
inductive Malformation
  /-- It ends too early. -/
  | truncated
  /-- The name of the channel is no text. -/
  | channelNotText
  /-- The name of the channel does not fit. -/
  | channelTooLong
  /-- The byte that says whether there is an id says neither. -/
  | idFlag (flag : UInt8)
  /-- The stated size of the payload is not the size of what is left. -/
  | payloadSize (stated left : Nat)
  deriving DecidableEq, Inhabited

/-- The wording. -/
def Malformation.message : Malformation → String
  | .truncated => "truncated frame"
  | .channelNotText => "channel is not utf-8"
  | .channelTooLong => "channel name too long"
  | .idFlag flag => "invalid id flag " ++ toString flag.toNat
  | .payloadSize stated left =>
    "payload length " ++ toString stated ++ " does not match remaining " ++ toString left ++
      " bytes"

/-- How a stream fails. -/
inductive StreamProblem
  /-- It ends too early. -/
  | unexpectedEnd
  /-- There is no way to the other side. -/
  | unreachable
  deriving DecidableEq, Inhabited

/-- What goes wrong on a connection. -/
inductive TransportError
  /-- The stream below fails. -/
  | stream (problem : StreamProblem)
  /-- A frame is larger than frames may be. -/
  | frameTooLarge (size : Nat)
  /-- A frame breaks the rules. -/
  | malformed (problem : Malformation)
  /-- A payload is not the message it should be. -/
  | payload (fault : Json.Fault)
  /-- The other side could not be joined. -/
  | join (reason : String)
  /-- There is no link to the node. -/
  | notConnected (node : String)
  /-- No answer came in time. -/
  | timeout
  /-- The link was closed before an answer came. -/
  | closed
  deriving DecidableEq, Inhabited

/-- The wording. -/
def TransportError.message : TransportError → String
  | .stream .unexpectedEnd => "i/o error: unexpected end of stream"
  | .stream .unreachable => "i/o error: network unreachable"
  | .frameTooLarge size => "frame of " ++ toString size ++ " bytes exceeds the maximum frame size"
  | .malformed problem => "malformed frame: " ++ problem.message
  | .payload _ => "payload codec error"
  | .join reason => "handshake failed: " ++ reason
  | .notConnected node => "not connected to " ++ node
  | .timeout => "timed out waiting for a response"
  | .closed => "connection closed before a response arrived"

end WorkerCluster
