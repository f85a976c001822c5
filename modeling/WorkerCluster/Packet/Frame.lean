import WorkerCluster.Packet.Basic
import WorkerCluster.Packet.Error

/-!
# Frames

A packet on a stream: the size of what follows in four bytes, then the body. The body holds the size
of the channel's name in two bytes and the name, a byte that says whether an id of sixteen bytes
follows, and the size of the payload in four bytes and the payload. Numbers are big-endian.

* `Packet.frame` writes a packet as a frame.
* `Packet.unframe` takes a frame from the front of a buffer that may still grow, and
  `Packet.unframeAll` takes all that are there.
* `Packet.readFrame` takes a frame from a stream that ends where the bytes end, and
  `Packet.readFrames` takes all of them.
-/

namespace WorkerCluster

namespace Packet

/-- The largest size of a body: 16 MiB. -/
def maxBody : Nat := 16 * 1024 * 1024

/-- A number in two bytes. -/
def word16 (n : Nat) : ByteArray := ⟨#[(n >>> 8).toUInt8, n.toUInt8]⟩

/-- A number in four bytes. -/
def word32 (n : Nat) : ByteArray :=
  ⟨#[(n >>> 24).toUInt8, (n >>> 16).toUInt8, (n >>> 8).toUInt8, n.toUInt8]⟩

/-- The number that `count` bytes from `start` on hold; bytes that are not there count as zero. -/
def number (bytes : ByteArray) (start count : Nat) : Nat :=
  (List.range count).foldl (fun n i => 256 * n + (bytes.data.getD (start + i) 0).toNat) 0

/-- The flag and the id. -/
def idBytes : Option Uuid → ByteArray
  | none => ⟨#[0]⟩
  | some id => ⟨(1 :: id.bytes).toArray⟩

/-- The size of the body. -/
def bodySize (p : Packet) : Nat :=
  2 + p.channel.utf8ByteSize + (idBytes p.id).size + 4 + p.payload.size

/-- The body. -/
def body (p : Packet) : ByteArray :=
  word16 p.channel.utf8ByteSize ++ p.channel.toUTF8 ++ idBytes p.id ++
    word32 p.payload.size ++ p.payload

/-- Write a packet as a frame. -/
def frame (p : Packet) : Except TransportError ByteArray :=
  if UInt16.size ≤ p.channel.utf8ByteSize then .error (.malformed .channelTooLong)
  else if maxBody < p.bodySize then .error (.frameTooLarge p.bodySize)
  else .ok (word32 p.bodySize ++ p.body)

/-- Add the frame of a packet to a buffer; one that cannot be written leaves it as it is. -/
def append (p : Packet) (buffer : ByteArray) : Except TransportError ByteArray :=
  (buffer ++ ·) <$> p.frame

/-- Read the flag and the id: the id, and how many bytes both take. -/
def readId (bytes : ByteArray) (start : Nat) : Except Malformation (Option Uuid × Nat) :=
  match bytes.data[start]? with
  | none => .error .truncated
  | some 0 => .ok (none, 1)
  | some 1 =>
    if bytes.size < start + 17 then .error .truncated
    else .ok (some (Uuid.ofBytes (bytes.extract (start + 1) (start + 17)).toList), 17)
  | some flag => .error (.idFlag flag)

/-- Read a body. -/
def ofBody (bytes : ByteArray) : Except Malformation Packet :=
  if bytes.size < 2 then .error .truncated
  else
    let nameSize := number bytes 0 2
    if bytes.size < 2 + nameSize + 1 then .error .truncated
    else
      match String.fromUTF8? (bytes.extract 2 (2 + nameSize)) with
      | none => .error .channelNotText
      | some channel => do
        let (id, idSize) ← readId bytes (2 + nameSize)
        let start := 2 + nameSize + idSize
        if bytes.size < start + 4 then .error .truncated
        let payloadSize := number bytes start 4
        let payload := bytes.extract (start + 4) bytes.size
        if payload.size ≠ payloadSize then .error (.payloadSize payloadSize payload.size)
        return { channel, id, payload }

/-- Take a frame from the front of a buffer. The result is the packet, or nothing while the frame is
incomplete, and what is left in the buffer. A frame that breaks the rules is taken out of the
buffer; one that is too large is not. -/
def unframe (buffer : ByteArray) : Except TransportError (Option Packet) × ByteArray :=
  if buffer.size < 4 then (.ok none, buffer)
  else
    let size := number buffer 0 4
    if maxBody < size then (.error (.frameTooLarge size), buffer)
    else if buffer.size < 4 + size then (.ok none, buffer)
    else
      let rest := buffer.extract (4 + size) buffer.size
      match ofBody (buffer.extract 4 (4 + size)) with
      | .ok p => (.ok (some p), rest)
      | .error problem => (.error (.malformed problem), rest)

/-- Take a frame from the front of a stream that holds these bytes and no more. The result is the
packet, or nothing at the end of the stream, and what is left of the stream. -/
def readFrame (stream : ByteArray) : Except TransportError (Option Packet) × ByteArray :=
  if stream.size < 4 then (.ok none, .empty)
  else
    let size := number stream 0 4
    let rest := stream.extract 4 stream.size
    if maxBody < size then (.error (.frameTooLarge size), rest)
    else if rest.size < size then (.error (.stream .unexpectedEnd), .empty)
    else
      let after := rest.extract size rest.size
      match ofBody (rest.extract 0 size) with
      | .ok p => (.ok (some p), after)
      | .error problem => (.error (.malformed problem), after)

/-- Take frames from the front of a buffer until more bytes are needed, passing over those that
break the rules, and leave what cannot be taken in the buffer. -/
def unframeAll (buffer : ByteArray) : List (Except TransportError Packet) × ByteArray :=
  match unframe buffer with
  | (.ok none, rest) => ([], rest)
  | (.ok (some p), rest) =>
    if rest.size < buffer.size then
      let (found, left) := unframeAll rest
      (.ok p :: found, left)
    else ([.ok p], rest)
  | (.error e, rest) =>
    if rest.size < buffer.size then
      let (found, left) := unframeAll rest
      (.error e :: found, left)
    else ([.error e], rest)
termination_by buffer.size

/-- Read frames from a stream until it ends or fails: the packets, and what it fails with. -/
def readFrames (stream : ByteArray) : List Packet × Option TransportError :=
  match readFrame stream with
  | (.ok none, _) => ([], none)
  | (.ok (some p), rest) =>
    if rest.size < stream.size then
      let (packets, failure) := readFrames rest
      (p :: packets, failure)
    else ([p], none)
  | (.error e, _) => ([], some e)
termination_by stream.size

end Packet

end WorkerCluster
