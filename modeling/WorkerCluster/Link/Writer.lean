import WorkerCluster.Packet.Frame

/-!
# Writers

The writing end of a link takes packets without delay and writes them one after the other.

* `Writer.send` takes a packet as long as the end is open.
* `Writer.step` writes the next packet. One that cannot be framed closes the end.
-/

namespace WorkerCluster

/-- The writing end of a link. -/
structure Writer where
  /-- The packets that are to be written, in order. -/
  queue : List Packet := []
  /-- What has been written. -/
  written : ByteArray := .empty
  isOpen : Bool := true

namespace Writer

/-- Take a packet. The result is whether it is taken. -/
def send (w : Writer) (p : Packet) : Bool × Writer :=
  if w.isOpen then (true, { w with queue := w.queue ++ [p] }) else (false, w)

/-- Write the next packet. -/
def step (w : Writer) : Writer :=
  match w.queue with
  | [] => w
  | p :: rest =>
    match p.frame with
    | .ok bytes => { w with queue := rest, written := w.written ++ bytes }
    | .error _ => { w with queue := [], isOpen := false }

/-- Write all packets that have been taken. -/
def flush (w : Writer) : Writer := w.queue.foldl (fun w _ => w.step) w

/-- The packets that the other side gets, and whether it sees the end of the connection. -/
def received (w : Writer) : List Packet × Bool :=
  ((Packet.readFrames w.written).1, !w.isOpen)

end Writer

end WorkerCluster
