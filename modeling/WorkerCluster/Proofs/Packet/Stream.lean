import WorkerCluster.Proofs.Packet.Frame

/-!
# Packets on a stream

A sender writes frames at the end of a growing buffer; a receiver gets the bytes in chunks, however
they are cut, and takes out what it can each time.

* `Packet.encode` writes the parts of a frame one after the other; `run_encode` says that it does
  what `Packet.append` does.
* `Packet.encodeAll` is the sender, `Packet.receive` the receiver.
* `Progress` says how far a receiver has come. `Progress.start`, `Progress.feed` and
  `Progress.finish` are the beginning, one chunk and the end, `Progress.receive` is the whole way.
* `receive_encodeAll` is the main statement: the receiver gets what the sender could write.
-/

namespace WorkerCluster

namespace Packet

/-! ### Senders -/

/-- Writers at the end of a buffer. What they have written stays when they fail. -/
abbrev Encoder := ExceptT TransportError (StateM ByteArray)

/-- Write bytes. -/
def put (bytes : ByteArray) : Encoder Unit := modify (· ++ bytes)

/-- Write the frame of a packet, part by part. -/
def encode (p : Packet) : Encoder Unit := do
  if UInt16.size ≤ p.channel.utf8ByteSize then throw (.malformed .channelTooLong)
  if maxBody < p.bodySize then throw (.frameTooLarge p.bodySize)
  put (word32 p.bodySize)
  put (word16 p.channel.utf8ByteSize)
  put p.channel.toUTF8
  put (idBytes p.id)
  put (word32 p.payload.size)
  put p.payload

/-- Write packets one after the other, passing over those that cannot be written. The result is
those that could, and the buffer. -/
def encodeAll : List Packet → ByteArray → List Packet × ByteArray
  | [], buffer => ([], buffer)
  | p :: packets, buffer =>
    match p.encode.run buffer with
    | (.ok (), buffer) =>
      let (written, buffer) := encodeAll packets buffer
      (p :: written, buffer)
    | (.error _, buffer) => encodeAll packets buffer

/-- All bytes of some chunks. -/
def joined : List ByteArray → ByteArray
  | [] => .empty
  | chunk :: chunks => chunk ++ joined chunks

/-! ### Receivers -/

/-- Append a chunk to a buffer and take out all frames that are there. -/
def feed (r : List (Except TransportError Packet) × ByteArray) (chunk : ByteArray) :
    List (Except TransportError Packet) × ByteArray :=
  let (found, left) := unframeAll (r.2 ++ chunk)
  (r.1 ++ found, left)

/-- Take chunks one by one. The result is all that was taken out of the buffer, and what is left. -/
def receive (chunks : List ByteArray) : List (Except TransportError Packet) × ByteArray :=
  chunks.foldl feed ([], .empty)

variable {p : Packet} {packets : List Packet} {buffer missing : ByteArray}

/-! ### What is written -/

/-- Writing part by part is writing the whole frame, or nothing. -/
theorem run_encode (p : Packet) (buffer : ByteArray) :
    p.encode.run buffer = match p.append buffer with
      | .ok written => (.ok (), written)
      | .error e => (.error e, buffer) := by
  unfold append frame
  by_cases long : UInt16.size ≤ p.channel.utf8ByteSize
  · rw [if_pos long, encode, if_pos long]
    rfl
  · rw [if_neg long, encode, if_neg long]
    by_cases large : maxBody < p.bodySize
    · rw [if_pos large, if_pos large]
      rfl
    · rw [if_neg large, if_neg large]
      show (Except.ok (), buffer ++ word32 p.bodySize ++ word16 p.channel.utf8ByteSize ++
        p.channel.toUTF8 ++ idBytes p.id ++ word32 p.payload.size ++ p.payload) =
          (Except.ok (), buffer ++ (word32 p.bodySize ++ p.body))
      simp only [body, ByteArray.append_assoc]

theorem run_encode_of_fits (h : p.Fits) (buffer : ByteArray) :
    p.encode.run buffer = (.ok (), buffer ++ p.framed) := by
  rw [run_encode, append, frame_of_fits h]
  rfl

theorem run_encode_of_not_fits (h : ¬ p.Fits) (buffer : ByteArray) :
    ∃ e, p.encode.run buffer = (.error e, buffer) := by
  obtain ⟨e, refused⟩ := frame_of_not_fits h
  exact ⟨e, by rw [run_encode, append, refused]; rfl⟩

/-- The frames of packets. -/
def stream (packets : List Packet) : ByteArray := joined (packets.map framed)

theorem encodeAll_eq (packets : List Packet) (buffer : ByteArray) :
    encodeAll packets buffer =
      (packets.filter (·.Fits), buffer ++ stream (packets.filter (·.Fits))) := by
  induction packets generalizing buffer with
  | nil => rw [encodeAll, List.filter_nil, stream, List.map_nil, joined, ByteArray.append_empty]
  | cons p packets ih =>
    by_cases h : p.Fits
    · rw [encodeAll, run_encode_of_fits h, List.filter_cons_of_pos (by simpa using h)]
      dsimp only
      rw [ih, stream, stream, List.map_cons, joined, ByteArray.append_assoc]
    · obtain ⟨e, refused⟩ := run_encode_of_not_fits h buffer
      rw [encodeAll, refused, List.filter_cons_of_neg (by simpa using h)]
      exact ih buffer

/-! ### What is taken out -/

theorem unframeAll_of_none {rest : ByteArray} (h : unframe buffer = (.ok none, rest)) :
    unframeAll buffer = ([], rest) := by
  rw [unframeAll, h]

theorem unframeAll_framed (h : p.Fits) (rest : ByteArray) :
    unframeAll (p.framed ++ rest) = (.ok p :: (unframeAll rest).1, (unframeAll rest).2) := by
  have shorter : rest.size < (p.framed ++ rest).size := by
    rw [ByteArray.size_append, size_framed]
    omega
  rw [unframeAll, unframe_framed h]
  exact if_pos shorter

/-- What two byte strings begin with that are equal. -/
theorem exists_append {a b c d : ByteArray} (h : a ++ b = c ++ d) (le : c.size ≤ a.size) :
    ∃ m, a = c ++ m ∧ m ++ b = d := by
  have parts : a.extract 0 c.size ++ a.extract c.size a.size = a := by
    rw [ByteArray.extract_append_extract, Nat.zero_min, Nat.max_eq_right le,
      ByteArray.extract_zero_size]
  have size : (a.extract 0 c.size).size = c.size := by
    rw [ByteArray.size_extract, Nat.min_eq_left le, Nat.sub_zero]
  rw [← parts, ByteArray.append_assoc,
    ByteArray.append_eq_append_iff_of_size_eq_left size] at h
  exact ⟨a.extract c.size a.size, parts.symm.trans (congrArg (· ++ _) h.1), h.2⟩

/-- How far a receiver has come that has taken some packets from a stream of which some bytes are
missing: what is left in its buffer begins the frames of the other packets, and no frame is
complete. -/
def Progress (packets found : List Packet) (left missing : ByteArray) : Prop :=
  unframe left = (.ok none, left) ∧
    ∃ rest, packets = found ++ rest ∧ left ++ missing = stream rest

theorem Progress.start (packets : List Packet) : Progress packets [] .empty (stream packets) :=
  ⟨rfl, packets, rfl, ByteArray.empty_append⟩

/-- From a buffer with which a stream begins all is taken out that can be. -/
theorem progress_unframeAll (fits : ∀ p ∈ packets, p.Fits)
    (split : buffer ++ missing = stream packets) :
    ∃ found left, unframeAll buffer = (found.map .ok, left) ∧
      Progress packets found left missing := by
  -- one packet after the other, as long as the buffer reaches to the end of its frame
  induction packets generalizing buffer with
  | nil =>
    obtain ⟨rfl, -⟩ := ByteArray.append_eq_empty_iff.1 split
    exact ⟨[], .empty, unframeAll_of_none rfl, rfl, [], rfl, split⟩
  | cons p packets ih =>
    have fit := fits p (List.mem_cons_self ..)
    have first : buffer ++ missing = p.framed ++ stream packets := split
    rcases Nat.lt_or_ge buffer.size p.framed.size with short | enough
    · have none := unframe_prefix fit first short
      exact ⟨[], buffer, unframeAll_of_none none, none, p :: packets, rfl, split⟩
    · obtain ⟨rest, rfl, after⟩ := exists_append first enough
      obtain ⟨found, left, taken, waiting, others, rfl, follows⟩ :=
        ih (fun q hq => fits q (List.mem_cons_of_mem _ hq)) after
      refine ⟨p :: found, left, ?_, waiting, others, rfl, follows⟩
      rw [unframeAll_framed fit, taken, List.map_cons]

/-- **A chunk brings a receiver forward.** -/
theorem Progress.feed (fits : ∀ p ∈ packets, p.Fits) {found : List Packet}
    {left chunk : ByteArray} (h : Progress packets found left (chunk ++ missing)) :
    ∃ found' left', feed (found.map .ok, left) chunk = (found'.map .ok, left') ∧
      Progress packets found' left' missing := by
  obtain ⟨_, rest, rfl, follows⟩ := h
  -- the chunk comes from what was missing to the buffer
  rw [← ByteArray.append_assoc] at follows
  obtain ⟨more, left', taken, waiting, others, rfl, after⟩ :=
    progress_unframeAll (fun p hp => fits p (List.mem_append_right _ hp)) follows
  refine ⟨found ++ more, left', ?_, waiting, others, (List.append_assoc ..).symm, after⟩
  rw [Packet.feed, taken, List.map_append]

/-- A receiver to which nothing is missing has all packets, and its buffer is empty. -/
theorem Progress.finish (fits : ∀ p ∈ packets, p.Fits) {found : List Packet} {left : ByteArray}
    (h : Progress packets found left .empty) : found = packets ∧ left = .empty := by
  obtain ⟨waiting, rest, rfl, follows⟩ := h
  rw [ByteArray.append_empty] at follows
  subst follows
  cases rest with
  | nil => exact ⟨(List.append_nil _).symm, rfl⟩
  | cons p rest =>
    -- the first frame would be taken
    have taken := unframe_framed (fits p (List.mem_append_right _ (List.mem_cons_self ..)))
      (stream rest)
    rw [show stream (p :: rest) = p.framed ++ stream rest from rfl, taken] at waiting
    cases waiting

/-- A receiver that gets all missing bytes gets all packets. -/
theorem Progress.receive (fits : ∀ p ∈ packets, p.Fits) {chunks : List ByteArray}
    {found : List Packet} {left : ByteArray} (h : Progress packets found left (joined chunks)) :
    chunks.foldl Packet.feed (found.map .ok, left) = (packets.map .ok, .empty) := by
  induction chunks generalizing found left with
  | nil =>
    obtain ⟨rfl, rfl⟩ := h.finish fits
    rfl
  | cons chunk chunks ih =>
    obtain ⟨found', left', fed, next⟩ := h.feed fits
    rw [List.foldl_cons, fed]
    exact ih next

/-- **A receiver gets what a sender could write, however the bytes are cut**: each packet once, in
order and unchanged, and nothing else. Those that are short enough can be written; one that cannot
leaves the sender's buffer as it was. -/
theorem receive_encodeAll (packets : List Packet) (chunks : List ByteArray)
    (cut : joined chunks = (encodeAll packets .empty).2) :
    (∀ (p : Packet) (buffer : ByteArray), (p.encode.run buffer).1 ≠ .ok () →
      (p.encode.run buffer).2 = buffer) ∧
    (encodeAll packets .empty).1 = packets.filter (·.Fits) ∧
    receive chunks = ((encodeAll packets .empty).1.map .ok, .empty) := by
  refine ⟨?_, ?_, ?_⟩
  · intro p buffer refused
    by_cases h : p.Fits
    · rw [run_encode_of_fits h] at refused
      exact absurd rfl refused
    · obtain ⟨e, run⟩ := run_encode_of_not_fits h buffer
      rw [run]
  · rw [encodeAll_eq]
  · have fits : ∀ p ∈ packets.filter (·.Fits), p.Fits := fun p hp => by
      simpa using (List.mem_filter.1 hp).2
    have bytes : joined chunks = stream (packets.filter (·.Fits)) := by
      rw [cut, encodeAll_eq, ByteArray.empty_append]
    have start := Progress.start (packets.filter (·.Fits))
    rw [← bytes] at start
    rw [encodeAll_eq]
    exact start.receive fits

/-- A short packet, and one with an id. -/
def greetings : List Packet := [
  { channel := "hi", payload := ⟨#[7]⟩ },
  { channel := "id", id := some (.ofNat 5), payload := .empty }]

/-- Their frames, cut in the first size and in the id. -/
def cutGreetings : List ByteArray := [
  ⟨#[0, 0]⟩,
  ⟨#[0, 10, 0, 2, 104, 105, 0, 0, 0, 0, 1, 7, 0, 0, 0, 25, 0, 2, 105, 100, 1, 0]⟩,
  ⟨#[0, 0, 0, 0, 0, 0, 0, 0, 0, 0, 0, 0, 0, 0, 5, 0, 0, 0, 0]⟩]

/-- Both packets are written, and both arrive. -/
theorem receive_greetings :
    joined cutGreetings = (encodeAll greetings .empty).2 ∧ greetings.filter (·.Fits) = greetings ∧
      (∀ (p : Packet) (buffer : ByteArray), (p.encode.run buffer).1 ≠ .ok () →
        (p.encode.run buffer).2 = buffer) ∧
      (encodeAll greetings .empty).1 = greetings.filter (·.Fits) ∧
      receive cutGreetings = ((encodeAll greetings .empty).1.map .ok, .empty) :=
  ⟨by decide +kernel, by decide +kernel, receive_encodeAll _ _ (by decide +kernel)⟩

end Packet

end WorkerCluster
