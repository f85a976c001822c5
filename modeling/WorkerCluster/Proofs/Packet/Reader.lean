import WorkerCluster.Proofs.Packet.Cursor
import WorkerCluster.Proofs.Packet.Stream

/-!
# Two readers of frames

Frames are taken from a buffer that may still grow, or read from a stream that brings its bytes in
chunks and then ends.

* `Chunks.readFrame` reads a frame from such a stream, first its size and then its body;
  `Chunks.readFrame_joined` says that it does what `Packet.readFrame` does, however the bytes are
  cut.
* `Reader` is anything that reads packets one after the other, `Reader.all` reads until something
  else comes.
* `readFrame_eq_unframe` compares one call of both readers, `readers_agree` all of them.
* `breaks_off` says what is read from a stream that breaks off. `halfGreeting` breaks off within a
  body, which is noticed, `barelyBegun` within a size, which is not.
-/

namespace WorkerCluster

namespace Packet

variable {p : Packet} {bytes part rest : ByteArray} {chunks : List ByteArray} {count : ℕ}

/-! ### Byte strings in two parts -/

theorem split?_eq_none : split? count bytes = none ↔ bytes.size < count := by
  rw [split?]
  split
  · next short => exact iff_of_true rfl short
  · next enough => exact iff_of_false (Option.some_ne_none _) enough

theorem split?_eq_some : split? count bytes = some (part, rest) ↔
    bytes = part ++ rest ∧ part.size = count := by
  constructor
  · intro split
    have taken : (Cursor.take count).run bytes = some (.ok part, rest) := by
      rw [Cursor.run_take, split]
      rfl
    exact Cursor.of_take_ok taken
  · rintro ⟨rfl, rfl⟩
    have enough : ¬ (part ++ rest).size < part.size := by
      rw [ByteArray.size_append]
      omega
    rw [split?, if_neg enough, left, ByteArray.extract_append_eq_left rfl,
      ByteArray.extract_append_eq_right rfl ByteArray.size_append]

/-! ### One frame -/

/-- A frame is read from a stream in two parts. -/
theorem readFrame_eq_split (stream : ByteArray) :
    readFrame stream = match split? 4 stream with
      | none => (.ok none, .empty)
      | some (head, rest) =>
        if maxBody < number head 0 4 then (.error (.frameTooLarge (number head 0 4)), rest)
        else
          match split? (number head 0 4) rest with
          | none => (.error (.stream .unexpectedEnd), .empty)
          | some (body, after) =>
            match ofBody body with
            | .ok p => (.ok (some p), after)
            | .error problem => (.error (.malformed problem), after) := by
  rw [readFrame]
  split
  · next short => rw [split?_eq_none.2 short]
  · next enough =>
    have head : split? 4 stream = some (stream.extract 0 4, left stream 4) := if_neg enough
    rw [head]
    dsimp only
    rw [Cursor.number_extract_front (Nat.not_lt.1 enough)]
    split
    · rfl
    · split
      · next short =>
        have body : split? (number stream 0 4) (left stream 4) = none := split?_eq_none.2 short
        rw [body]
      · next enough =>
        have body : split? (number stream 0 4) (left stream 4) =
            some ((left stream 4).extract 0 (number stream 0 4),
              left (left stream 4) (number stream 0 4)) := if_neg enough
        rw [body]
        rfl

/-- **A reader of a stream goes on where a reader of a buffer does**, and comes to the same errors.
Where the other one waits for more bytes, it has come to the end of the stream, or the stream has
broken off. -/
theorem readFrame_eq_unframe (stream : ByteArray) :
    readFrame stream = match unframe stream with
      | (.ok (some p), rest) => (.ok (some p), rest)
      | (.ok none, buffer) =>
        (if buffer.size < 4 then .ok none else .error (.stream .unexpectedEnd), .empty)
      | (.error (.frameTooLarge size), buffer) => (.error (.frameTooLarge size), left buffer 4)
      | (.error e, rest) => (.error e, rest) := by
  rw [readFrame_eq_split, unframe]
  by_cases sized : 4 ≤ stream.size
  · have head : split? 4 stream = some (stream.extract 0 4, left stream 4) :=
      if_neg (Nat.not_lt.2 sized)
    rw [head, if_neg (Nat.not_lt.2 sized)]
    dsimp only
    rw [Cursor.number_extract_front sized]
    by_cases large : maxBody < number stream 0 4
    · rw [if_pos large, if_pos large]
    · rw [if_neg large, if_neg large]
      by_cases enough : 4 + number stream 0 4 ≤ stream.size
      · rw [Cursor.split?_left enough, if_neg (Nat.not_lt.2 enough)]
        dsimp only
        cases ofBody (stream.extract 4 (4 + number stream 0 4)) <;> rfl
      · have short : split? (number stream 0 4) (left stream 4) = none := by
          rw [split?_eq_none, Cursor.size_left]
          omega
        rw [short, if_pos (Nat.not_le.1 enough)]
        exact congrArg (·, _) (if_neg (Nat.not_lt.2 sized)).symm
  · have short := Nat.not_le.1 sized
    rw [split?_eq_none.2 short, if_pos short]
    exact congrArg (·, _) (if_pos short).symm

/-- Both readers read the same packets. -/
theorem readFrame_eq_packet {stream : ByteArray} :
    readFrame stream = (.ok (some p), rest) ↔ unframe stream = (.ok (some p), rest) := by
  rw [readFrame_eq_unframe]
  split
  · next read => rw [read]
  · next read =>
    rw [read]
    split <;> simp
  · next read => simp [read]
  · next read => simp [read]

/-! ### Streams -/

namespace Chunks

/-- Wait for chunks until some bytes are there, and take these. -/
def fill : ℕ → List ByteArray → Except StreamProblem ByteArray × List ByteArray
  | missing, [] => (if missing = 0 then .ok .empty else .error .unexpectedEnd, [])
  | missing, chunk :: chunks =>
    match split? missing chunk with
    | some (part, rest) => (.ok part, rest :: chunks)
    | none =>
      let (others, chunks) := fill (missing - chunk.size) chunks
      ((chunk ++ ·) <$> others, chunks)

/-- Read a frame. A stream that ends before the size of a frame has been read has come to its
end. -/
def readFrame (chunks : List ByteArray) :
    Except TransportError (Option Packet) × List ByteArray :=
  match fill 4 chunks with
  | (.error .unexpectedEnd, rest) => (.ok none, rest)
  | (.error problem, rest) => (.error (.stream problem), rest)
  | (.ok head, rest) =>
    let size := number head 0 4
    if maxBody < size then (.error (.frameTooLarge size), rest)
    else
      match fill size rest with
      | (.error problem, rest) => (.error (.stream problem), rest)
      | (.ok body, rest) =>
        match ofBody body with
        | .ok p => (.ok (some p), rest)
        | .error problem => (.error (.malformed problem), rest)

/-- A stream that has enough bytes gives them, wherever they are cut. -/
theorem fill_of_some (h : split? count (joined chunks) = some (part, rest)) :
    ∃ others, fill count chunks = (.ok part, others) ∧ joined others = rest := by
  induction chunks generalizing count part with
  | nil =>
    obtain ⟨none, rfl⟩ := split?_eq_some.1 h
    obtain ⟨rfl, rfl⟩ := ByteArray.append_eq_empty_iff.1 none.symm
    exact ⟨[], rfl, rfl⟩
  | cons chunk chunks ih =>
    obtain ⟨all, size⟩ := split?_eq_some.1 h
    have all : chunk ++ joined chunks = part ++ rest := all
    cases first : split? count chunk with
    | some parts =>
      -- the first chunk has enough bytes
      obtain ⟨part', rest'⟩ := parts
      obtain ⟨rfl, size'⟩ := split?_eq_some.1 first
      rw [ByteArray.append_assoc,
        ByteArray.append_eq_append_iff_of_size_eq_left (size'.trans size.symm)] at all
      obtain ⟨rfl, rfl⟩ := all
      exact ⟨rest' :: chunks, by rw [fill, first], rfl⟩
    | none =>
      have short := split?_eq_none.1 first
      obtain ⟨more, rfl, others⟩ := exists_append all.symm (by omega)
      have missing : split? (count - chunk.size) (joined chunks) = some (more, rest) := by
        refine split?_eq_some.2 ⟨others.symm, ?_⟩
        rw [ByteArray.size_append] at size
        omega
      obtain ⟨left, filled, same⟩ := ih missing
      refine ⟨left, ?_, same⟩
      rw [fill, first]
      dsimp only
      rw [filled]
      rfl

/-- A stream that has too few bytes is read to its end. -/
theorem fill_of_none (h : split? count (joined chunks) = none) :
    fill count chunks = (.error .unexpectedEnd, []) := by
  induction chunks generalizing count with
  | nil =>
    have short : 0 < count := split?_eq_none.1 h
    rw [fill, if_neg (by omega)]
  | cons chunk chunks ih =>
    have short : chunk.size + (joined chunks).size < count := by
      rw [← ByteArray.size_append]
      exact split?_eq_none.1 h
    have first : split? count chunk = none := split?_eq_none.2 (by omega)
    have missing : split? (count - chunk.size) (joined chunks) = none :=
      split?_eq_none.2 (by omega)
    rw [fill, first]
    dsimp only
    rw [ih missing]
    rfl

/-- **A frame is read from chunks as from all bytes**, and what is left is the same. -/
theorem readFrame_joined (chunks : List ByteArray) :
    Packet.readFrame (joined chunks) = ((readFrame chunks).1, joined (readFrame chunks).2) := by
  rw [readFrame_eq_split, readFrame]
  cases head : split? 4 (joined chunks) with
  | none =>
    rw [fill_of_none head]
    rfl
  | some parts =>
    obtain ⟨size, others⟩ := parts
    obtain ⟨rest, filled, rfl⟩ := fill_of_some head
    rw [filled]
    dsimp only
    split
    · rfl
    · cases split : split? (number size 0 4) (joined rest) with
      | none =>
        rw [fill_of_none split]
        rfl
      | some parts =>
        obtain ⟨body, after⟩ := parts
        obtain ⟨rest, filled, rfl⟩ := fill_of_some split
        rw [filled]
        dsimp only
        cases ofBody body <;> rfl

/-- The same packet is read, or whatever else comes. -/
theorem readFrame_joined_of_eq {outcome : Except TransportError (Option Packet)}
    {rest : List ByteArray} (h : readFrame chunks = (outcome, rest)) :
    Packet.readFrame (joined chunks) = (outcome, joined rest) := by
  rw [readFrame_joined, h]

end Chunks

/-! ### All frames -/

/-- Anything that reads packets one after the other. Each one brings it closer to the end. -/
structure Reader (σ : Type) where
  next : σ → Except TransportError (Option Packet) × σ
  size : σ → ℕ
  shrinks : ∀ {s p rest}, next s = (.ok (some p), rest) → size rest < size s

namespace Reader

variable {σ : Type} {r : Reader σ} {s t : σ}

/-- Read until something else than a packet comes: the packets, the error if it is one, and what is
left. -/
def all (r : Reader σ) (s : σ) : List Packet × Option TransportError × σ :=
  match _h : r.next s with
  | (.ok (some p), rest) =>
    let (packets, last) := r.all rest
    (p :: packets, last)
  | (.ok none, rest) => ([], none, rest)
  | (.error e, rest) => ([], some e, rest)
termination_by r.size s
decreasing_by exact r.shrinks _h

theorem all_of_packet (h : r.next s = (.ok (some p), t)) :
    r.all s = (p :: (r.all t).1, (r.all t).2) := by
  rw [all]
  split <;> simp_all

theorem all_of_none (h : r.next s = (.ok none, t)) : r.all s = ([], none, t) := by
  rw [all]
  split <;> simp_all

theorem all_of_error {e : TransportError} (h : r.next s = (.error e, t)) :
    r.all s = ([], some e, t) := by
  rw [all]
  split <;> simp_all

/-- Takes frames from a buffer. -/
def ofBuffer : Reader ByteArray where
  next := unframe
  size := ByteArray.size
  shrinks {s p rest} h := by
    have taken := taken_unframe s
    rw [h] at taken
    cases taken with
    | packet frame split =>
      obtain ⟨-, rfl⟩ := frame_eq_ok.1 frame
      rw [split, ByteArray.size_append, size_framed]
      omega

/-- Reads frames from a stream of which all bytes are there. -/
def ofStream : Reader ByteArray where
  next := readFrame
  size := ByteArray.size
  shrinks h := ofBuffer.shrinks (readFrame_eq_packet.1 h)

/-- Reads frames from a stream that comes in chunks. -/
def ofChunks : Reader (List ByteArray) where
  next := Chunks.readFrame
  size chunks := (joined chunks).size
  shrinks h := ofStream.shrinks (Chunks.readFrame_joined_of_eq h)

/-- From chunks the same is read as from all bytes. -/
theorem all_ofStream (chunks : List ByteArray) :
    ofStream.all (joined chunks) =
      ((ofChunks.all chunks).1, (ofChunks.all chunks).2.1, joined (ofChunks.all chunks).2.2) := by
  fun_induction all ofChunks chunks with
  | case1 chunks p rest read packets last step ih =>
    rw [all_of_packet (Chunks.readFrame_joined_of_eq read), ih, step]
  | case2 chunks rest read => exact all_of_none (Chunks.readFrame_joined_of_eq read)
  | case3 chunks e rest read => exact all_of_error (Chunks.readFrame_joined_of_eq read)

/-- What comes at the end of a stream where a reader of a buffer, in which some bytes are left,
comes to an error or waits for more. -/
def atEnd (left : ByteArray) : Option TransportError → Option TransportError
  | some e => some e
  | none => if left.size < 4 then none else some (.stream .unexpectedEnd)

/-- From a stream the same is read as from a buffer, up to its end. -/
theorem all_ofBuffer (stream : ByteArray) :
    (ofStream.all stream).1 = (ofBuffer.all stream).1 ∧
      (ofStream.all stream).2.1 = atEnd (ofBuffer.all stream).2.2 (ofBuffer.all stream).2.1 := by
  fun_induction all ofBuffer stream with
  | case1 stream p rest read packets last step ih =>
    rw [step] at ih
    rw [all_of_packet (readFrame_eq_packet.2 read)]
    exact ⟨congrArg (p :: ·) ih.1, ih.2⟩
  | case2 stream rest read =>
    have same := readFrame_eq_unframe stream
    rw [show unframe stream = _ from read] at same
    dsimp only at same
    split at same
    · next short => rw [all_of_none same, atEnd, if_pos short]; exact ⟨rfl, rfl⟩
    · next begun => rw [all_of_error same, atEnd, if_neg begun]; exact ⟨rfl, rfl⟩
  | case3 stream e rest read =>
    have same := readFrame_eq_unframe stream
    rw [show unframe stream = _ from read] at same
    cases e with
    | frameTooLarge size => rw [all_of_error same]; exact ⟨rfl, rfl⟩
    | _ => rw [all_of_error same]; exact ⟨rfl, rfl⟩

/-- From chunks the same is read as from a buffer with all bytes, up to their end. -/
theorem all_ofChunks (chunks : List ByteArray) :
    (ofChunks.all chunks).1 = (ofBuffer.all (joined chunks)).1 ∧
      (ofChunks.all chunks).2.1 =
        atEnd (ofBuffer.all (joined chunks)).2.2 (ofBuffer.all (joined chunks)).2.1 := by
  have whole := all_ofBuffer (joined chunks)
  rwa [all_ofStream] at whole

/-- `readFrames` reads a whole stream. -/
theorem readFrames_eq (stream : ByteArray) :
    readFrames stream = ((ofStream.all stream).1, (ofStream.all stream).2.1) := by
  fun_induction all ofStream stream with
  | case1 stream p rest read packets last step ih =>
    have shorter : rest.size < stream.size := ofStream.shrinks read
    rw [readFrames, show readFrame stream = _ from read]
    dsimp only
    rw [if_pos shorter, ih, step]
  | case2 stream rest read => rw [readFrames, show readFrame stream = _ from read]
  | case3 stream e rest read => rw [readFrames, show readFrame stream = _ from read]

end Reader

/-- **Both readers agree.** However the bytes of a stream are cut, exactly those packets are read
from it that are taken from a buffer with all of its bytes, and the same error comes then; if
instead more bytes were needed, the stream is at its end or has broken off. -/
theorem readers_agree (chunks : List ByteArray) :
    ∃ packets last left rest,
      Reader.ofBuffer.all (joined chunks) = (packets, last, left) ∧
      Reader.ofChunks.all chunks = (packets, Reader.atEnd left last, rest) ∧
      readFrames (joined chunks) = (packets, Reader.atEnd left last) := by
  obtain ⟨packets, last⟩ := Reader.all_ofChunks chunks
  refine ⟨_, (Reader.ofBuffer.all (joined chunks)).2.1, (Reader.ofBuffer.all (joined chunks)).2.2,
    (Reader.ofChunks.all chunks).2.2, rfl, ?_, ?_⟩
  · rw [← packets, ← last]
  · rw [Reader.readFrames_eq, Reader.all_ofStream, ← packets, ← last]

/-! ### Streams that break off -/

/-- A stream is at its end when no more than three bytes are left. -/
theorem Chunks.readFrame_eq_none : (Chunks.readFrame chunks).1 = .ok none ↔
    (joined chunks).size < 4 := by
  have same : (Chunks.readFrame chunks).1 = (Packet.readFrame (joined chunks)).1 := by
    rw [Chunks.readFrame_joined]
  rw [same, readFrame_eq_split]
  cases head : split? 4 (joined chunks) with
  | none => exact iff_of_true rfl (split?_eq_none.1 head)
  | some parts =>
    obtain ⟨size, rest⟩ := parts
    refine iff_of_false ?_ fun short => ?_
    · -- whatever is read behind the size is no end
      dsimp only
      split
      · exact nofun
      · split
        · exact nofun
        · split <;> exact nofun
    · rw [split?_eq_none.2 short] at head
      cases head

/-- From a buffer, all packets are taken whose frames are complete. -/
theorem Reader.all_ofBuffer_stream {packets : List Packet} (fits : ∀ q ∈ packets, q.Fits)
    {part : ByteArray} (waiting : unframe part = (.ok none, part)) :
    ofBuffer.all (stream packets ++ part) = (packets, none, part) := by
  induction packets with
  | nil =>
    rw [show stream [] = .empty from rfl, ByteArray.empty_append]
    exact all_of_none waiting
  | cons p packets ih =>
    obtain ⟨first, others⟩ := List.forall_mem_cons.1 fits
    have split : stream (p :: packets) ++ part = p.framed ++ (stream packets ++ part) :=
      ByteArray.append_assoc
    rw [split, all_of_packet (unframe_framed first _), ih others]

/-- **A stream that breaks off is noticed, unless it does so within the size of a frame.** It is
taken for one that is at its end exactly if fewer than four bytes are left. So if it breaks off
before the end of a frame, all packets before that are read, and what comes then depends on whether
all of the size was there. -/
theorem breaks_off (chunks : List ByteArray) :
    ((Chunks.readFrame chunks).1 = .ok none ↔ (joined chunks).size < 4) ∧
    ∀ (packets : List Packet) (p : Packet) (part missing : ByteArray),
      (∀ q ∈ packets, q.Fits) → p.Fits → part ++ missing = p.framed → missing ≠ .empty →
      joined chunks = stream packets ++ part →
        ∃ rest, Reader.ofChunks.all chunks =
          (packets, if part.size < 4 then none else some (.stream .unexpectedEnd), rest) := by
  refine ⟨Chunks.readFrame_eq_none, ?_⟩
  intro packets p part missing fits fit cut broken bytes
  have short : part.size < p.framed.size := by
    have some : missing.size ≠ 0 := fun none => broken (ByteArray.size_eq_zero_iff.1 none)
    rw [← cut, ByteArray.size_append]
    omega
  have waiting : unframe part = (.ok none, part) :=
    unframe_prefix fit (cut.trans ByteArray.append_empty.symm) short
  obtain ⟨found, last⟩ := Reader.all_ofChunks chunks
  rw [bytes, Reader.all_ofBuffer_stream fits waiting] at found last
  exact ⟨(Reader.ofChunks.all chunks).2.2, Prod.ext found (Prod.ext last rfl)⟩

/-- A short packet. -/
def greeting : Packet := { channel := "hi", payload := ⟨#[7]⟩ }

/-- The packet comes twice, the second time without the end of its frame. -/
def halfGreeting : List ByteArray := [
  ⟨#[0, 0, 0, 10, 0, 2, 104, 105, 0]⟩,
  ⟨#[0, 0, 0, 1, 7, 0, 0]⟩,
  ⟨#[0, 10, 0, 2]⟩]

/-- This is noticed. -/
theorem halfGreeting_breaks_off :
    greeting.Fits ∧ ⟨#[0, 0, 0, 10, 0, 2]⟩ ++ ⟨#[104, 105, 0, 0, 0, 0, 1, 7]⟩ = greeting.framed ∧
      joined halfGreeting = stream [greeting] ++ ⟨#[0, 0, 0, 10, 0, 2]⟩ ∧
      ∃ rest, Reader.ofChunks.all halfGreeting =
        ([greeting], some (.stream .unexpectedEnd), rest) := by
  have fits : greeting.Fits := by decide
  have cut : ⟨#[0, 0, 0, 10, 0, 2]⟩ ++ ⟨#[104, 105, 0, 0, 0, 0, 1, 7]⟩ = greeting.framed := by
    decide +kernel
  have bytes : joined halfGreeting = stream [greeting] ++ ⟨#[0, 0, 0, 10, 0, 2]⟩ := by
    decide +kernel
  refine ⟨fits, cut, bytes, ?_⟩
  exact (breaks_off halfGreeting).2 [greeting] greeting _ _ (List.forall_mem_singleton.2 fits) fits
    cut (by decide) bytes

/-- The first bytes of the size of its frame. -/
def barelyBegun : List ByteArray := [⟨#[0, 0]⟩, ⟨#[0]⟩]

/-- **A stream that breaks off within the size of a frame is taken for one that has ended.** -/
theorem not_always_noticed :
    (¬ ∀ chunks, (Chunks.readFrame chunks).1 = .ok none → joined chunks = .empty) ∧
    ¬ ∀ (packets : List Packet) (p : Packet) (part missing : ByteArray) (chunks : List ByteArray),
      (∀ q ∈ packets, q.Fits) → p.Fits → part ++ missing = p.framed → part ≠ .empty →
      missing ≠ .empty → joined chunks = stream packets ++ part →
        ∃ rest, Reader.ofChunks.all chunks = (packets, some (.stream .unexpectedEnd), rest) := by
  have ended : Chunks.readFrame barelyBegun = (.ok none, []) := rfl
  constructor
  · intro clean
    exact absurd (clean barelyBegun (congrArg Prod.fst ended)) (by decide)
  · intro noticed
    have cut : ⟨#[0, 0, 0]⟩ ++ ⟨#[10, 0, 2, 104, 105, 0, 0, 0, 0, 1, 7]⟩ = greeting.framed := by
      decide +kernel
    obtain ⟨rest, read⟩ := noticed [] greeting ⟨#[0, 0, 0]⟩ _ barelyBegun nofun (by decide) cut
      (by decide) (by decide) (by decide)
    rw [Reader.all_of_none ended] at read
    cases read

end Packet

end WorkerCluster
