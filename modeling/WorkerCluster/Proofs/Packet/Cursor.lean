import WorkerCluster.Proofs.Packet.Frame

/-!
# Frames read byte by byte

Which buffers hold a frame, and what becomes of all others.

* `Cursor` is a reader that consumes what it reads and has no result if it asks for bytes that are
  not there. `Cursor.packet` and `Cursor.unframe` read bodies and frames, part by part;
  `Cursor.run_packet` and `Cursor.unframe_eq` say that they do what `ofBody` and `unframe` do, so
  neither of these ever reads past a body or a buffer.
* `Cursor.of_packet_ok` says that a body is accepted only if it is the one of the packet; it is made
  of such lemmas for the parts. `frame_of_ofBody` and `frame_ne_of_ofBody` are about frames.
* `Taken` lists what may come of taking a frame from the front of a buffer. `unframe_exact` is the
  main statement.
-/

namespace WorkerCluster

namespace Packet

/-! ### Readers -/

/-- The bytes from a position on. -/
def left (bytes : ByteArray) (start : ℕ) : ByteArray := bytes.extract start bytes.size

/-- The first bytes and the others, if there are enough. -/
def split? (count : ℕ) (bytes : ByteArray) : Option (ByteArray × ByteArray) :=
  if bytes.size < count then none else some (bytes.extract 0 count, left bytes count)

/-- A reader of bytes that consumes what it reads. It has no result if it asks for more bytes than
there are. -/
abbrev Cursor := ExceptT Malformation (StateT ByteArray Option)

namespace Cursor

/-- How many bytes there are still. -/
def remaining : Cursor ℕ := ByteArray.size <$> get

/-- Read some bytes. -/
def take (count : ℕ) : Cursor ByteArray :=
  ExceptT.mk fun bytes => (split? count bytes).map fun (part, rest) => (.ok part, rest)

/-- Refuse bodies that end too early. -/
def need (count : ℕ) : Cursor Unit := do
  if (← remaining) < count then throw .truncated

/-- Read a number of some bytes. -/
def word (count : ℕ) : Cursor ℕ := do
  let bytes ← take count
  return number bytes 0 count

/-- Read the name of a channel. -/
def name : Cursor String := do
  need 2
  let size ← word 2
  need (size + 1)
  let name ← take size
  match String.fromUTF8? name with
  | some name => return name
  | none => throw .channelNotText

/-- Read a flag and an id. -/
def flaggedId : Cursor (Option Uuid) := do
  let flag ← take 1
  match flag.data.getD 0 0 with
  | 0 => return none
  | 1 =>
    need 16
    let bytes ← take 16
    return some (Uuid.ofBytes bytes.toList)
  | flag => throw (.idFlag flag)

/-- Read a payload, which is all that is left. -/
def payload : Cursor ByteArray := do
  need 4
  let size ← word 4
  let present ← remaining
  if present = size then take present else throw (.payloadSize size present)

/-- Read a body. -/
def packet : Cursor Packet := do
  let channel ← name
  let id ← flaggedId
  let payload ← payload
  return { channel, id, payload }

/-- Take a frame from the front of a buffer. There is no result if that takes more bytes than the
buffer has, or more than the body of the frame. -/
def unframe (buffer : ByteArray) : Option (Except TransportError (Option Packet) × ByteArray) :=
  if buffer.size < 4 then some (.ok none, buffer)
  else do
    let (head, others) ← split? 4 buffer
    let size := number head 0 4
    if maxBody < size then some (.error (.frameTooLarge size), buffer)
    else if buffer.size < 4 + size then some (.ok none, buffer)
    else do
      let (body, rest) ← split? size others
      match ← packet.run body with
      | (.ok p, _) => some (.ok (some p), rest)
      | (.error problem, _) => some (.error (.malformed problem), rest)

variable {α β : Type} {bytes rest : ByteArray} {k n : ℕ}

theorem run_bind (r : Cursor α) (f : α → Cursor β) (bytes : ByteArray) :
    (r >>= f).run bytes = (r.run bytes).bind fun
      | (.ok a, rest) => (f a).run rest
      | (.error e, rest) => some (.error e, rest) := by
  show (r.run bytes).bind _ = _
  congr 1
  funext ⟨a, rest⟩
  cases a <;> rfl

theorem run_bind_ok {r : Cursor α} {a : α} (h : r.run bytes = some (.ok a, rest))
    (f : α → Cursor β) : (r >>= f).run bytes = (f a).run rest := by
  rw [run_bind, h]
  rfl

theorem run_bind_error {r : Cursor α} {e : Malformation}
    (h : r.run bytes = some (.error e, rest)) (f : α → Cursor β) :
    (r >>= f).run bytes = some (.error e, rest) := by
  rw [run_bind, h]
  rfl

theorem run_need (count : ℕ) (bytes : ByteArray) :
    (need count).run bytes =
      some (if bytes.size < count then .error .truncated else .ok (), bytes) := by
  show (if bytes.size < count then (throw .truncated : Cursor Unit) else pure ()).run bytes = _
  split <;> rfl

theorem run_need_of_le (h : n ≤ bytes.size) : (need n).run bytes = some (.ok (), bytes) := by
  rw [run_need, if_neg (Nat.not_lt.2 h)]

theorem run_need_of_lt (h : bytes.size < n) :
    (need n).run bytes = some (.error .truncated, bytes) := by
  rw [run_need, if_pos h]

theorem run_take (count : ℕ) (bytes : ByteArray) :
    (take count).run bytes = (split? count bytes).map fun (part, rest) => (.ok part, rest) := rfl

theorem run_remaining (bytes : ByteArray) :
    remaining.run bytes = some (.ok bytes.size, bytes) := rfl

/-! ### Where readers stand -/

theorem left_zero (bytes : ByteArray) : left bytes 0 = bytes := ByteArray.extract_zero_size

theorem size_left (bytes : ByteArray) (k : ℕ) : (left bytes k).size = bytes.size - k := by
  rw [left, ByteArray.size_extract, Nat.min_self]

theorem split?_left (h : k + n ≤ bytes.size) :
    split? n (left bytes k) = some (bytes.extract k (k + n), left bytes (k + n)) := by
  have enough : ¬ (left bytes k).size < n := by
    rw [size_left]
    omega
  have part : (left bytes k).extract 0 n = bytes.extract k (k + n) := by
    rw [left, ByteArray.extract_extract, Nat.add_zero, Nat.min_eq_left h]
  have others : left (left bytes k) n = left bytes (k + n) := by
    rw [left, size_left, left, ByteArray.extract_extract, left]
    congr 1
    omega
  rw [split?, if_neg enough, part, others]

theorem run_take_left (h : k + n ≤ bytes.size) :
    (take n).run (left bytes k) = some (.ok (bytes.extract k (k + n)), left bytes (k + n)) := by
  rw [run_take, split?_left h]
  rfl

theorem number_extract (h : k + n ≤ bytes.size) :
    number (bytes.extract k (k + n)) 0 n = number bytes k n := by
  refine List.foldl_ext _ _ _ fun m i hi => ?_
  have inside : i < min (k + n) bytes.data.size - k := by
    rw [ByteArray.size_data, Nat.min_eq_left h, Nat.add_sub_cancel_left]
    exact List.mem_range.1 hi
  rw [Array.getD_eq_getD_getElem?, Array.getD_eq_getD_getElem?, ByteArray.data_extract,
    Array.getElem?_extract, Nat.zero_add, if_pos inside]

theorem number_extract_front (h : n ≤ bytes.size) :
    number (bytes.extract 0 n) 0 n = number bytes 0 n := by
  have same : number (bytes.extract 0 (0 + n)) 0 n = number bytes 0 n := number_extract (by omega)
  rwa [Nat.zero_add] at same

theorem run_word_left (h : k + n ≤ bytes.size) :
    (word n).run (left bytes k) = some (.ok (number bytes k n), left bytes (k + n)) := by
  rw [word, run_bind_ok (run_take_left h), number_extract h]
  rfl

theorem run_word_of_le (h : n ≤ bytes.size) :
    (word n).run bytes = some (.ok (number bytes 0 n), left bytes n) := by
  have read : (word n).run (left bytes 0) = some (.ok (number bytes 0 n), left bytes (0 + n)) :=
    run_word_left (by omega)
  rwa [left_zero, Nat.zero_add] at read

/-! ### Readers of parts -/

/-- A name is read if all of it is there, and the flag after it. -/
theorem run_name (h : 2 + number bytes 0 2 + 1 ≤ bytes.size) :
    name.run bytes = some (match String.fromUTF8? (bytes.extract 2 (2 + number bytes 0 2)) with
      | some name => .ok name
      | none => .error .channelNotText, left bytes (2 + number bytes 0 2)) := by
  have enough : number bytes 0 2 + 1 ≤ (left bytes 2).size := by
    rw [size_left]
    omega
  rw [name, run_bind_ok (run_need_of_le (by omega)), run_bind_ok (run_word_of_le (by omega)),
    run_bind_ok (run_need_of_le enough), run_bind_ok (run_take_left (by omega))]
  cases String.fromUTF8? (bytes.extract 2 (2 + number bytes 0 2)) <;> rfl

theorem run_name_of_short (h : bytes.size < 2 + number bytes 0 2 + 1) :
    ∃ rest, name.run bytes = some (.error .truncated, rest) := by
  by_cases short : bytes.size < 2
  · exact ⟨_, by rw [name, run_bind_error (run_need_of_lt short)]⟩
  · have missing : (left bytes 2).size < number bytes 0 2 + 1 := by
      rw [size_left]
      omega
    refine ⟨left bytes 2, ?_⟩
    rw [name, run_bind_ok (run_need_of_le (by omega)), run_bind_ok (run_word_of_le (by omega)),
      run_bind_error (run_need_of_lt missing)]

theorem readId_of_flag {b : UInt8} (there : bytes.data[k]? = some b) (zero : b ≠ 0) (one : b ≠ 1) :
    readId bytes k = .error (.idFlag b) := by
  rw [readId]
  split
  · next none =>
    rw [none] at there
    cases there
  · next e => exact absurd (Option.some_injective _ (there.symm.trans e)) zero
  · next e => exact absurd (Option.some_injective _ (there.symm.trans e)) one
  · next e => rw [Option.some_injective _ (there.symm.trans e)]

/-- A flag and an id are read as `readId` reads them. -/
theorem run_flaggedId (h : k < bytes.size) :
    ∃ rest, flaggedId.run (left bytes k) = some ((readId bytes k).map Prod.fst, rest) ∧
      ∀ id n, readId bytes k = .ok (id, n) → rest = left bytes (k + n) ∧ k + n ≤ bytes.size := by
  have inside : k < bytes.data.size := h
  obtain ⟨b, there⟩ : ∃ b, bytes.data[k]? = some b := ⟨_, Array.getElem?_eq_getElem inside⟩
  have flag : (bytes.extract k (k + 1)).data.getD 0 0 = b := by
    rw [Array.getD_eq_getD_getElem?, ByteArray.data_extract, Array.getElem?_extract,
      if_pos (by omega), Nat.add_zero, there, Option.getD_some]
  rw [flaggedId, run_bind_ok (run_take_left h), flag]
  split
  · have read : readId bytes k = .ok (none, 1) := by
      rw [readId, there]
      rfl
    rw [read]
    exact ⟨_, rfl, fun id n e => by cases e; exact ⟨rfl, h⟩⟩
  · have read : readId bytes k = if bytes.size < k + 17 then .error .truncated
        else .ok (some (Uuid.ofBytes (bytes.extract (k + 1) (k + 17)).toList), 17) := by
      rw [readId, there]
      rfl
    rw [read]
    by_cases short : bytes.size < k + 17
    · have missing : (left bytes (k + 1)).size < 16 := by
        rw [size_left]
        omega
      rw [run_bind_error (run_need_of_lt missing), if_pos short]
      exact ⟨_, rfl, fun id n e => by cases e⟩
    · have enough : 16 ≤ (left bytes (k + 1)).size := by
        rw [size_left]
        omega
      rw [run_bind_ok (run_need_of_le enough), run_bind_ok (run_take_left (by omega)),
        if_neg short]
      exact ⟨_, rfl, fun id n e => by cases e; exact ⟨rfl, by omega⟩⟩
  · next zero one =>
    rw [readId_of_flag there zero one]
    exact ⟨_, rfl, fun id n e => by cases e⟩

/-- All that is left is read as a payload. -/
theorem run_payload (k : ℕ) (bytes : ByteArray) (h : k ≤ bytes.size) :
    ∃ rest, payload.run (left bytes k) = some (if bytes.size < k + 4 then .error .truncated
      else if (bytes.extract (k + 4) bytes.size).size = number bytes k 4 then
        .ok (bytes.extract (k + 4) bytes.size)
      else .error (.payloadSize (number bytes k 4) (bytes.extract (k + 4) bytes.size).size),
        rest) := by
  by_cases short : bytes.size < k + 4
  · have missing : (left bytes k).size < 4 := by
      rw [size_left]
      omega
    exact ⟨_, by rw [payload, run_bind_error (run_need_of_lt missing), if_pos short]⟩
  · have enough : 4 ≤ (left bytes k).size := by
      rw [size_left]
      omega
    rw [payload, run_bind_ok (run_need_of_le enough), run_bind_ok (run_word_left (by omega)),
      run_bind_ok (run_remaining _), if_neg short, ← left]
    split
    · have all : k + 4 + (left bytes (k + 4)).size = bytes.size := by
        rw [size_left]
        omega
      refine ⟨left bytes bytes.size, ?_⟩
      rw [run_take_left (by omega), all]
      rfl
    · exact ⟨_, rfl⟩

/-- **A body is read without asking for more than it has**, and as `ofBody` reads it. -/
theorem run_packet (bytes : ByteArray) : ∃ rest, packet.run bytes = some (ofBody bytes, rest) := by
  have short (h : bytes.size < 2 + number bytes 0 2 + 1) :
      ∃ rest, packet.run bytes = some (.error .truncated, rest) := by
    obtain ⟨rest, read⟩ := run_name_of_short h
    exact ⟨rest, by rw [packet, run_bind_error read]⟩
  rw [ofBody]
  split
  · exact short (by omega)
  · dsimp only
    split
    · next missing => exact short missing
    · next enough =>
      have read := run_name (Nat.not_lt.1 enough)
      split
      · next none =>
        rw [none] at read
        exact ⟨_, by rw [packet, run_bind_error read]⟩
      · next name some =>
        rw [some] at read
        obtain ⟨rest, readFlag, after⟩ := run_flaggedId (Nat.lt_of_succ_le (Nat.not_lt.1 enough))
        rw [packet, run_bind_ok read]
        cases flagged : readId bytes (2 + number bytes 0 2) with
        | error e =>
          rw [flagged] at readFlag
          exact ⟨rest, run_bind_error readFlag _⟩
        | ok found =>
          obtain ⟨id, size⟩ := found
          rw [flagged] at readFlag
          obtain ⟨rfl, inside⟩ := after id size flagged
          obtain ⟨last, readPayload⟩ := run_payload _ bytes inside
          rw [run_bind_ok readFlag]
          simp only [bind, Except.bind]
          split
          · next missing =>
            rw [if_pos missing] at readPayload
            exact ⟨last, run_bind_error readPayload _⟩
          · next enough =>
            rw [if_neg enough] at readPayload
            split
            · next differs =>
              rw [if_neg differs] at readPayload
              exact ⟨last, run_bind_error readPayload _⟩
            · next same =>
              rw [if_pos (not_not.1 same)] at readPayload
              exact ⟨last, run_bind_ok readPayload _⟩

/-- **A frame is taken from the front of a buffer without asking for more than there is**, and as
`Packet.unframe` takes it. -/
theorem unframe_eq (buffer : ByteArray) : unframe buffer = some (Packet.unframe buffer) := by
  rw [unframe, Packet.unframe]
  split
  · rfl
  · next enough =>
    have head : split? 4 buffer = some (buffer.extract 0 4, left buffer 4) := if_neg enough
    have size : number (buffer.extract 0 4) 0 4 = number buffer 0 4 :=
      number_extract_front (Nat.not_lt.1 enough)
    simp only [head, bind, Option.bind_some, size]
    split
    · rfl
    · split
      · rfl
      · next complete =>
        obtain ⟨last, read⟩ := run_packet (buffer.extract 4 (4 + number buffer 0 4))
        rw [split?_left (by omega), Option.bind_some]
        dsimp only
        rw [read, Option.bind_some]
        cases ofBody (buffer.extract 4 (4 + number buffer 0 4)) <;> rfl

/-! ### What is accepted -/

theorem of_bind_ok {r : Cursor α} {f : α → Cursor β} {b : β}
    (h : (r >>= f).run bytes = some (.ok b, rest)) :
    ∃ a between, r.run bytes = some (.ok a, between) ∧ (f a).run between = some (.ok b, rest) := by
  rw [run_bind] at h
  obtain ⟨⟨a | a, between⟩, first, last⟩ := Option.bind_eq_some_iff.1 h
  · cases last
  · exact ⟨a, between, first, last⟩

theorem of_need_bind_ok {f : Unit → Cursor β} {b : β}
    (h : (need n >>= f).run bytes = some (.ok b, rest)) :
    (f ()).run bytes = some (.ok b, rest) := by
  obtain ⟨⟨⟩, between, enough, last⟩ := of_bind_ok h
  rw [run_need] at enough
  have same : bytes = between := congrArg Prod.snd (Option.some_injective _ enough)
  rwa [same]

theorem of_take_ok {part : ByteArray} (h : (take n).run bytes = some (.ok part, rest)) :
    bytes = part ++ rest ∧ part.size = n := by
  rw [run_take, split?] at h
  split at h
  · cases h
  · next enough =>
    cases h
    refine ⟨?_, ?_⟩
    · rw [left, ByteArray.extract_append_extract, Nat.zero_min, Nat.max_eq_right (by omega),
        ByteArray.extract_zero_size]
    · rw [ByteArray.size_extract]
      omega

/-- A number that is read is written as it stood there. -/
theorem of_word_ok {m : ℕ} (h : (word n).run bytes = some (.ok m, rest)) :
    bytes = ⟨(bigEndian n m).toArray⟩ ++ rest ∧ m < 256 ^ n := by
  obtain ⟨part, between, taken, read⟩ := of_bind_ok h
  obtain ⟨rfl, rfl⟩ := of_take_ok taken
  cases read
  have value : number part 0 part.size = extend 0 part.data.toList := by
    have middle := number_middle .empty part .empty
    rwa [ByteArray.empty_append, ByteArray.append_empty] at middle
  have size : part.data.toList.length = part.size := Array.length_toList
  have written : (bigEndian part.size (extend 0 part.data.toList)).toArray = part.data := by
    rw [← size, bigEndian_extend, Array.toArray_toList]
  rw [value, written, ← size]
  exact ⟨rfl, extend_zero_lt _⟩

theorem of_name_ok {channel : String} (h : name.run bytes = some (.ok channel, rest)) :
    bytes = word16 channel.utf8ByteSize ++ channel.toUTF8 ++ rest ∧
      channel.utf8ByteSize < UInt16.size := by
  obtain ⟨size, afterSize, sized, h₁⟩ := of_bind_ok (of_need_bind_ok h)
  obtain ⟨rfl, small⟩ := of_word_ok sized
  obtain ⟨text, afterText, taken, h₂⟩ := of_bind_ok (of_need_bind_ok h₁)
  obtain ⟨rfl, rfl⟩ := of_take_ok taken
  cases valid : String.fromUTF8? text with
  | none =>
    rw [valid] at h₂
    cases h₂
  | some name =>
    rw [valid] at h₂
    cases h₂
    have bytes : channel.toUTF8 = text := by
      unfold String.fromUTF8? at valid
      split at valid
      · cases valid
        rfl
      · cases valid
    have size : text.size = channel.utf8ByteSize := by rw [← bytes, Text.size_toUTF8]
    rw [size] at small ⊢
    rw [bytes, ByteArray.append_assoc]
    exact ⟨rfl, small⟩

theorem eq_of_size_one {part : ByteArray} (h : part.size = 1) :
    part = ⟨#[part.data.getD 0 0]⟩ := by
  obtain ⟨data⟩ := part
  obtain ⟨b, rfl⟩ := Array.size_eq_one_iff.1 h
  rfl

theorem of_flaggedId_ok {id : Option Uuid} (h : flaggedId.run bytes = some (.ok id, rest)) :
    bytes = idBytes id ++ rest := by
  obtain ⟨flag, afterFlag, taken, h₁⟩ := of_bind_ok h
  obtain ⟨rfl, size⟩ := of_take_ok taken
  have flagged := eq_of_size_one size
  split at h₁
  · next zero =>
    rw [zero] at flagged
    cases h₁
    rw [flagged]
    rfl
  · next one =>
    rw [one] at flagged
    obtain ⟨part, afterPart, taken, h₂⟩ := of_bind_ok (of_need_bind_ok h₁)
    obtain ⟨rfl, size⟩ := of_take_ok taken
    cases h₂
    have length : part.toList.length = 16 := by rw [Text.toList_eq, Array.length_toList]; exact size
    have id : idBytes (some (Uuid.ofBytes part.toList)) = flag ++ part := by
      rw [idBytes, Uuid.bytes_ofBytes length, flagged, Text.toList_eq, List.toArray_cons,
        Array.toArray_toList]
      exact ByteArray.ext ByteArray.data_append.symm
    rw [id, ByteArray.append_assoc]
  · cases h₁

/-- A payload that is accepted is all that was left. -/
theorem of_payload_ok {body : ByteArray} (h : payload.run bytes = some (.ok body, rest)) :
    bytes = word32 body.size ++ body := by
  obtain ⟨size, afterSize, sized, h₁⟩ := of_bind_ok (of_need_bind_ok h)
  obtain ⟨rfl, -⟩ := of_word_ok sized
  obtain ⟨present, between, counted, h₂⟩ := of_bind_ok h₁
  cases counted
  split at h₂
  · next all =>
    obtain ⟨split, size⟩ := of_take_ok h₂
    have none : rest = .empty := by
      have sizes := congrArg ByteArray.size split
      rw [ByteArray.size_append] at sizes
      exact ByteArray.size_eq_zero_iff.1 (by omega)
    rw [none, ByteArray.append_empty] at split
    rw [← all, split]
    rfl
  · cases h₂

/-- **A body that is accepted is that of the packet.** -/
theorem of_packet_ok {p : Packet} (h : packet.run bytes = some (.ok p, rest)) :
    bytes = p.body ∧ p.channel.utf8ByteSize < UInt16.size := by
  obtain ⟨channel, afterChannel, named, h₁⟩ := of_bind_ok h
  obtain ⟨rfl, short⟩ := of_name_ok named
  obtain ⟨id, afterId, flagged, h₂⟩ := of_bind_ok h₁
  obtain rfl := of_flaggedId_ok flagged
  obtain ⟨payload, afterPayload, last, h₃⟩ := of_bind_ok h₂
  obtain rfl := of_payload_ok last
  cases h₃
  refine ⟨?_, short⟩
  simp only [body, ByteArray.append_assoc]

end Cursor

/-! ### Frames -/

variable {p : Packet} {buffer rest f : ByteArray}

/-- If a buffer is long enough, a frame stands at its front: a size, a body of that size, and what
follows. -/
theorem framed_parts (enough : 4 + number buffer 0 4 ≤ buffer.size) :
    buffer = word32 (number buffer 0 4) ++ buffer.extract 4 (4 + number buffer 0 4) ++
      buffer.extract (4 + number buffer 0 4) buffer.size := by
  have read := Cursor.run_word_of_le (n := 4) (Nat.le_trans (Nat.le_add_right ..) enough)
  have others : left buffer 4 = buffer.extract 4 (4 + number buffer 0 4) ++
      buffer.extract (4 + number buffer 0 4) buffer.size := by
    rw [ByteArray.extract_append_extract, Nat.min_eq_left (by omega), Nat.max_eq_right enough]
    rfl
  rw [ByteArray.append_assoc, ← others]
  exact (Cursor.of_word_ok read).1

/-- What may come of taking a frame from the front of a buffer. -/
inductive Taken (buffer : ByteArray) : Except TransportError (Option Packet) × ByteArray → Prop
  /-- A packet is taken whose frame stands at the front, and nothing else. -/
  | packet {p : Packet} {f rest : ByteArray} (frame : p.frame = .ok f)
      (split : buffer = f ++ rest) : Taken buffer (.ok (some p), rest)
  /-- Nothing is taken from a buffer that is too short for a size, or for a body of that size. -/
  | incomplete (short : buffer.size < 4 ∨
      number buffer 0 4 ≤ maxBody ∧ buffer.size < 4 + number buffer 0 4) :
    Taken buffer (.ok none, buffer)
  /-- Nothing is taken of a frame that is too large. -/
  | tooLarge (sized : 4 ≤ buffer.size) (large : maxBody < number buffer 0 4) :
    Taken buffer (.error (.frameTooLarge (number buffer 0 4)), buffer)
  /-- A frame that is no packet's is taken out, and nothing else. -/
  | malformed {problem : Malformation} {f rest : ByteArray} (split : buffer = f ++ rest)
    (size : f.size = 4 + number buffer 0 4) (foreign : ∀ p : Packet, p.frame ≠ .ok f) :
    Taken buffer (.error (.malformed problem), rest)

/-- A frame whose body is not accepted is no packet's. -/
theorem frame_ne_of_ofBody {body : ByteArray} {n : ℕ} {problem : Malformation}
    (refused : ofBody body = .error problem) (p : Packet) : p.frame ≠ .ok (word32 n ++ body) := by
  intro ok
  obtain ⟨fits, same⟩ := frame_eq_ok.1 ok
  have sizes : (word32 n).size = (word32 p.bodySize).size := rfl
  rw [framed, ByteArray.append_eq_append_iff_of_size_eq_left sizes] at same
  rw [same.2, ofBody_body fits] at refused
  cases refused

/-- A frame whose body is accepted is that of the packet. -/
theorem frame_of_ofBody {body : ByteArray} (ok : ofBody body = .ok p)
    (small : body.size ≤ maxBody) : p.frame = .ok (word32 body.size ++ body) := by
  obtain ⟨last, read⟩ := Cursor.run_packet body
  rw [ok] at read
  obtain ⟨rfl, short⟩ := Cursor.of_packet_ok read
  have fits : p.Fits := ⟨short, size_body p ▸ small⟩
  rw [size_body, frame_of_fits fits, framed]

theorem taken_unframe (buffer : ByteArray) : Taken buffer (unframe buffer) := by
  rw [unframe]
  split
  · next short => exact .incomplete (.inl short)
  · next sized =>
    dsimp only
    split
    · next large => exact .tooLarge (Nat.not_lt.1 sized) large
    · next small =>
      split
      · next short => exact .incomplete (.inr ⟨Nat.not_lt.1 small, short⟩)
      · next enough =>
        have parts := framed_parts (Nat.not_lt.1 enough)
        have size : (buffer.extract 4 (4 + number buffer 0 4)).size = number buffer 0 4 := by
          rw [ByteArray.size_extract]
          omega
        split
        · next p ok =>
          have frame := frame_of_ofBody ok (by omega)
          rw [size] at frame
          exact .packet frame parts
        · next problem refused =>
          refine .malformed parts ?_ (frame_ne_of_ofBody refused)
          rw [ByteArray.size_append, size]
          rfl

/-- **Exactly the frames of packets are accepted.** A packet is taken if and only if its frame
stands at the front of the buffer. Otherwise nothing is taken, and then the buffer is too short for
a frame or declares one that is too large, or a whole frame is taken out that is no packet's. None
of this reads past the buffer or past the frame. -/
theorem unframe_exact (buffer : ByteArray) :
    Taken buffer (unframe buffer) ∧
      (∀ p rest, unframe buffer = (.ok (some p), rest) ↔
        ∃ f, p.frame = .ok f ∧ buffer = f ++ rest) ∧
      Cursor.unframe buffer = some (unframe buffer) := by
  refine ⟨taken_unframe buffer, fun p rest => ⟨fun taken => ?_, ?_⟩, Cursor.unframe_eq buffer⟩
  · have outcome := taken_unframe buffer
    rw [taken] at outcome
    cases outcome with
    | packet frame split => exact ⟨_, frame, split⟩
  · rintro ⟨f, frame, rfl⟩
    obtain ⟨fits, rfl⟩ := frame_eq_ok.1 frame
    exact unframe_framed fits rest

end Packet

end WorkerCluster
