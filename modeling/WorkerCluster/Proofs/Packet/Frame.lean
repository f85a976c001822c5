import WorkerCluster.Packet.Frame
import WorkerCluster.Proofs.Text.Utf8

/-!
# Frames read back

* `bigEndian` writes a number in any number of bytes; `number_middle` reads it back from where it
  stands among others, and `bigEndian_extend` writes it again as it stood there.
* `Packet.Fits` holds for the packets that can be framed; `Packet.framed` is the frame then.
* `ofBody_body` reads a body back.
* `unframe_framed` and `unframe_prefix` say what is taken from the front of a buffer: the packet if
  its whole frame is there, and nothing before that. `readFrame_framed` is about streams.
-/

namespace WorkerCluster

/-! ### Numbers -/

/-- A number in some bytes, the most significant first; what does not fit is lost. -/
def bigEndian (count n : ℕ) : List UInt8 :=
  (List.range count).map fun i => (n >>> (8 * (count - 1 - i))).toUInt8

/-- The number that bytes make when they follow those of another one. -/
def extend (n : ℕ) (bytes : List UInt8) : ℕ := bytes.foldl (fun n b => 256 * n + b.toNat) n

theorem bigEndian_succ (count n : ℕ) :
    bigEndian (count + 1) n = (n >>> (8 * count)).toUInt8 :: bigEndian count n := by
  rw [bigEndian, List.range_succ_eq_map, List.map_cons, List.map_map]
  congr 1
  refine List.map_congr_left fun i _ => ?_
  show (n >>> (8 * (count + 1 - 1 - (i + 1)))).toUInt8 = _
  congr 3
  omega

theorem extend_bigEndian (count m n : ℕ) :
    extend m (bigEndian count n) = m * 256 ^ count + n % 256 ^ count := by
  induction count generalizing m with
  | zero => simp [bigEndian, extend, Nat.mod_one]
  | succ count ih =>
    have first : (n >>> (8 * count)).toUInt8.toNat = n / 256 ^ count % 256 := by
      rw [Nat.toUInt8_eq, UInt8.toNat_ofNat', Nat.shiftRight_eq_div_pow, Nat.pow_mul]
    have rest : extend m (bigEndian (count + 1) n) =
        extend (256 * m + n / 256 ^ count % 256) (bigEndian count n) := by
      rw [bigEndian_succ, extend, List.foldl_cons, first, extend]
    rw [rest, ih, Nat.pow_succ, Nat.mod_mul]
    ring

/-- **A number is read back from its bytes** if it fits. -/
theorem extend_zero_bigEndian (count : ℕ) {n : ℕ} (h : n < 256 ^ count) :
    extend 0 (bigEndian count n) = n := by
  rw [extend_bigEndian, Nat.zero_mul, Nat.zero_add, Nat.mod_eq_of_lt h]

theorem Uuid.ofBytes_bytes (id : Uuid) : ofBytes id.bytes = id := by
  have value : extend 0 id.bytes = id.value.toNat := extend_zero_bigEndian 16 id.value.isLt
  show ofNat (extend 0 id.bytes) = id
  rw [value, ofNat, BitVec.ofNat_toNat, BitVec.setWidth_eq]

/-- The bytes that follow a number are the low ones. -/
theorem extend_div (n : ℕ) (bytes : List UInt8) : extend n bytes / 256 ^ bytes.length = n := by
  induction bytes generalizing n with
  | nil => simp [extend]
  | cons b bytes ih =>
    have small : b.toNat < 256 := b.toNat_lt
    rw [extend, List.foldl_cons, ← extend, List.length_cons, Nat.pow_succ, ← Nat.div_div_eq_div_mul,
      ih]
    omega

theorem extend_zero_lt (bytes : List UInt8) : extend 0 bytes < 256 ^ bytes.length :=
  (Nat.div_eq_zero_iff_lt (Nat.pow_pos (by decide))).1 (extend_div 0 bytes)

/-- **Bytes are written again as they were read.** -/
theorem bigEndian_extend (n : ℕ) (bytes : List UInt8) :
    bigEndian bytes.length (extend n bytes) = bytes := by
  induction bytes generalizing n with
  | nil => rfl
  | cons b bytes ih =>
    have next : extend n (b :: bytes) = extend (256 * n + b.toNat) bytes := rfl
    have first : (extend (256 * n + b.toNat) bytes >>> (8 * bytes.length)).toUInt8 = b := by
      rw [Nat.shiftRight_eq_div_pow, Nat.pow_mul, extend_div]
      apply UInt8.toNat_inj.1
      rw [Nat.toUInt8_eq, UInt8.toNat_ofNat', Nat.mul_add_mod, Nat.mod_eq_of_lt b.toNat_lt]
    rw [next, List.length_cons, bigEndian_succ, first, ih]

theorem Uuid.bytes_ofBytes {bytes : List UInt8} (size : bytes.length = 16) :
    (ofBytes bytes).bytes = bytes := by
  have small : extend 0 bytes < 2 ^ 128 := by
    have small := extend_zero_lt bytes
    rwa [size] at small
  have value : (ofBytes bytes).value.toNat = extend 0 bytes := by
    show (BitVec.ofNat 128 (extend 0 bytes)).toNat = _
    rw [BitVec.toNat_ofNat, Nat.mod_eq_of_lt small]
  show bigEndian 16 (ofBytes bytes).value.toNat = bytes
  rw [value, ← size, bigEndian_extend]

namespace Packet

/-! ### Parts of byte strings -/

theorem extract_middle (a b c : ByteArray) {i j : ℕ} (hi : i = a.size) (hj : j = i + b.size) :
    (a ++ b ++ c).extract i j = b := by
  have front : (a ++ b).extract i j = b := ByteArray.extract_append_eq_right hi (hi ▸ hj)
  have none : i - (a ++ b).size = 0 ∧ j - (a ++ b).size = 0 := by
    rw [ByteArray.size_append]
    omega
  rw [ByteArray.extract_append, front, none.1, none.2, ByteArray.extract_same,
    ByteArray.append_empty]

theorem getElem?_middle (a b c : ByteArray) {i : ℕ} (h : i < b.size) :
    (a ++ b ++ c).data[a.size + i]? = b.data[i]? := by
  have hi : i < b.data.size := h
  simp only [ByteArray.data_append, Array.append_assoc]
  rw [← ByteArray.size_data, Array.getElem?_append_right (Nat.le_add_right ..),
    Nat.add_sub_cancel_left, Array.getElem?_append_left hi]

theorem number_middle (a b c : ByteArray) :
    number (a ++ b ++ c) a.size b.size = extend 0 b.data.toList := by
  have bytes : (List.range b.size).map (fun i => (a ++ b ++ c).data.getD (a.size + i) 0) =
      b.data.toList := by
    refine List.ext_getElem (by simp [ByteArray.size_data]) fun i h h' => ?_
    have hi : i < b.data.size := by simpa using h'
    rw [List.getElem_map, List.getElem_range, Array.getD_eq_getD_getElem?,
      getElem?_middle a b c hi, Array.getElem?_eq_getElem hi, Option.getD_some,
      Array.getElem_toList]
  rw [extend, ← bytes, List.foldl_map]
  rfl

/-- What stands in front does not depend on what follows. -/
theorem number_front (a b : ByteArray) {count : ℕ} (h : count ≤ a.size) :
    number (a ++ b) 0 count = number a 0 count := by
  refine List.foldl_ext _ _ _ fun n i hi => ?_
  have inside : 0 + i < a.data.size := by
    rw [Nat.zero_add]
    exact Nat.lt_of_lt_of_le (List.mem_range.1 hi) h
  rw [Array.getD_eq_getD_getElem?, Array.getD_eq_getD_getElem?, ByteArray.data_append,
    Array.getElem?_append_left inside]

theorem number_word16 (a c : ByteArray) {n : ℕ} (h : n < UInt16.size) :
    number (a ++ word16 n ++ c) a.size 2 = n :=
  (number_middle a (word16 n) c).trans (extend_zero_bigEndian 2 h)

theorem number_word32 (a c : ByteArray) {n : ℕ} (h : n < UInt32.size) :
    number (a ++ word32 n ++ c) a.size 4 = n :=
  (number_middle a (word32 n) c).trans (extend_zero_bigEndian 4 h)

/-! ### Bodies -/

/-- Whether a packet can be framed: the name of its channel and its body are short enough. -/
structure Fits (p : Packet) : Prop where
  channel : p.channel.utf8ByteSize < UInt16.size
  size : p.bodySize ≤ maxBody

instance (p : Packet) : Decidable p.Fits :=
  decidable_of_iff (p.channel.utf8ByteSize < UInt16.size ∧ p.bodySize ≤ maxBody)
    ⟨fun h => ⟨h.1, h.2⟩, fun h => ⟨h.channel, h.size⟩⟩

variable {p : Packet}

theorem size_body (p : Packet) : p.body.size = p.bodySize := by
  simp only [body, bodySize, ByteArray.size_append, Text.size_toUTF8]
  rfl

theorem size_idBytes_some (id : Uuid) : (idBytes (some id)).size = 17 := by
  show (1 :: id.bytes).toArray.size = 17
  simp [Uuid.bytes]

/-- The flag and the id are read where they stand. -/
theorem readId_middle (a c : ByteArray) (id : Option Uuid) :
    readId (a ++ idBytes id ++ c) a.size = .ok (id, (idBytes id).size) := by
  have flag : (a ++ idBytes id ++ c).data[a.size]? = (idBytes id).data[0]? :=
    getElem?_middle a (idBytes id) c (i := 0) (by cases id <;> exact Nat.succ_pos _)
  cases id with
  | none =>
    rw [readId, flag]
    rfl
  | some id =>
    have first : (idBytes (some id)).data[0]? = some 1 := rfl
    have enough : ¬ (a ++ idBytes (some id) ++ c).size < a.size + 17 := by
      rw [ByteArray.size_append, ByteArray.size_append, size_idBytes_some]
      omega
    have bytes : (a ++ idBytes (some id) ++ c).extract (a.size + 1) (a.size + 17) =
        ⟨id.bytes.toArray⟩ := by
      -- the flag belongs to what stands before the id
      have parts : a ++ idBytes (some id) = a ++ ⟨#[1]⟩ ++ ⟨id.bytes.toArray⟩ := by
        rw [ByteArray.append_assoc]
        rfl
      have size : (⟨id.bytes.toArray⟩ : ByteArray).size = 16 := by
        show id.bytes.toArray.size = 16
        simp [Uuid.bytes]
      rw [parts]
      refine extract_middle _ _ c ?_ ?_
      · rw [ByteArray.size_append]
        rfl
      · rw [size]
    rw [readId, flag, first, bytes, size_idBytes_some]
    show (if _ then _ else _) = _
    rw [if_neg enough, Text.toList_eq, List.toList_toArray, Uuid.ofBytes_bytes]

/-- The fields of a body are read where they stand. -/
structure Laid (p : Packet) : Prop where
  nameSize : number p.body 0 2 = p.channel.utf8ByteSize
  name : p.body.extract 2 (2 + p.channel.utf8ByteSize) = p.channel.toUTF8
  id : readId p.body (2 + p.channel.utf8ByteSize) = .ok (p.id, (idBytes p.id).size)
  payloadSize : number p.body (2 + p.channel.utf8ByteSize + (idBytes p.id).size) 4 = p.payload.size
  payload : p.body.extract (2 + p.channel.utf8ByteSize + (idBytes p.id).size + 4) p.body.size =
    p.payload

theorem Fits.laid (h : p.Fits) : p.Laid := by
  have small : p.payload.size < UInt32.size := by
    have size : p.bodySize ≤ 16 * 1024 * 1024 := h.size
    have limit : UInt32.size = 4294967296 := rfl
    rw [bodySize] at size
    omega
  have name := Text.size_toUTF8 p.channel
  have size₁ : (word16 p.channel.utf8ByteSize ++ p.channel.toUTF8).size =
      2 + p.channel.utf8ByteSize := by
    rw [ByteArray.size_append, name]
    rfl
  have size₂ : (word16 p.channel.utf8ByteSize ++ p.channel.toUTF8 ++ idBytes p.id).size =
      2 + p.channel.utf8ByteSize + (idBytes p.id).size := by
    rw [ByteArray.size_append, size₁]
  constructor
  · have h := number_word16 .empty (p.channel.toUTF8 ++ idBytes p.id ++ word32 p.payload.size ++
      p.payload) h.channel
    rw [ByteArray.empty_append, ByteArray.size_empty] at h
    simpa only [body, ByteArray.append_assoc] using h
  · have h := extract_middle (word16 p.channel.utf8ByteSize) p.channel.toUTF8
      (idBytes p.id ++ word32 p.payload.size ++ p.payload) (i := 2) rfl
      (congrArg (2 + ·) name.symm)
    simpa only [body, ByteArray.append_assoc] using h
  · have h := readId_middle (word16 p.channel.utf8ByteSize ++ p.channel.toUTF8)
      (word32 p.payload.size ++ p.payload) p.id
    rw [size₁] at h
    simpa only [body, ByteArray.append_assoc] using h
  · have h := number_word32 (word16 p.channel.utf8ByteSize ++ p.channel.toUTF8 ++ idBytes p.id)
      p.payload small
    rwa [size₂] at h
  · refine ByteArray.extract_append_eq_right ?_ ?_
    · rw [ByteArray.size_append, size₂]
      rfl
    · rw [body, ByteArray.size_append]

/-- **A body is read back.** -/
theorem ofBody_body (h : p.Fits) : ofBody p.body = .ok p := by
  have laid := h.laid
  have size : p.body.size = 2 + p.channel.utf8ByteSize + (idBytes p.id).size + 4 + p.payload.size :=
    size_body p
  have flag : 1 ≤ (idBytes p.id).size := by cases p.id <;> exact Nat.succ_pos _
  rw [ofBody, if_neg (by omega)]
  dsimp only
  rw [laid.nameSize, if_neg (by omega), laid.name, Text.fromUTF8?_toUTF8]
  dsimp only
  rw [laid.id]
  simp only [bind, Except.bind]
  rw [if_neg (by omega), laid.payload, laid.payloadSize, if_neg (fun h => h rfl)]
  rfl

/-! ### Frames -/

/-- The frame of a packet that can be framed. -/
def framed (p : Packet) : ByteArray := word32 p.bodySize ++ p.body

theorem frame_of_fits (h : p.Fits) : p.frame = .ok p.framed := by
  rw [frame, if_neg (Nat.not_le.2 h.channel), if_neg (Nat.not_lt.2 h.size), framed]

theorem frame_of_not_fits (h : ¬ p.Fits) : ∃ e, p.frame = .error e := by
  unfold frame
  split
  · exact ⟨_, rfl⟩
  · split
    · exact ⟨_, rfl⟩
    · rename_i short small
      exact absurd ⟨Nat.not_le.1 short, Nat.not_lt.1 small⟩ h

theorem frame_eq_ok {f : ByteArray} : p.frame = .ok f ↔ p.Fits ∧ f = p.framed := by
  constructor
  · intro ok
    by_cases fits : p.Fits
    · rw [frame_of_fits fits] at ok
      exact ⟨fits, (Except.ok.inj ok).symm⟩
    · obtain ⟨e, refused⟩ := frame_of_not_fits fits
      rw [refused] at ok
      cases ok
  · rintro ⟨fits, rfl⟩
    exact frame_of_fits fits

theorem size_framed (p : Packet) : p.framed.size = 4 + p.bodySize := by
  rw [framed, ByteArray.size_append, size_body]
  rfl

theorem number_framed (h : p.Fits) (rest : ByteArray) :
    number (p.framed ++ rest) 0 4 = p.bodySize := by
  have small : p.bodySize < UInt32.size := Nat.lt_of_le_of_lt h.size (by decide)
  have size := number_word32 .empty (p.body ++ rest) small
  rwa [ByteArray.empty_append, ByteArray.size_empty, ← ByteArray.append_assoc] at size

/-- **A frame is taken from the front of a buffer**, whatever follows. -/
theorem unframe_framed (h : p.Fits) (rest : ByteArray) :
    unframe (p.framed ++ rest) = (.ok (some p), rest) := by
  have size : (p.framed ++ rest).size = 4 + p.bodySize + rest.size := by
    rw [ByteArray.size_append, size_framed]
  have body : (p.framed ++ rest).extract 4 (4 + p.bodySize) = p.body :=
    extract_middle (word32 p.bodySize) p.body rest rfl (congrArg (4 + ·) (size_body p).symm)
  have left : (p.framed ++ rest).extract (4 + p.bodySize) (p.framed ++ rest).size = rest :=
    ByteArray.extract_append_eq_right (size_framed p).symm ByteArray.size_append
  rw [unframe, if_neg (by omega)]
  dsimp only
  rw [number_framed h, if_neg (Nat.not_lt.2 h.size), if_neg (by omega), body, left, ofBody_body h]

/-- **Nothing is taken while the frame is incomplete.** -/
theorem unframe_prefix (h : p.Fits) {buffer missing rest : ByteArray}
    (split : buffer ++ missing = p.framed ++ rest) (short : buffer.size < p.framed.size) :
    unframe buffer = (.ok none, buffer) := by
  rw [unframe]
  split
  · rfl
  · rename_i enough
    have size : number buffer 0 4 = p.bodySize := by
      rw [← number_framed h rest, ← split, number_front _ _ (Nat.not_lt.1 enough)]
    rw [size_framed] at short
    dsimp only
    rw [size, if_neg (Nat.not_lt.2 h.size), if_pos short]

/-- **A frame is taken from the front of a stream**, whatever follows. -/
theorem readFrame_framed (h : p.Fits) (rest : ByteArray) :
    readFrame (p.framed ++ rest) = (.ok (some p), rest) := by
  have size : (p.framed ++ rest).size = 4 + p.bodySize + rest.size := by
    rw [ByteArray.size_append, size_framed]
  have left : (p.framed ++ rest).extract 4 (p.framed ++ rest).size = p.body ++ rest := by
    rw [framed, ByteArray.append_assoc]
    exact ByteArray.extract_append_eq_right rfl ByteArray.size_append
  have body : (p.body ++ rest).extract 0 p.bodySize = p.body :=
    ByteArray.extract_append_eq_left (size_body p).symm
  have after : (p.body ++ rest).extract p.bodySize (p.body ++ rest).size = rest :=
    ByteArray.extract_append_eq_right (size_body p).symm ByteArray.size_append
  have enough : ¬ (p.body ++ rest).size < p.bodySize := by
    rw [ByteArray.size_append, size_body]
    omega
  rw [readFrame, if_neg (by omega)]
  dsimp only
  rw [number_framed h, if_neg (Nat.not_lt.2 h.size), left, if_neg enough, body, after,
    ofBody_body h]

/-- Nothing is taken at the end of a stream. -/
theorem readFrame_empty : readFrame .empty = (.ok none, .empty) := rfl

end Packet

end WorkerCluster
