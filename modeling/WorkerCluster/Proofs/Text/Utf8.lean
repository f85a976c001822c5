import Mathlib.Tactic

/-!
# Texts as bytes

* `utf8` is the list of bytes of a list of characters; `toUTF8_toList` says that a text has these
  bytes, `fromUTF8?_utf8` that they are read back.
* A character below 128 is one byte, any other one is made of bytes from 128 on.
-/

namespace WorkerCluster.Text

/-- The bytes of characters. -/
def utf8 (cs : List Char) : List UInt8 := cs.flatMap String.utf8EncodeChar

@[simp] theorem utf8_nil : utf8 [] = [] := rfl

theorem utf8_cons (c : Char) (cs : List Char) :
    utf8 (c :: cs) = String.utf8EncodeChar c ++ utf8 cs := rfl

@[simp] theorem utf8_append (cs ds : List Char) : utf8 (cs ++ ds) = utf8 cs ++ utf8 ds :=
  List.flatMap_append

theorem toList_loop (b : ByteArray) (i : ℕ) (r : List UInt8) (h : i ≤ b.size) :
    ByteArray.toList.loop b i r = r.reverse ++ b.data.toList.drop i := by
  induction hn : b.size - i generalizing i r with
  | zero =>
    rw [ByteArray.toList.loop, if_neg (by omega)]
    have : b.data.toList.length ≤ i := by
      rw [Array.length_toList]
      exact Nat.le_of_sub_eq_zero hn
    rw [List.drop_of_length_le this, List.append_nil]
  | succ n ih =>
    have hi : i < b.size := by omega
    have hi' : i < b.data.toList.length := by rwa [Array.length_toList]
    rw [ByteArray.toList.loop, if_pos hi, ih (i + 1) _ hi (by omega), List.reverse_cons,
      List.append_assoc, List.singleton_append, List.drop_eq_getElem_cons hi']
    congr 2
    rw [Array.getElem_toList]
    exact getElem!_pos b.data i hi

theorem toList_eq (b : ByteArray) : b.toList = b.data.toList := by
  rw [ByteArray.toList, toList_loop b 0 [] (Nat.zero_le _)]
  rfl

/-- The bytes of a text are those of its characters. -/
theorem toUTF8_toList (s : String) : s.toUTF8.toList = utf8 s.toList := by
  rw [toList_eq, String.toUTF8_eq_toByteArray, ← String.utf8Encode_toList, List.utf8Encode,
    List.data_toByteArray]
  rfl

theorem size_toUTF8 (s : String) : s.toUTF8.size = s.utf8ByteSize := by
  rw [String.toUTF8_eq_toByteArray, String.size_toByteArray]

/-- A text is read back from its bytes. -/
theorem fromUTF8?_toUTF8 (s : String) : String.fromUTF8? s.toUTF8 = some s := by
  rw [String.toUTF8_eq_toByteArray, String.fromUTF8?, dif_pos s.isValidUTF8]
  rfl

/-- A text is read back from the bytes of its characters. -/
theorem fromUTF8?_utf8 (s : String) : String.fromUTF8? ⟨(utf8 s.toList).toArray⟩ = some s := by
  have bytes : (⟨(utf8 s.toList).toArray⟩ : ByteArray) = s.toUTF8 := by
    apply ByteArray.ext
    rw [← Array.toList_inj, ← toUTF8_toList, toList_eq]
  rw [bytes, fromUTF8?_toUTF8]

/-! ### Single characters -/

theorem utf8EncodeChar_of_lt {c : Char} (h : c.toNat < 128) :
    String.utf8EncodeChar c = [c.toNat.toUInt8] := by
  unfold String.utf8EncodeChar
  rw [if_pos (by change c.toNat ≤ 127; omega)]
  rfl

theorem utf8_cons_of_lt {c : Char} (h : c.toNat < 128) (cs : List Char) :
    utf8 (c :: cs) = c.toNat.toUInt8 :: utf8 cs := by
  rw [utf8_cons, utf8EncodeChar_of_lt h]
  rfl

/-- Characters below 128 are one byte each. -/
theorem utf8_eq_map {cs : List Char} (h : ∀ c ∈ cs, c.toNat < 128) :
    utf8 cs = cs.map fun c => c.toNat.toUInt8 := by
  induction cs with
  | nil => rfl
  | cons c cs ih =>
    rw [utf8_cons_of_lt (h c (List.mem_cons_self ..)), List.map_cons,
      ih fun d hd => h d (List.mem_cons_of_mem _ hd)]

theorem utf8_take {cs : List Char} (h : ∀ c ∈ cs, c.toNat < 128) (k : ℕ) :
    utf8 (cs.take k) = (utf8 cs).take k := by
  rw [utf8_eq_map h, utf8_eq_map fun c hc => h c (List.mem_of_mem_take hc), List.map_take]

theorem utf8_drop {cs : List Char} (h : ∀ c ∈ cs, c.toNat < 128) (k : ℕ) :
    utf8 (cs.drop k) = (utf8 cs).drop k := by
  rw [utf8_eq_map h, utf8_eq_map fun c hc => h c (List.mem_of_mem_drop hc), List.map_drop]

theorem le_of_mem_utf8EncodeChar {c : Char} (h : 128 ≤ c.toNat) {b : UInt8}
    (hb : b ∈ String.utf8EncodeChar c) : 128 ≤ b := by
  have high (n : ℕ) (lo : 128 ≤ n) (hi : n < 256) : 128 ≤ UInt8.ofNat n := by
    rw [UInt8.le_iff_toNat_le, UInt8.toNat_ofNat']
    change 128 ≤ n % 256
    omega
  unfold String.utf8EncodeChar at hb
  rw [if_neg (by change ¬ c.toNat ≤ 127; omega)] at hb
  split at hb
  · simp only [List.mem_cons, List.not_mem_nil, or_false] at hb
    rcases hb with rfl | rfl <;> exact high _ (by omega) (by omega)
  · split at hb
    · simp only [List.mem_cons, List.not_mem_nil, or_false] at hb
      rcases hb with rfl | rfl | rfl <;> exact high _ (by omega) (by omega)
    · simp only [List.mem_cons, List.not_mem_nil, or_false] at hb
      rcases hb with rfl | rfl | rfl | rfl <;> exact high _ (by omega) (by omega)

end WorkerCluster.Text
