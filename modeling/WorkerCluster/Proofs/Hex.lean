import WorkerCluster.Hex
import WorkerCluster.Proofs.Text.Utf8

/-!
# Hexadecimal digits read back

`number?_fixed` reads the digits that `Hex.fixed` writes.
-/

namespace WorkerCluster.Hex

open Text (utf8)

@[simp] theorem length_fixed (count n : ℕ) : (fixed count n).length = count := by
  induction count generalizing n with
  | zero => rfl
  | succ k ih => simp [fixed, ih]

theorem toNat_lowerDigit : ∀ m < 16, (lowerDigit m).toNat < 128 ∧
    digitValue? (lowerDigit m).toNat.toUInt8 = some m := by decide

theorem utf8_lowerDigit {m : ℕ} (h : m < 16) :
    utf8 [lowerDigit m] = [(lowerDigit m).toNat.toUInt8] :=
  Text.utf8_cons_of_lt (toNat_lowerDigit m h).1 []

/-- What is true of all digits is true of those that are written. -/
theorem of_mem_fixed {P : Char → Prop} (digit : ∀ m < 16, P (lowerDigit m)) {count n : ℕ} {c : Char}
    (h : c ∈ fixed count n) : P c := by
  induction count generalizing n with
  | zero => cases h
  | succ k ih =>
    rcases List.mem_append.1 h with h | h
    · exact ih h
    · rw [List.mem_singleton.1 h]
      exact digit _ (Nat.mod_lt _ (by decide))

theorem toNat_lt_of_mem_fixed {count n : ℕ} {c : Char} (h : c ∈ fixed count n) :
    c.toNat < 128 :=
  of_mem_fixed (P := fun c => c.toNat < 128) (fun m hm => (toNat_lowerDigit m hm).1) h

theorem isAlphanum_of_mem_fixed {count n : ℕ} {c : Char} (h : c ∈ fixed count n) :
    c.isAlphanum = true :=
  of_mem_fixed (P := fun c => c.isAlphanum = true) (by decide) h

theorem length_utf8_fixed (count n : ℕ) : (utf8 (fixed count n)).length = count := by
  rw [Text.utf8_eq_map fun c => toNat_lt_of_mem_fixed, List.length_map, length_fixed]

theorem number?_append (ds : List UInt8) (b : UInt8) :
    number? (ds ++ [b]) = (number? ds).bind fun n => (digitValue? b).map (16 * n + ·) := by
  unfold number?
  rw [List.foldlM_append]
  cases ds.foldlM (fun n b => (digitValue? b).map (16 * n + ·)) 0 with
  | none => rfl
  | some n => cases h : digitValue? b <;> simp [h]

/-- The digits of a number are read as the number, as far as they go. -/
theorem number?_fixed (count n : ℕ) : number? (utf8 (fixed count n)) = some (n % 16 ^ count) := by
  induction count generalizing n with
  | zero => simp [fixed, number?, Nat.mod_one]
  | succ k ih =>
    have hm : n % 16 < 16 := Nat.mod_lt _ (by decide)
    rw [fixed, Text.utf8_append, utf8_lowerDigit hm, number?_append, ih, Option.bind_some,
      (toNat_lowerDigit _ hm).2, Option.map_some, Nat.pow_succ', Nat.mod_mul, Nat.add_comm]

end WorkerCluster.Hex
