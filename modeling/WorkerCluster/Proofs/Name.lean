import Mathlib.Data.List.Basic
import WorkerCluster.Name
import WorkerCluster.Proofs.Json.Numbers
import WorkerCluster.Proofs.Text.Utf8
import WorkerCluster.Worker.Identity

/-!
# Names of tasks and workers

* `IsName` says what a name is, character by character; `isValidName_iff` compares the test with it.
* `WorkerId.name_inj` is the main fact about workers: those that have the same name agree in task
  and number, although tasks may have hyphens and digits in their names.
-/

namespace WorkerCluster

open Json (IsDigits isDigits_toDigits)

/-! ### Tasks -/

/-- A name: one to 64 characters, which are letters and digits of ASCII, hyphens, underscores and
dots. The last one is no hyphen. -/
structure IsName (s : String) : Prop where
  nonempty : s ≠ ""
  short : s.length ≤ 64
  chars : ∀ c ∈ s.toList, c.isAlphanum = true ∨ c = '-' ∨ c = '_' ∨ c = '.'
  last : s.toList.getLast? ≠ some '-'

theorem isNameChar_iff {c : Char} :
    isNameChar c = true ↔ c.isAlphanum = true ∨ c = '-' ∨ c = '_' ∨ c = '.' := by
  simp only [isNameChar, Bool.or_eq_true, decide_eq_true_eq, or_assoc]

/-- Letters and digits are characters of ASCII. -/
theorem toNat_lt_of_isAlphanum {c : Char} (h : c.isAlphanum = true) : c.toNat < 128 := by
  have below {b : Char} (ascii : b.toNat < 128) (le : c.val ≤ b.val) : c.toNat < 128 :=
    (UInt32.le_iff_toNat_le.1 le).trans_lt ascii
  obtain letter | digit := Bool.or_eq_true_iff.1 h
  · obtain upper | lower := Bool.or_eq_true_iff.1 letter
    · exact below (b := 'Z') (by decide) (of_decide_eq_true upper).2
    · exact below (b := 'z') (by decide) (of_decide_eq_true (Bool.and_eq_true_iff.1 lower).2)
  · exact below (b := '9') (by decide) (of_decide_eq_true (Bool.and_eq_true_iff.1 digit).2)

/-- Characters of names are characters of ASCII. -/
theorem toNat_lt_of_isNameChar {c : Char} (h : isNameChar c = true) : c.toNat < 128 := by
  obtain h | rfl | rfl | rfl := isNameChar_iff.1 h
  · exact toNat_lt_of_isAlphanum h
  all_goals decide

/-- Such texts have as many bytes as characters. -/
theorem utf8ByteSize_of_isNameChar {s : String} (h : ∀ c ∈ s.toList, isNameChar c = true) :
    s.utf8ByteSize = s.length := by
  rw [← Text.size_toUTF8, ← ByteArray.size_data, ← Array.length_toList, ← Text.toList_eq,
    Text.toUTF8_toList, Text.utf8_eq_map fun c hc => toNat_lt_of_isNameChar (h c hc),
    List.length_map, String.length_toList]

/-- **The test accepts names and nothing else.** -/
theorem isValidName_iff {s : String} : isValidName s = true ↔ IsName s := by
  have nonempty : s.isEmpty = false ↔ s ≠ "" := by simp
  simp only [isValidName, Bool.and_eq_true, Bool.not_eq_true', nonempty, bne_iff_ne,
    decide_eq_true_eq, List.all_eq_true]
  constructor
  · rintro ⟨⟨⟨nonempty, short⟩, last⟩, chars⟩
    rw [utf8ByteSize_of_isNameChar chars] at short
    exact ⟨nonempty, short, fun c hc => isNameChar_iff.1 (chars c hc), last⟩
  · rintro ⟨nonempty, short, chars, last⟩
    have chars : ∀ c ∈ s.toList, isNameChar c = true := fun c hc => isNameChar_iff.2 (chars c hc)
    rw [← utf8ByteSize_of_isNameChar chars] at short
    exact ⟨⟨⟨nonempty, short⟩, last⟩, chars⟩

/-! ### Workers -/

namespace WorkerId

theorem toList_name (w : WorkerId) :
    w.name.toList = w.task.toList ++ '-' :: Nat.toDigits 10 w.number.toNat := by
  rw [name, String.toList_append, String.toList_append, List.append_assoc, Nat.toString_eq_repr,
    Nat.toList_repr]
  rfl

theorem hyphen_not_mem_toDigits (n : ℕ) : '-' ∉ Nat.toDigits 10 n := fun hyphen => by
  have := isDigits_toDigits _ _ hyphen
  cases this

/-- What stands behind the last hyphen of two texts that are the same is the same. -/
theorem append_hyphen_inj {a b c d : List Char} (behind : '-' ∉ b) (behind' : '-' ∉ d)
    (same : a ++ '-' :: b = c ++ '-' :: d) : a = c ∧ b = d := by
  -- a hyphen further to the right in one text would stand behind the last one of the other
  obtain ⟨e, rfl, split⟩ | ⟨e, rfl, split⟩ := List.append_eq_append_iff.1 same
  · cases e with
    | nil => exact ⟨(List.append_nil a).symm, List.tail_eq_of_cons_eq split⟩
    | cons x e =>
      have tail : b = e ++ '-' :: d := List.tail_eq_of_cons_eq split
      exact absurd (tail ▸ List.mem_append_right e (List.mem_cons_self ..)) behind
  · cases e with
    | nil => exact ⟨List.append_nil c, (List.tail_eq_of_cons_eq split).symm⟩
    | cons x e =>
      have tail : d = e ++ '-' :: b := List.tail_eq_of_cons_eq split
      exact absurd (tail ▸ List.mem_append_right e (List.mem_cons_self ..)) behind'

/-- **Workers have the same name only if they have the same number of the same task.** The last
hyphen of a name is the one before the number, whatever the name of the task is. -/
theorem name_inj {v w : WorkerId} : v.name = w.name ↔ v.task = w.task ∧ v.number = w.number := by
  constructor
  · intro same
    have split := congrArg String.toList same
    rw [toList_name, toList_name] at split
    obtain ⟨task, digits⟩ :=
      append_hyphen_inj (hyphen_not_mem_toDigits _) (hyphen_not_mem_toDigits _) split
    have numbers := congrArg (Nat.ofDigitChars 10 · 0) digits
    rw [Nat.ofDigitChars_ten_toDigits, Nat.ofDigitChars_ten_toDigits] at numbers
    exact ⟨String.toList_inj.1 task, UInt32.toNat_inj.1 numbers⟩
  · rintro ⟨task, number⟩
    rw [name, name, task, number]

theorem hyphen_mem_name (w : WorkerId) : '-' ∈ w.name.toList := by
  rw [toList_name]
  exact List.mem_append_right _ (List.mem_cons_self ..)

/-- Names of workers are written with the characters of names. -/
theorem isNameChar_of_mem_name {w : WorkerId} (task : IsName w.task) {c : Char}
    (h : c ∈ w.name.toList) : isNameChar c = true := by
  rw [toList_name, List.mem_append, List.mem_cons] at h
  obtain h | rfl | h := h
  · exact isNameChar_iff.2 (task.chars c h)
  · rfl
  · refine isNameChar_iff.2 (.inl ?_)
    rw [Char.isAlphanum, isDigits_toDigits _ c h, Bool.or_true]

end WorkerId

end WorkerCluster
