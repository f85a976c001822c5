import WorkerCluster.Proofs.Hex
import WorkerCluster.Uuid

/-!
# Identifiers read back

* `parse?_text` reads an identifier back from its hyphenated form.
* `isAlphanum_of_mem_compact` says what the form without hyphens is made of.
-/

namespace WorkerCluster.Uuid

open Text (utf8)

/-- Bytes in groups of 8, 4, 4, 4 and 12 with hyphens between them. -/
def hyphenated (b : List UInt8) : List UInt8 :=
  b.take 8 ++ 45 :: (b.drop 8).take 4 ++ 45 :: (b.drop 12).take 4 ++ 45 :: (b.drop 16).take 4 ++
    45 :: b.drop 20

theorem utf8_text (u : Uuid) : u.text.toUTF8.toList = hyphenated (utf8 u.digits) := by
  have low : ∀ c ∈ u.digits, c.toNat < 128 := fun c hc => Hex.toNat_lt_of_mem_fixed hc
  have low' (k : ℕ) : ∀ c ∈ u.digits.drop k, c.toNat < 128 := fun c hc =>
    low c (List.mem_of_mem_drop hc)
  have hyphen (cs : List Char) : utf8 ('-' :: cs) = 45 :: utf8 cs :=
    Text.utf8_cons_of_lt (by decide) cs
  rw [Text.toUTF8_toList, text, String.toList_ofList, hyphenated]
  simp only [Text.utf8_append, hyphen, Text.utf8_take low,
    Text.utf8_take (low' _), Text.utf8_drop low]

/-- Sixteen bytes in two digits each, with their hyphens. -/
theorem length_hyphenated {b : List UInt8} (h : b.length = 32) : (hyphenated b).length = 36 := by
  simp [hyphenated, h]

/-- The digits are found again between the hyphens. -/
theorem ofHyphenated?_hyphenated {b : List UInt8} (h : b.length = 32) :
    ofHyphenated? (hyphenated b) = ofDigits? b := by
  obtain ⟨b₁, b₂, b₃, b₄, b₅, rfl, h₁, h₂, h₃, h₄⟩ : ∃ b₁ b₂ b₃ b₄ b₅ : List UInt8,
      b = b₁ ++ (b₂ ++ (b₃ ++ (b₄ ++ b₅))) ∧ b₁.length = 8 ∧ b₂.length = 4 ∧ b₃.length = 4 ∧
        b₄.length = 4 := by
    refine ⟨b.take 8, (b.drop 8).take 4, (b.drop 12).take 4, (b.drop 16).take 4, b.drop 20, ?_,
      by simp [h], by simp [h], by simp [h], by simp [h]⟩
    have split (k l : ℕ) : b.drop k = (b.drop k).take l ++ b.drop (k + l) := by
      rw [← List.drop_drop, List.take_append_drop]
    rw [← split 16 4, ← split 12 4, ← split 8 4, List.take_append_drop]
  have groups : hyphenated (b₁ ++ (b₂ ++ (b₃ ++ (b₄ ++ b₅)))) =
      b₁ ++ 45 :: (b₂ ++ 45 :: (b₃ ++ 45 :: (b₄ ++ 45 :: b₅))) := by
    simp (disch := omega) [hyphenated, List.drop_append, List.drop_of_length_le, h₁, h₂, h₃]
  have h₅ : b₅.length = 12 := by
    simp only [List.length_append] at h
    omega
  rw [groups, ofHyphenated?, if_pos]
  · simp (disch := omega) [List.drop_append, List.drop_of_length_le, h₁, h₂, h₃, h₄]
  · refine ⟨by simp [h₁, h₂, h₃, h₄, h₅], ?_, ?_, ?_, ?_⟩ <;>
      simp (disch := omega) only [List.getElem?_append_right, List.getElem?_cons_succ, h₁, h₂, h₃,
        h₄] <;> rfl

/-- The digits of an identifier are read as that identifier. -/
theorem ofDigits?_digits (u : Uuid) : ofDigits? (utf8 u.digits) = some u := by
  have digits : (utf8 u.digits).length = 32 := Hex.length_utf8_fixed 32 _
  have value : u.value.toNat % 16 ^ 32 = u.value.toNat := Nat.mod_eq_of_lt u.value.isLt
  rw [ofDigits?, if_pos digits, Uuid.digits, Hex.number?_fixed, value, Option.map_some, ofNat,
    BitVec.ofNat_toNat, BitVec.setWidth_eq]

/-- **An identifier is read back from its text.** -/
theorem parse?_text (u : Uuid) : parse? u.text = some u := by
  have digits : (utf8 u.digits).length = 32 := Hex.length_utf8_fixed 32 _
  unfold parse?
  dsimp only
  rw [utf8_text, length_hyphenated digits]
  exact (ofHyphenated?_hyphenated digits).trans (ofDigits?_digits u)

/-! ### The form without hyphens -/

theorem isAlphanum_of_mem_compact {u : Uuid} {c : Char} (h : c ∈ u.compact.toList) :
    c.isAlphanum = true := by
  rw [compact, String.toList_ofList] at h
  exact Hex.isAlphanum_of_mem_fixed h

end WorkerCluster.Uuid
