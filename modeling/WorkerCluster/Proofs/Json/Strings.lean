import WorkerCluster.Json.Source
import WorkerCluster.Proofs.Hex

/-!
# Quoted texts

The scanner of strings undoes `escape`: `scanString_quote` reads a text back from its quoted form.
-/

namespace WorkerCluster.Json

open Text (utf8 utf8_cons utf8_cons_of_lt)

/-- A byte that stands for itself within quotes. -/
def IsPlain (b : UInt8) : Prop := b ≠ 34 ∧ b ≠ 92 ∧ ¬ b < 32

theorem isPlain_of_toNat {b : UInt8} (quote : b.toNat ≠ 34) (backslash : b.toNat ≠ 92)
    (control : 32 ≤ b.toNat) : IsPlain b := by
  refine ⟨?_, ?_, ?_⟩
  · rintro rfl
    exact quote rfl
  · rintro rfl
    exact backslash rfl
  · rw [UInt8.lt_iff_toNat_lt]
    exact not_lt.2 control

theorem char_eq {c : Char} {n : ℕ} (h : c.toNat = n) : c = Char.ofNat n := by
  rw [← h, Char.ofNat_toNat]

/-- A character that is written as it is has plain bytes only. -/
theorem isPlain_of_mem_utf8EncodeChar {c : Char} (quote : c ≠ '"') (backslash : c ≠ '\\')
    (control : ¬ c.toNat < 32) {b : UInt8} (hb : b ∈ String.utf8EncodeChar c) : IsPlain b := by
  by_cases h : c.toNat < 128
  · rw [Text.utf8EncodeChar_of_lt h, List.mem_singleton] at hb
    have hc : c.toNat.toUInt8.toNat = c.toNat := Nat.mod_eq_of_lt (by omega)
    subst hb
    refine isPlain_of_toNat ?_ ?_ ?_
    · rw [hc]
      exact fun e => quote (char_eq e)
    · rw [hc]
      exact fun e => backslash (char_eq e)
    · rw [hc]
      exact not_lt.1 control
  · -- no byte of a longer character is one of those below 128
    have high : 128 ≤ b.toNat := Text.le_of_mem_utf8EncodeChar (not_lt.1 h) hb
    exact isPlain_of_toNat (by omega) (by omega) (by omega)

theorem scanString_plain {l : List UInt8} (h : ∀ b ∈ l, IsPlain b) (content rest : List UInt8) :
    scanString .plain content false (l ++ rest) =
      scanString .plain (l.reverse ++ content) false rest := by
  induction l generalizing content with
  | nil => rfl
  | cons b l ih =>
    obtain ⟨h₁, h₂, h₃⟩ := h b (List.mem_cons_self ..)
    rw [List.cons_append, scanString, if_neg h₁, if_neg h₂, if_neg h₃,
      ih fun b hb => h b (List.mem_cons_of_mem _ hb), List.reverse_cons, List.append_assoc]
    rfl

/-- A character that is written as a backslash and a letter. -/
theorem scanString_short {b c : UInt8} (hb : b ≠ 117) (hc : shortEscape? b = some c)
    (content rest : List UInt8) :
    scanString .plain content false (92 :: b :: rest) =
      scanString .plain (c :: content) false rest := by
  rw [scanString, if_neg (by decide), if_pos rfl, scanString, if_neg hb, hc]

/-- A character that is written as four digits. -/
theorem scanString_digits {ds : List UInt8} (hl : ds.length = 4) {n : ℕ} (hn : n < 0xD800)
    (hd : Hex.number? ds = some n) (content rest : List UInt8) :
    scanString .plain content false (92 :: 117 :: (ds ++ rest)) =
      scanString .plain ((utf8Bytes n).reverse ++ content) false rest := by
  match ds, hl with
  | [d₀, d₁, d₂, d₃], _ =>
    have h₁ : ¬ (0xDC00 ≤ n ∧ n ≤ 0xDFFF) := by omega
    have h₂ : ¬ (0xD800 ≤ n ∧ n ≤ 0xDBFF) := by omega
    simp only [List.cons_append, List.nil_append, scanString]
    simp [hd, h₁, h₂]

theorem utf8Bytes_eq {c : Char} : utf8Bytes c.toNat = String.utf8EncodeChar c := by
  rw [utf8Bytes, Char.ofNat_toNat, Text.toUTF8_toList, String.toList_singleton]
  exact List.append_nil _

/-- A control character without a letter of its own. -/
theorem scanString_control {c : Char} (h : c.toNat < 32) (content rest : List UInt8) :
    scanString .plain content false
        (utf8 ('\\' :: 'u' :: Hex.fixed 4 c.toNat) ++ rest) =
      scanString .plain ((String.utf8EncodeChar c).reverse ++ content) false rest := by
  have := scanString_digits (Hex.length_utf8_fixed 4 c.toNat) (show c.toNat < 0xD800 by omega)
    (by rw [Hex.number?_fixed, Nat.mod_eq_of_lt (by omega)]) content rest
  rw [utf8Bytes_eq] at this
  rw [← this, utf8_cons_of_lt (by decide), utf8_cons_of_lt (by decide)]
  rfl

theorem scanString_escape (c : Char) (content rest : List UInt8) :
    scanString .plain content false (utf8 (escape c) ++ rest) =
      scanString .plain ((String.utf8EncodeChar c).reverse ++ content) false rest := by
  unfold escape
  split
  · rename_i h; subst h; exact scanString_short (by decide) rfl content rest
  split
  · rename_i h; subst h; exact scanString_short (by decide) rfl content rest
  split
  · rename_i h; subst h; exact scanString_short (by decide) rfl content rest
  split
  · rename_i h; subst h; exact scanString_short (by decide) rfl content rest
  split
  · rename_i h; subst h; exact scanString_short (by decide) rfl content rest
  split
  · rename_i h; cases char_eq h; exact scanString_short (by decide) rfl content rest
  split
  · rename_i h; cases char_eq h; exact scanString_short (by decide) rfl content rest
  split
  · rename_i h
    exact scanString_control h content rest
  · rename_i quote backslash _ _ _ _ _ control
    rw [utf8_cons, Text.utf8_nil, List.append_nil]
    exact scanString_plain (fun b => isPlain_of_mem_utf8EncodeChar quote backslash control)
      content rest

theorem scanString_chars (cs : List Char) (content rest : List UInt8) :
    scanString .plain content false (utf8 (cs.flatMap escape) ++ 34 :: rest) =
      (stringAtom (content.reverse ++ utf8 cs) false, some rest) := by
  induction cs generalizing content with
  | nil =>
    rw [List.flatMap_nil, Text.utf8_nil, List.nil_append, scanString, if_pos rfl, List.append_nil]
  | cons c cs ih =>
    rw [List.flatMap_cons, Text.utf8_append, List.append_assoc, scanString_escape, ih,
      List.reverse_append, List.reverse_reverse, List.append_assoc, utf8_cons]

/-- **A quoted text is read back.** -/
theorem scanString_quote (s : String) (rest : List UInt8) :
    scanString .plain [] false (utf8 (s.toList.flatMap escape) ++ 34 :: rest) =
      (.ofScalar (.string s), some rest) := by
  rw [scanString_chars, List.reverse_nil, List.nil_append, stringAtom, Text.fromUTF8?_utf8]
  rfl

theorem utf8_quote (s : String) :
    utf8 (quote s).toList = 34 :: (utf8 (s.toList.flatMap escape) ++ [34]) := by
  rw [quote, String.toList_append, String.toList_append, Text.utf8_append, Text.utf8_append]
  simp only [String.toList_ofList]
  rfl

end WorkerCluster.Json
