import WorkerCluster.Proofs.Config
import WorkerCluster.Toml.Value

/-!
# Which texts are addresses

* `portText` gives all texts of a port: its digits, perhaps with zeros and a plus sign before them.
  `port?_eq_some_iff` says that there are no others.
* `parse_eq_ok_iff` says which texts are those of an address.
* `stable_text` is the main statement: what has been read is read back from the one text in which it
  is written.
-/

namespace WorkerCluster.Address

open Json (IsDigits isDigits_append isDigits_of_cons isDigits_replicate isDigits_toDigits
  toNat_of_isDigit Reading Source Codec)

/-- A text of a port. -/
def portText (plus : Bool) (zeros : ℕ) (port : UInt16) : List Char :=
  (if plus then ['+'] else []) ++ (List.replicate zeros '0' ++ Nat.toDigits 10 port.toNat)

/-! ### Digits -/

theorem toDigits_of_isDigit {c : Char} (h : c.isDigit = true) :
    Nat.toDigits 10 (c.toNat - 48) = [c] := by
  obtain ⟨low, high⟩ := toNat_of_isDigit h
  rw [Nat.toDigits_of_lt_base (by omega), List.singleton_inj, ← Char.toNat_inj,
    Nat.toNat_digitChar_of_lt_ten (by omega)]
  omega

/-- All digits of a number are those with which it is written, with zeros before them. -/
theorem exists_replicate_append {cs : List Char} (h : IsDigits cs) (ne : cs ≠ []) :
    ∃ zeros, cs = List.replicate zeros '0' ++ Nat.toDigits 10 (Nat.ofDigitChars 10 cs 0) := by
  induction cs using List.reverseRecOn with
  | nil => exact absurd rfl ne
  | append_singleton cs c ih =>
    have digits : IsDigits cs := fun d hd => h d (List.mem_append_left _ hd)
    have digit : c.isDigit = true := h c (List.mem_append_right _ (List.mem_singleton_self c))
    have last : c.toNat - 48 < 10 := by
      have := toNat_of_isDigit digit
      omega
    have number : Nat.ofDigitChars 10 (cs ++ [c]) 0 =
        10 * Nat.ofDigitChars 10 cs 0 + (c.toNat - 48) := Nat.ofDigitChars_append 0
    rw [number]
    obtain rfl | more := eq_or_ne cs []
    · exact ⟨0, (toDigits_of_isDigit digit).symm.trans (by simp)⟩
    · obtain ⟨zeros, written⟩ := ih digits more
      obtain zero | pos := (Nat.ofDigitChars 10 cs 0).eq_zero_or_pos
      · -- so far there are only zeros, and the last of them is no digit of the number either
        rw [zero] at written ⊢
        refine ⟨zeros + 1, ?_⟩
        rw [Nat.mul_zero, Nat.zero_add, toDigits_of_isDigit digit, written, List.replicate_succ']
        rfl
      · refine ⟨zeros, ?_⟩
        rw [← Nat.toDigits_append_toDigits (by omega) pos last, toDigits_of_isDigit digit,
          ← List.append_assoc, ← written]

theorem digits?_eq_some {cs : List Char} {n : ℕ} (h : digits? cs = some n) :
    IsDigits cs ∧ cs ≠ [] ∧ n = Nat.ofDigitChars 10 cs 0 := by
  unfold digits? at h
  split at h
  · cases h
  · next ne =>
    split at h
    · next all => exact ⟨List.all_eq_true.1 all, ne, (Option.some.inj h).symm⟩
    · cases h

/-! ### Ports -/

theorem ne_nil_padded (zeros n : ℕ) : List.replicate zeros '0' ++ Nat.toDigits 10 n ≠ [] := by
  simp [Nat.toDigits_ne_nil]

theorem digits?_padded (zeros n : ℕ) :
    digits? (List.replicate zeros '0' ++ Nat.toDigits 10 n) = some n := by
  rw [digits?_of_isDigits (isDigits_append (isDigits_replicate zeros) (isDigits_toDigits n))
    (ne_nil_padded zeros n), Nat.ofDigitChars_append, Nat.ofDigitChars_replicate_zero]
  simp [Nat.ofDigitChars_ten_toDigits]

theorem port?_portText (plus : Bool) (zeros : ℕ) (port : UInt16) :
    port? (portText plus zeros port) = some port := by
  have read := digits?_padded zeros port.toNat
  have lt : port.toNat < UInt16.size := port.toNat_lt
  cases plus with
  | true => simp [port?, portText, read, lt]
  | false =>
    have bare : portText false zeros port =
      List.replicate zeros '0' ++ Nat.toDigits 10 port.toNat := rfl
    rw [bare, port?, read]
    · simp [lt]
    · -- no digit is a plus sign
      intro rest plus
      have digits := isDigits_append (isDigits_replicate zeros) (isDigits_toDigits port.toNat)
      cases digits '+' (plus ▸ List.mem_cons_self ..)

theorem exists_portText {cs : List Char} {n : ℕ} {port : UInt16} (digits : digits? cs = some n)
    (fits : (if n < UInt16.size then some n.toUInt16 else none) = some port) :
    ∃ zeros, cs = List.replicate zeros '0' ++ Nat.toDigits 10 port.toNat := by
  obtain ⟨h, ne, rfl⟩ := digits?_eq_some digits
  split at fits
  · next lt =>
    obtain rfl := Option.some.inj fits
    obtain ⟨zeros, written⟩ := exists_replicate_append h ne
    refine ⟨zeros, ?_⟩
    rwa [show (Nat.toUInt16 (Nat.ofDigitChars 10 cs 0)).toNat = Nat.ofDigitChars 10 cs 0 from
      Nat.mod_eq_of_lt lt]
  · cases fits

/-- **The texts of a port are its digits**, with any zeros and perhaps a plus sign before them. -/
theorem port?_eq_some_iff {cs : List Char} {port : UInt16} :
    port? cs = some port ↔ ∃ plus zeros, cs = portText plus zeros port := by
  constructor
  · intro h
    unfold port? at h
    dsimp only at h
    split at h
    · next n digits =>
      split at digits
      · next rest =>
        obtain ⟨zeros, rfl⟩ := exists_portText digits h
        exact ⟨true, zeros, rfl⟩
      · obtain ⟨zeros, rfl⟩ := exists_portText digits h
        exact ⟨false, zeros, rfl⟩
    · cases h
  · rintro ⟨plus, zeros, rfl⟩
    exact port?_portText plus zeros port

/-! ### Addresses -/

theorem splitLast_eq_some {cs host port : List Char} (h : splitLast cs = some (host, port)) :
    cs = host ++ ':' :: port := by
  induction cs generalizing host with
  | nil => cases h
  | cons c cs ih =>
    rw [splitLast] at h
    split at h
    · next before after found =>
      obtain ⟨rfl, rfl⟩ := Prod.mk.inj (Option.some.inj h)
      rw [ih found]
      rfl
    · split at h
      · next colon =>
        obtain ⟨rfl, rfl⟩ := Prod.mk.inj (Option.some.inj h)
        rw [colon]
        rfl
      · cases h

theorem colon_not_mem_portText (plus : Bool) (zeros : ℕ) (port : UInt16) :
    ':' ∉ portText plus zeros port := by
  have digits := isDigits_append (isDigits_replicate zeros) (isDigits_toDigits port.toNat)
  have colon : ':' ∉ List.replicate zeros '0' ++ Nat.toDigits 10 port.toNat := fun mem => by
    cases digits ':' mem
  cases plus <;> simp [portText, List.mem_append] at colon ⊢ <;> exact colon

/-- **A text is that of an address if its port follows the last colon, and its host comes
before.** -/
theorem parse_eq_ok_iff {text : String} {a : Address} : parse text = .ok a ↔
    a.host ≠ "" ∧
      ∃ plus zeros, text.toList = a.host.toList ++ ':' :: portText plus zeros a.port := by
  constructor
  · intro h
    refine ⟨host_ne_of_parse h, ?_⟩
    unfold parse at h
    split at h
    · cases h
    · cases h
    · next host port _ found =>
      split at h
      · next p read =>
        obtain rfl := Except.ok.inj h
        obtain ⟨plus, zeros, rfl⟩ := port?_eq_some_iff.1 read
        exact ⟨plus, zeros, by rw [splitLast_eq_some found, String.toList_ofList]⟩
      · cases h
  · rintro ⟨ne, plus, zeros, written⟩
    obtain ⟨c, host, hhost⟩ := List.exists_cons_of_ne_nil (mt String.toList_eq_nil_iff.1 ne)
    rw [parse, written, splitLast_append _ (colon_not_mem_portText plus zeros a.port), hhost]
    dsimp only
    rw [port?_portText, ← hhost, String.ofList_toList]

/-- **Addresses are read back from their texts**, and what has been read from any text is read back
from the one in which it is written, be it in JSON or in a configuration. -/
theorem stable_text :
    (∀ a : Address, a.host ≠ "" → parse a.text = .ok a) ∧
      (∀ (a : Address) (plus : Bool) (zeros : ℕ), a.host ≠ "" →
        parse (String.ofList (a.host.toList ++ ':' :: portText plus zeros a.port)) = .ok a) ∧
      (∀ text a, parse text = .ok a → parse a.text = .ok a) ∧
      ∀ r s a, codec.decode r s = .ok a → codec.encode a = .string a.text ∧
        codec.read (codec.encode a).bytes = .ok a ∧
        codec.decode .lenient (Toml.Value.string a.text).source = .ok a := by
  refine ⟨fun a => parse_text_of_host, fun a plus zeros ne => ?_,
    fun text a h => parse_text_of_host (host_ne_of_parse h), fun r s a h => ?_⟩
  · exact parse_eq_ok_iff.2 ⟨ne, plus, zeros, String.toList_ofList⟩
  · have reads := codec_reads (host_ne_of_decode h)
    exact ⟨rfl, reads.read_bytes (Nat.zero_le _), reads .lenient trivial⟩

theorem stable_text_colons :
    parse "::1:+0080" = .ok ⟨"::1", 80⟩ ∧ parse (Address.mk "::1" 80).text = .ok ⟨"::1", 80⟩ := by
  have read : parse "::1:+0080" = .ok ⟨"::1", 80⟩ := by decide
  exact ⟨read, stable_text.2.2.1 "::1:+0080" ⟨"::1", 80⟩ read⟩

end WorkerCluster.Address
