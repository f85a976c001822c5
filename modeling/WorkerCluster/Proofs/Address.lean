import WorkerCluster.Address
import WorkerCluster.Proofs.Json.Numbers

/-!
# Addresses read back

`parse_text_of_host` reads an address with a host back from its text. One without a host is not read
back: `parse_text_of_no_host`.
-/

namespace WorkerCluster.Address

open Json (IsDigits isDigits_toDigits)

theorem splitLast_of_not_mem {cs : List Char} (h : ':' ∉ cs) : splitLast cs = none := by
  induction cs with
  | nil => rfl
  | cons c cs ih =>
    rw [List.mem_cons, not_or] at h
    rw [splitLast, ih h.2]
    exact if_neg fun e => h.1 e.symm

/-- The last colon is the one behind which there is no other. -/
theorem splitLast_append (host : List Char) {port : List Char} (h : ':' ∉ port) :
    splitLast (host ++ ':' :: port) = some (host, port) := by
  induction host with
  | nil =>
    rw [List.nil_append, splitLast, splitLast_of_not_mem h]
    rfl
  | cons c host ih => rw [List.cons_append, splitLast, ih]

theorem digits?_of_isDigits {cs : List Char} (h : IsDigits cs) (hne : cs ≠ []) :
    digits? cs = some (Nat.ofDigitChars 10 cs 0) := by
  obtain ⟨c, cs, rfl⟩ := List.exists_cons_of_ne_nil hne
  exact if_pos (List.all_eq_true.2 h)

theorem port?_toDigits (port : UInt16) :
    port? (Nat.toDigits 10 port.toNat) = some port := by
  have digits := isDigits_toDigits port.toNat
  have read : digits? (Nat.toDigits 10 port.toNat) = some port.toNat := by
    rw [digits?_of_isDigits digits Nat.toDigits_ne_nil, Nat.ofDigitChars_ten_toDigits]
  have lt : port.toNat < UInt16.size := port.toNat_lt
  unfold port?
  split
  · rename_i rest h
    have := digits '+' (h ▸ List.mem_cons_self ..)
    cases this
  · rw [read]
    dsimp only
    rw [if_pos lt]
    simp

theorem colon_not_mem_toDigits (n : ℕ) : ':' ∉ Nat.toDigits 10 n := fun colon => by
  have := isDigits_toDigits _ _ colon
  cases this

theorem toList_text (a : Address) :
    a.text.toList = a.host.toList ++ ':' :: Nat.toDigits 10 a.port.toNat := by
  rw [text, String.toList_append, String.toList_append, List.append_assoc, Nat.toString_eq_repr,
    Nat.toList_repr]
  rfl

/-- **An address is read back from its text**, if it has a host. -/
theorem parse_text_of_host {a : Address} (h : a.host ≠ "") : parse a.text = .ok a := by
  obtain ⟨c, host, hhost⟩ : ∃ c host, a.host.toList = c :: host := by
    refine List.exists_cons_of_ne_nil fun hnil => h ?_
    rw [← String.toList_inj, hnil]
    rfl
  rw [parse, toList_text, splitLast_append _ (colon_not_mem_toDigits _), hhost]
  dsimp only
  rw [port?_toDigits, ← hhost, String.ofList_toList]

/-- The text of an address without a host is no address. -/
theorem parse_text_of_no_host {a : Address} (h : a.host = "") :
    parse a.text = .error (.emptyHost a.text) := by
  rw [parse, toList_text, splitLast_append _ (colon_not_mem_toDigits _), h]
  rfl

end WorkerCluster.Address
