import WorkerCluster.Json.Source
import WorkerCluster.Proofs.Binary64.Shortest
import WorkerCluster.Proofs.Text.Utf8

/-!
# Numbers read back

* `scanNumber_whole` and the lemmas after it say what the scanner of numbers makes of the parts of a
  number.
* `readsAs_digits` reads what `Layout.digits` writes as a decimal of the same value.
* `scanAtom_number` reads a number back from its text.
-/

namespace WorkerCluster.Json

open Binary64 Text

/-! ### Digits -/

/-- All characters are decimal digits. -/
def IsDigits (cs : List Char) : Prop := ∀ c ∈ cs, c.isDigit = true

/-- What follows a number goes on with no part of it. -/
def Stops : List UInt8 → Prop
  | [] => True
  | b :: _ => isDigit b = false ∧ b ≠ 46 ∧ b ≠ 69 ∧ b ≠ 101

theorem toNat_of_isDigit {c : Char} (h : c.isDigit = true) : 48 ≤ c.toNat ∧ c.toNat ≤ 57 := by
  simpa [Char.isDigit, UInt32.le_iff_toNat_le] using h

theorem utf8_digit {c : Char} (h : c.isDigit = true) (cs : List Char) :
    utf8 (c :: cs) = c.toNat.toUInt8 :: utf8 cs := by
  have := toNat_of_isDigit h
  exact utf8_cons_of_lt (by omega) cs

theorem toNat_digit {c : Char} (h : c.isDigit = true) : c.toNat.toUInt8.toNat = c.toNat := by
  have := toNat_of_isDigit h
  exact Nat.mod_eq_of_lt (by omega)

theorem isDigit_digit {c : Char} (h : c.isDigit = true) : isDigit c.toNat.toUInt8 = true := by
  have := toNat_of_isDigit h
  have hc := toNat_digit h
  unfold isDigit
  rw [Bool.and_eq_true, decide_eq_true_eq, decide_eq_true_eq, UInt8.le_iff_toNat_le,
    UInt8.le_iff_toNat_le, hc]
  exact this

theorem isDigits_of_cons {c : Char} {cs : List Char} (h : IsDigits (c :: cs)) :
    c.isDigit = true ∧ IsDigits cs :=
  ⟨h c (List.mem_cons_self ..), fun d hd => h d (List.mem_cons_of_mem _ hd)⟩

theorem isDigits_append {cs ds : List Char} (hc : IsDigits cs) (hd : IsDigits ds) :
    IsDigits (cs ++ ds) := fun c h => (List.mem_append.1 h).elim (hc c) (hd c)

theorem isDigits_replicate (n : ℕ) : IsDigits (List.replicate n '0') := by
  intro c hc
  rw [List.eq_of_mem_replicate hc]
  rfl

theorem isDigits_toDigits (n : ℕ) : IsDigits (Nat.toDigits 10 n) := fun _ hc =>
  Nat.isDigit_of_mem_toDigits (by decide) (by decide) hc

/-- The digits of a positive number do not begin with a zero. -/
theorem head_toDigits {n : ℕ} (hn : 0 < n) :
    ∃ c cs, Nat.toDigits 10 n = c :: cs ∧ c ≠ '0' := by
  induction n using Nat.strongRecOn with
  | ind n ih =>
    by_cases h : n < 10
    · refine ⟨n.digitChar, [], Nat.toDigits_of_lt_base h, ?_⟩
      interval_cases n <;> decide
    · obtain ⟨c, cs, hc, hne⟩ := ih (n / 10) (by omega) (by omega)
      refine ⟨c, cs ++ [(n % 10).digitChar], ?_, hne⟩
      rw [Nat.toDigits_of_base_le (by decide) (by omega), hc]
      rfl

theorem takeWhile_digits {cs : List Char} (h : IsDigits cs) (rest : List UInt8)
    (stop : ∀ b ∈ rest.head?, isDigit b = false) :
    (utf8 cs ++ rest).takeWhile isDigit = utf8 cs ∧
      (utf8 cs ++ rest).dropWhile isDigit = rest := by
  induction cs with
  | nil =>
    cases rest with
    | nil => exact ⟨rfl, rfl⟩
    | cons b rest =>
      have := stop b rfl
      simp [this]
  | cons c cs ih =>
    obtain ⟨hc, hcs⟩ := isDigits_of_cons h
    obtain ⟨ih₁, ih₂⟩ := ih hcs
    rw [utf8_digit hc, List.cons_append, List.takeWhile_cons, List.dropWhile_cons,
      isDigit_digit hc, if_pos rfl, if_pos rfl, ih₁, ih₂]
    exact ⟨rfl, rfl⟩

theorem decimal_utf8 {cs : List Char} (h : IsDigits cs) (n : ℕ) :
    decimal n (utf8 cs) = Nat.ofDigitChars 10 cs n := by
  induction cs generalizing n with
  | nil => simp [decimal]
  | cons c cs ih =>
    obtain ⟨hc, hcs⟩ := isDigits_of_cons h
    have := ih hcs (10 * n + (c.toNat - 48))
    unfold decimal at this ⊢
    rw [utf8_digit hc, List.foldl_cons, toNat_digit hc, this, Nat.ofDigitChars_cons]
    rfl

theorem length_utf8_digits {cs : List Char} (h : IsDigits cs) :
    (utf8 cs).length = cs.length := by
  induction cs with
  | nil => rfl
  | cons c cs ih =>
    obtain ⟨hc, hcs⟩ := isDigits_of_cons h
    rw [utf8_digit hc, List.length_cons, List.length_cons, ih hcs]

theorem isEmpty_utf8 {cs : List Char} (h : IsDigits cs) (hne : cs ≠ []) :
    (utf8 cs).isEmpty = false := by
  obtain ⟨c, cs, rfl⟩ := List.exists_cons_of_ne_nil hne
  rw [utf8_digit (isDigits_of_cons h).1]
  rfl

/-! ### Parts of numbers -/

/-- The digits before the point: a zero alone, or digits that begin with another one. -/
def IsWhole (w : List Char) : Prop :=
  IsDigits w ∧ (w = ['0'] ∨ ∃ c cs, w = c :: cs ∧ c ≠ '0')

/-- The atom of a number with a point or an exponent. -/
def floatAtom (negative : Bool) (digits : ℕ) (power : ℤ) : Atom :=
  ⟨.other, floatValue negative digits power, none⟩

variable {w p e : List Char} {t rest : List UInt8}

theorem stops_head (h : Stops rest) : ∀ b ∈ rest.head?, isDigit b = false := by
  intro b hb
  cases rest with
  | nil => cases hb
  | cons c rest =>
    cases hb
    exact h.1

theorem digit_ne_zero {c : Char} (hc : c.isDigit = true) (h : c ≠ '0') :
    c.toNat.toUInt8 ≠ 48 := by
  intro e
  have := toNat_digit hc
  rw [e] at this
  refine h (Char.toNat_inj.1 ?_)
  rw [← this]
  rfl

theorem scanNumber_whole (negative : Bool) (h : IsWhole w)
    (stop : ∀ b ∈ t.head?, isDigit b = false) :
    scanNumber negative (utf8 w ++ t) = scanTail negative (utf8 w) t := by
  obtain ⟨digits, form⟩ := h
  obtain ⟨take, drop⟩ := takeWhile_digits digits _ stop
  unfold scanNumber
  rw [take, drop]
  -- a zero may not be followed by other digits
  rcases form with rfl | ⟨c, cs, rfl, hne⟩
  · rfl
  · obtain ⟨hc, -⟩ := isDigits_of_cons digits
    have hne := digit_ne_zero hc hne
    rw [utf8_digit hc]
    split
    · rename_i h
      cases h
    · rename_i h
      exact absurd (List.cons.inj h).1 hne
    · rename_i h
      exact absurd (List.cons.inj h).1 hne
    · rfl

theorem scanTail_integer (negative : Bool) (h : IsDigits w) (stops : Stops rest) :
    scanTail negative (utf8 w) rest =
      (⟨.other, integerValue negative (Nat.ofDigitChars 10 w 0), none⟩, some rest) := by
  unfold scanTail
  rw [decimal_utf8 h]
  dsimp only
  split
  · exact absurd rfl stops.2.1
  · exact absurd rfl stops.2.2.1
  · exact absurd rfl stops.2.2.2
  · rfl

theorem scanTail_cons_point (negative : Bool) (whole text : List UInt8) :
    scanTail negative whole (46 :: text) =
      if (text.takeWhile isDigit).isEmpty then brokenNumber text
      else
        match text.dropWhile isDigit with
        | 69 :: rest | 101 :: rest =>
          scanExponent negative (decimal (decimal 0 whole) (text.takeWhile isDigit))
            (-(text.takeWhile isDigit).length) rest
        | _ =>
          (floatAtom negative (decimal (decimal 0 whole) (text.takeWhile isDigit))
            (-(text.takeWhile isDigit).length), some (text.dropWhile isDigit)) := rfl

theorem scanTail_point (negative : Bool) (h : IsDigits w) (hp : IsDigits p) (hne : p ≠ [])
    (stops : Stops rest) :
    scanTail negative (utf8 w) (46 :: (utf8 p ++ rest)) =
      (floatAtom negative (Nat.ofDigitChars 10 (w ++ p) 0) (-p.length), some rest) := by
  obtain ⟨take, drop⟩ := takeWhile_digits hp _ (stops_head stops)
  rw [scanTail_cons_point, take, drop, isEmpty_utf8 hp hne, decimal_utf8 h, decimal_utf8 hp,
    length_utf8_digits hp, ← Nat.ofDigitChars_append, if_neg (by simp)]
  split
  · exact absurd rfl stops.2.2.1
  · exact absurd rfl stops.2.2.2
  · rfl

theorem scanTail_pointExponent (negative : Bool) (h : IsDigits w) (hp : IsDigits p)
    (hne : p ≠ []) :
    scanTail negative (utf8 w) (46 :: (utf8 p ++ 101 :: t)) =
      scanExponent negative (Nat.ofDigitChars 10 (w ++ p) 0) (-p.length) t := by
  obtain ⟨take, drop⟩ := takeWhile_digits hp (101 :: t) (by rintro b ⟨⟩; rfl)
  rw [scanTail_cons_point, take, drop, isEmpty_utf8 hp hne, decimal_utf8 h, decimal_utf8 hp,
    length_utf8_digits hp, ← Nat.ofDigitChars_append]
  rfl

theorem scanTail_exponent (negative : Bool) (h : IsDigits w) :
    scanTail negative (utf8 w) (101 :: t) =
      scanExponent negative (Nat.ofDigitChars 10 w 0) 0 t := by
  unfold scanTail
  rw [decimal_utf8 h]
  rfl

/-- The byte of the sign of an exponent. -/
def signByte (minus : Bool) : UInt8 := if minus then 45 else 43

theorem scanExponent_cons (negative : Bool) (digits : ℕ) (power : ℤ) (minus : Bool)
    (text : List UInt8) :
    scanExponent negative digits power (signByte minus :: text) =
      if (text.takeWhile isDigit).isEmpty then brokenNumber text
      else
        (floatAtom negative digits (power +
          if minus then -(decimal 0 (text.takeWhile isDigit) : ℤ)
          else decimal 0 (text.takeWhile isDigit)), some (text.dropWhile isDigit)) := by
  cases minus <;> rfl

theorem scanExponent_signed (negative : Bool) (digits : ℕ) (power : ℤ) (minus : Bool)
    (he : IsDigits e) (hne : e ≠ []) (stops : Stops rest) :
    scanExponent negative digits power (signByte minus :: (utf8 e ++ rest)) =
      (floatAtom negative digits (power +
        if minus then -(Nat.ofDigitChars 10 e 0 : ℤ) else Nat.ofDigitChars 10 e 0),
        some rest) := by
  obtain ⟨take, drop⟩ := takeWhile_digits he _ (stops_head stops)
  rw [scanExponent_cons, take, drop, isEmpty_utf8 he hne, decimal_utf8 he]
  rfl

/-! ### What layouts write -/

/-- The scanner reads the characters as a decimal of a value. -/
def ReadsAs (cs : List Char) (v : ℚ) : Prop :=
  (∃ c ds, cs = c :: ds ∧ c.isDigit = true) ∧
    ∃ (digits : ℕ) (power : ℤ), (digits : ℚ) * 10 ^ power = v ∧
      ∀ (negative : Bool) (rest : List UInt8), Stops rest →
        scanNumber negative (utf8 cs ++ rest) = (floatAtom negative digits power, some rest)

theorem IsWhole.ne_nil (h : IsWhole w) : w ≠ [] := by
  rcases h.2 with rfl | ⟨c, cs, rfl, -⟩ <;> simp

theorem IsWhole.head (h : IsWhole w) (ds : List Char) :
    ∃ c cs, w ++ ds = c :: cs ∧ c.isDigit = true := by
  obtain ⟨c, cs, rfl⟩ := List.exists_cons_of_ne_nil h.ne_nil
  exact ⟨c, cs ++ ds, rfl, (isDigits_of_cons h.1).1⟩

/-- A number with a point. -/
theorem readsAs_point {v : ℚ} (h : IsWhole w) (hp : IsDigits p) (hne : p ≠ [])
    (hv : (Nat.ofDigitChars 10 (w ++ p) 0 : ℚ) * 10 ^ (-(p.length : ℤ)) = v) :
    ReadsAs (w ++ '.' :: p) v := by
  refine ⟨h.head _, _, _, hv, ?_⟩
  intro negative rest stops
  rw [utf8_append, utf8_cons_of_lt (by decide), List.append_assoc]
  change scanNumber negative (utf8 w ++ 46 :: (utf8 p ++ rest)) = _
  rw [scanNumber_whole negative h (by rintro b ⟨⟩; rfl), scanTail_point negative h.1 hp hne stops]

/-- The character of the sign of an exponent. -/
def signChar (minus : Bool) : Char := if minus then '-' else '+'

theorem utf8_sign (minus : Bool) (cs : List Char) :
    utf8 (signChar minus :: cs) = signByte minus :: utf8 cs := by
  cases minus <;> exact utf8_cons_of_lt (by decide) cs

/-- The power of ten that an exponent with a sign means. -/
def signedPower (minus : Bool) (e : List Char) : ℤ :=
  if minus then -(Nat.ofDigitChars 10 e 0 : ℤ) else Nat.ofDigitChars 10 e 0

theorem scanExponent_utf8 (negative : Bool) (digits : ℕ) (power : ℤ) (minus : Bool)
    (he : IsDigits e) (hne : e ≠ []) (stops : Stops rest) :
    scanExponent negative digits power (utf8 (signChar minus :: e) ++ rest) =
      (floatAtom negative digits (power + signedPower minus e), some rest) := by
  rw [utf8_sign]
  exact scanExponent_signed negative digits power minus he hne stops

/-- A number with an exponent and no point. -/
theorem readsAs_exponent {v : ℚ} (minus : Bool) (h : IsWhole w) (he : IsDigits e) (hne : e ≠ [])
    (hv : (Nat.ofDigitChars 10 w 0 : ℚ) * 10 ^ signedPower minus e = v) :
    ReadsAs (w ++ 'e' :: signChar minus :: e) v := by
  rw [← zero_add (signedPower minus e)] at hv
  refine ⟨h.head _, _, _, hv, ?_⟩
  intro negative rest stops
  rw [utf8_append, utf8_cons_of_lt (by decide), List.append_assoc]
  change scanNumber negative (utf8 w ++ 101 :: (utf8 (signChar minus :: e) ++ rest)) = _
  rw [scanNumber_whole negative h (by rintro b ⟨⟩; rfl), scanTail_exponent negative h.1,
    scanExponent_utf8 _ _ _ _ he hne stops]

/-- A number with a point and an exponent. -/
theorem readsAs_pointExponent {v : ℚ} (minus : Bool) (h : IsWhole w) (hp : IsDigits p)
    (hpne : p ≠ []) (he : IsDigits e) (hne : e ≠ [])
    (hv : (Nat.ofDigitChars 10 (w ++ p) 0 : ℚ) *
      10 ^ (-(p.length : ℤ) + signedPower minus e) = v) :
    ReadsAs (w ++ '.' :: (p ++ 'e' :: signChar minus :: e)) v := by
  refine ⟨h.head _, _, _, hv, ?_⟩
  intro negative rest stops
  rw [utf8_append, utf8_cons_of_lt (by decide), utf8_append, utf8_cons_of_lt (by decide),
    List.append_assoc, List.cons_append, List.append_assoc]
  change scanNumber negative
    (utf8 w ++ 46 :: (utf8 p ++ 101 :: (utf8 (signChar minus :: e) ++ rest))) = _
  rw [scanNumber_whole negative h (by rintro b ⟨⟩; rfl),
    scanTail_pointExponent negative h.1 hp hpne, scanExponent_utf8 _ _ _ _ he hne stops]

theorem isWhole_toDigits {d : ℕ} (hd : 0 < d) (zeros : ℕ) :
    IsWhole (Nat.toDigits 10 d ++ List.replicate zeros '0') := by
  obtain ⟨c, cs, hc, hne⟩ := head_toDigits hd
  refine ⟨isDigits_append (isDigits_toDigits d) (isDigits_replicate zeros), .inr ?_⟩
  exact ⟨c, cs ++ List.replicate zeros '0', by rw [hc]; rfl, hne⟩

/-- Digits with the point before them, and zeros between. -/
theorem readsAs_zeros {ds : List Char} (h : IsDigits ds) (hne : ds ≠ []) (z : ℕ) :
    ReadsAs ('0' :: '.' :: (List.replicate z '0' ++ ds))
      (Nat.ofDigitChars 10 ds 0 * 10 ^ (-((z + ds.length : ℕ) : ℤ))) := by
  have zero : IsWhole ['0'] := ⟨isDigits_replicate 1, .inl rfl⟩
  refine readsAs_point zero (isDigits_append (isDigits_replicate z) h) (by simp [hne]) ?_
  rw [Nat.ofDigitChars_append, Nat.ofDigitChars_append, Nat.ofDigitChars_replicate_zero,
    show Nat.ofDigitChars 10 ['0'] 0 = 0 from rfl, Nat.mul_zero, List.length_append,
    List.length_replicate]

/-- A whole number that a point and a zero follow. -/
theorem readsAs_pointZero (h : IsWhole w) :
    ReadsAs (w ++ ['.', '0']) (Nat.ofDigitChars 10 w 0 : ℚ) := by
  refine readsAs_point h (isDigits_replicate 1) (by simp) ?_
  rw [Nat.ofDigitChars_append]
  simp [Nat.ofDigitChars_cons]
  ring

/-- Digits with the point among them. -/
theorem readsAs_among {ds : List Char} (h : IsDigits ds) {n : ℕ} (hn : n < ds.length)
    (whole : IsWhole (ds.take n)) :
    ReadsAs (ds.take n ++ '.' :: ds.drop n)
      (Nat.ofDigitChars 10 ds 0 * 10 ^ (-((ds.length - n : ℕ) : ℤ))) := by
  refine readsAs_point whole (fun c hc => h c (List.mem_of_mem_drop hc)) ?_ ?_
  · intro hnil
    have := List.drop_eq_nil_iff.1 hnil
    omega
  · rw [List.take_append_drop, List.length_drop]

/-- Digits with a point among, before or behind them. -/
theorem readsAs_withPoint {d : ℕ} (hd : 0 < d) (k : ℤ) :
    ReadsAs (withPoint (Nat.toDigits 10 d) (k + (Nat.toDigits 10 d).length)) (d * 10 ^ k) := by
  have digits := isDigits_toDigits d
  have value : Nat.ofDigitChars 10 (Nat.toDigits 10 d) 0 = d := Nat.ofDigitChars_ten_toDigits
  have whole := isWhole_toDigits hd
  obtain ⟨c, cs, hc, hne⟩ := head_toDigits hd
  generalize Nat.toDigits 10 d = ds at *
  unfold withPoint
  split
  · rename_i hle
    generalize hz : (-(k + (ds.length : ℤ))).toNat = z
    have reads := readsAs_zeros digits (by simp [hc]) z
    rw [value, show -((z + ds.length : ℕ) : ℤ) = k by omega] at reads
    exact reads
  · dsimp only
    split
    · rename_i hle
      have reads := readsAs_pointZero (whole ((k + (ds.length : ℤ)).toNat - ds.length))
      obtain ⟨n, rfl⟩ : ∃ n : ℕ, k = n := ⟨k.toNat, by omega⟩
      rw [Nat.ofDigitChars_append, Nat.ofDigitChars_replicate_zero, value] at reads
      convert reads using 1
      rw [show (↑n + (ds.length : ℤ)).toNat - ds.length = n by omega, zpow_natCast]
      push_cast
      ring
    · rename_i hgt
      generalize hn : (k + (ds.length : ℤ)).toNat = n at hgt ⊢
      have first : IsWhole (ds.take n) := by
        refine ⟨fun c hc => digits c (List.mem_of_mem_take hc), .inr ⟨c, cs.take (n - 1), ?_, hne⟩⟩
        rw [hc, List.take_cons (by omega)]
      have reads := readsAs_among digits (by omega) first
      rw [value, show -((ds.length - n : ℕ) : ℤ) = k by omega] at reads
      exact reads

theorem signedPower_toDigits (e : ℤ) :
    signedPower (decide (e < 0)) (Nat.toDigits 10 e.natAbs) = e := by
  unfold signedPower
  rw [Nat.ofDigitChars_ten_toDigits]
  by_cases h : e < 0
  · rw [if_pos (decide_eq_true h)]
    omega
  · rw [if_neg (by simpa using h)]
    omega

/-- The first digit, a point if there are more of them, and an exponent. -/
theorem readsAs_scientific {c : Char} {cs : List Char} (h : IsDigits (c :: cs)) (hne : c ≠ '0')
    (e : ℤ) :
    ReadsAs ((if cs = [] then [c] else c :: '.' :: cs) ++
        'e' :: signChar (decide (e < 0)) :: Nat.toDigits 10 e.natAbs)
      (Nat.ofDigitChars 10 (c :: cs) 0 * 10 ^ (e - cs.length)) := by
  obtain ⟨digit, digits⟩ := isDigits_of_cons h
  have first : IsWhole [c] := by
    refine ⟨?_, .inr ⟨c, [], rfl, hne⟩⟩
    intro d hd
    rw [List.mem_singleton.1 hd]
    exact digit
  by_cases hcs : cs = []
  · subst hcs
    refine readsAs_exponent _ first (isDigits_toDigits _) Nat.toDigits_ne_nil ?_
    rw [signedPower_toDigits]
    simp
  · rw [if_neg hcs]
    refine readsAs_pointExponent _ first digits hcs (isDigits_toDigits _) Nat.toDigits_ne_nil ?_
    rw [signedPower_toDigits, List.singleton_append, neg_add_eq_sub]

/-- **What a layout writes is read as a decimal of the same value.** -/
theorem readsAs_digits {l : Layout} (plus : l.plus = true) {d : ℕ} (hd : 0 < d) (k : ℤ) :
    ReadsAs (l.digits d k) (d * 10 ^ k) := by
  unfold Layout.digits
  dsimp only
  split
  · have := readsAs_withPoint hd k
    rwa [show k + ((Nat.toDigits 10 d).length : ℤ) - 1 + 1 = k + (Nat.toDigits 10 d).length by
      ring]
  · have digits := isDigits_toDigits d
    have value : Nat.ofDigitChars 10 (Nat.toDigits 10 d) 0 = d := Nat.ofDigitChars_ten_toDigits
    obtain ⟨c, cs, hc, hne⟩ := head_toDigits hd
    rw [hc] at digits value ⊢
    have reads := readsAs_scientific digits hne (k + ((c :: cs).length : ℤ) - 1)
    rw [value, show k + ((c :: cs).length : ℤ) - 1 - cs.length = k by
      rw [List.length_cons]; omega] at reads
    generalize k + ((c :: cs).length : ℤ) - 1 = e at reads ⊢
    rw [List.append_assoc, show
      ('e' :: if e < 0 then ['-'] else ['+']) ++ Nat.toDigits 10 e.natAbs =
        'e' :: signChar (decide (e < 0)) :: Nat.toDigits 10 e.natAbs by
      by_cases h : e < 0 <;> simp [h, signChar]]
    cases cs with
    | nil => exact reads
    | cons => exact reads

/-! ### Numbers -/

/-- The sign of a number and what follows it. -/
def signed (negative : Bool) (cs : List Char) : List Char := if negative then '-' :: cs else cs

theorem floatValue_eq {negative : Bool} {digits : ℕ} {power : ℤ} {x : Binary64}
    (h : ofDecimal negative digits power = x) (hx : x.isFinite = true) :
    floatValue negative digits power = .ok (.number (.float x hx)) := by
  subst h
  simp [floatValue, hx]

theorem integerValue_eq {i : ℤ} (h : -0x8000000000000000 ≤ i ∧ i < 0x10000000000000000) :
    integerValue (decide (i < 0)) i.natAbs = .ok (.number (.integer i h)) := by
  have value : (if decide (i < 0) = true then -(i.natAbs : ℤ) else i.natAbs) = i := by
    by_cases hi : i < 0
    · rw [if_pos (decide_eq_true hi)]; omega
    · rw [if_neg (by simpa using hi)]; omega
  have zero : ¬ (decide (i < 0) = true ∧ i.natAbs = 0) := by
    rintro ⟨hi, h0⟩
    have := of_decide_eq_true hi
    omega
  unfold integerValue
  dsimp only
  simp only [value, dif_pos h, if_neg zero]

/-- The text is a sign and characters that the scanner reads as the number, for any text that a
number cannot go on with. -/
def ReadsNumber (text : List Char) (n : Number) : Prop :=
  ∃ negative cs, text = signed negative cs ∧ (∃ c ds, cs = c :: ds ∧ c.isDigit = true) ∧
    ∀ rest, Stops rest →
      scanNumber negative (utf8 cs ++ rest) = (.ofScalar (.number n), some rest)

theorem isWhole_digits (n : ℕ) : IsWhole (Nat.toDigits 10 n) := by
  rcases Nat.eq_zero_or_pos n with rfl | hn
  · exact ⟨isDigits_replicate 1, .inl rfl⟩
  · have := isWhole_toDigits hn 0
    rwa [List.replicate_zero, List.append_nil] at this

theorem readsNumber_integer {i : ℤ} (h : -0x8000000000000000 ≤ i ∧ i < 0x10000000000000000) :
    ReadsNumber (Number.integer i h).text.toList (.integer i h) := by
  have whole := isWhole_digits i.natAbs
  refine ⟨decide (i < 0), Nat.toDigits 10 i.natAbs, ?_, ?_, ?_⟩
  · by_cases hi : i < 0 <;> simp [Number.text, hi, signed, String.toList_append]
  · simpa using whole.head []
  · intro rest stops
    rw [scanNumber_whole _ whole (stops_head stops), scanTail_integer _ whole.1 stops,
      Nat.ofDigitChars_ten_toDigits, integerValue_eq h]
    rfl

/-- Characters that are read as a decimal which rounds to a number are read as the number. -/
theorem ReadsAs.readsNumber {x : Binary64} (h : x.isFinite = true) {cs : List Char} {v : ℚ}
    (reads : ReadsAs cs v)
    (rounds : ∀ (digits : ℕ) (power : ℤ), (digits : ℚ) * 10 ^ power = v →
      ofDecimal x.negative digits power = x) :
    ReadsNumber (signed x.negative cs) (.float x h) := by
  obtain ⟨head, digits, power, hv, scan⟩ := reads
  refine ⟨x.negative, cs, rfl, head, ?_⟩
  intro rest stops
  rw [scan x.negative rest stops, floatAtom, floatValue_eq (rounds digits power hv) h]
  rfl

theorem readsNumber_zero {x : Binary64} (h : x.isFinite = true) (hm : x.magnitude.1 = 0) :
    ReadsNumber (signed x.negative ['0', '.', '0']) (.float x h) := by
  have zero := readsAs_pointZero (w := ['0']) ⟨isDigits_replicate 1, .inl rfl⟩
  refine zero.readsNumber h ?_
  intro digits power hv
  rw [show Nat.ofDigitChars 10 ['0'] 0 = 0 from rfl, Nat.cast_zero] at hv
  have scale : (10 : ℚ) ^ power ≠ 0 := by positivity
  have none : digits = 0 := by exact_mod_cast (mul_eq_zero.1 hv).resolve_right scale
  rw [none, ofDecimal, if_pos rfl, signedZero_of_magnitude hm]

/-- The shortest decimal of a number other than zero is not zero. -/
theorem shortest_pos {x : Binary64} (hm : x.magnitude.1 ≠ 0) : 0 < x.shortest.1 := by
  have pos := (shortest_has hm).pos hm
  rcases Nat.eq_zero_or_pos x.shortest.1 with h0 | h0
  · simp [h0] at pos
  · exact h0

theorem readsNumber_shortest {x : Binary64} (h : x.isFinite = true) (hm : x.magnitude.1 ≠ 0) :
    ReadsNumber (signed x.negative (Layout.plain.digits x.shortest.1 x.shortest.2))
      (.float x h) := by
  refine (readsAs_digits (l := Layout.plain) rfl (shortest_pos hm) x.shortest.2).readsNumber h ?_
  intro digits power hv
  have has := shortest_has hm
  rw [← hv] at has
  exact ofDecimal_of_has h hm has

theorem chars_plain (x : Binary64) :
    Layout.plain.chars x = signed x.negative
      (if x.magnitude.1 = 0 then ['0', '.', '0']
        else Layout.plain.digits x.shortest.1 x.shortest.2) := by
  unfold Layout.chars signed
  dsimp only
  by_cases hs : x.negative = true <;> by_cases hm : x.magnitude.1 = 0 <;> simp [hs, hm]

theorem readsNumber_text (n : Number) : ReadsNumber n.text.toList n := by
  cases n with
  | integer i h => exact readsNumber_integer h
  | float x h =>
    have chars : (Number.float x h).text.toList = Layout.plain.chars x := by
      rw [Number.text, Binary64.text, if_pos h, String.toList_ofList]
    rw [chars, chars_plain]
    by_cases hm : x.magnitude.1 = 0
    · rw [if_pos hm]
      exact readsNumber_zero h hm
    · rw [if_neg hm]
      exact readsNumber_shortest h hm

/-- **A number is read back from its text**, of which the first byte announces a number. -/
theorem scanAtom_number (n : Number) : ∃ b t, utf8 n.text.toList = b :: t ∧
    (b = 45 ∨ isDigit b = true) ∧
      ∀ rest, Stops rest → scanAtom b (t ++ rest) = (.ofScalar (.number n), some rest) := by
  obtain ⟨negative, cs, text, ⟨c, ds, hc, digit⟩, scan⟩ := readsNumber_text n
  rw [text]
  cases negative with
  | true =>
    refine ⟨45, utf8 cs, utf8_cons_of_lt (by decide) cs, .inl rfl, ?_⟩
    intro rest stops
    exact scan rest stops
  | false =>
    refine ⟨c.toNat.toUInt8, utf8 ds, ?_, .inr (isDigit_digit digit), ?_⟩
    · rw [hc]
      exact utf8_digit digit ds
    · intro rest stops
      have scan := scan rest stops
      rw [hc, utf8_digit digit] at scan
      have byte := isDigit_digit digit
      -- a digit begins neither a text nor a word
      generalize c.toNat.toUInt8 = b at scan byte
      unfold scanAtom
      rw [if_neg (by rintro rfl; cases byte), if_neg (by rintro rfl; cases byte),
        if_neg (by rintro rfl; cases byte), if_neg (by rintro rfl; cases byte), if_pos byte]
      exact scan

end WorkerCluster.Json
