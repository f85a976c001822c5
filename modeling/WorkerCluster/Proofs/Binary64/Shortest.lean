import WorkerCluster.Proofs.Binary64.Rounding

/-!
# Shortest decimals

The shortest decimal of a number lies in its interval, and so reads back as the number.

* `Interval.contains_iff` says what the comparison with the ends of an interval decides.
* `nearest_isSome` finds a point of every grid that is fine enough; `shortest_has` uses that
  seventeen digits make one.
* `ofDecimal_of_has` reads any decimal in the interval of a number as the number.
-/

namespace WorkerCluster.Binary64

/-! ### Comparing -/

theorem zpow_mul_pow_neg {b : ℚ} (hb : b ≠ 0) (k : ℤ) : b ^ k * b ^ (-k).toNat = b ^ k.toNat := by
  rw [← zpow_natCast, ← zpow_natCast, ← zpow_add₀ hb]
  congr 1
  omega

/-- What both sides of a comparison are multiplied by. -/
def unit (p k : ℤ) : ℚ := 2 ^ (-p).toNat * 10 ^ (-k).toNat

theorem unit_pos (p k : ℤ) : 0 < unit p k := by
  unfold unit
  positivity

theorem cleared_two (a : ℕ) (p k : ℤ) :
    (((a * Nat.pow 10 (-k).toNat) <<< p.toNat : ℕ) : ℚ) = a * 2 ^ p * unit p k := by
  rw [Nat.shiftLeft_eq, unit, Nat.pow_eq]
  push_cast
  rw [← zpow_mul_pow_neg two_ne_zero p]
  ring

theorem cleared_ten (d : ℕ) (p k : ℤ) :
    (((d * Nat.pow 10 k.toNat) <<< (-p).toNat : ℕ) : ℚ) = d * 10 ^ k * unit p k := by
  rw [Nat.shiftLeft_eq, unit, Nat.pow_eq]
  push_cast
  rw [← zpow_mul_pow_neg (by norm_num : (10 : ℚ) ≠ 0) k]
  ring

theorem compareScaled_lt {a d : ℕ} {p k : ℤ} :
    compareScaled a p d k = .lt ↔ (a : ℚ) * 2 ^ p < d * 10 ^ k := by
  rw [compareScaled, Nat.compare_eq_lt, ← Nat.cast_lt (α := ℚ), cleared_two, cleared_ten,
    mul_lt_mul_iff_left₀ (unit_pos p k)]

theorem compareScaled_eq {a d : ℕ} {p k : ℤ} :
    compareScaled a p d k = .eq ↔ (a : ℚ) * 2 ^ p = d * 10 ^ k := by
  rw [compareScaled, Nat.compare_eq_eq, ← Nat.cast_inj (R := ℚ), cleared_two, cleared_ten,
    mul_left_inj' (unit_pos p k).ne']

theorem compareScaled_gt {a d : ℕ} {p k : ℤ} :
    compareScaled a p d k = .gt ↔ (d : ℚ) * 10 ^ k < a * 2 ^ p := by
  rw [compareScaled, Nat.compare_eq_gt, ← Nat.cast_lt (α := ℚ), cleared_two, cleared_ten,
    mul_lt_mul_iff_left₀ (unit_pos p k)]

theorem Interval.contains_iff (i : Interval) (d : ℕ) (k : ℤ) :
    i.contains d k = true ↔ i.Has (d * 10 ^ k) := by
  unfold contains Has
  rw [Bool.and_eq_true]
  refine and_congr ?_ ?_
  · cases h : compareScaled i.low i.power d k with
    | lt => simp [compareScaled_lt.1 h]
    | eq => simp [compareScaled_eq.1 h]
    | gt =>
      have := compareScaled_gt.1 h
      simp [this.not_gt, this.ne']
  · cases h : compareScaled i.high i.power d k with
    | lt =>
      have := compareScaled_lt.1 h
      simp [this.not_gt, this.ne']
    | eq => simp [compareScaled_eq.1 h]
    | gt => simp [compareScaled_gt.1 h]

/-! ### The nearest point of a grid -/

/-- The centre of an interval. -/
def Interval.mid (i : Interval) : ℚ := i.centre * 2 ^ i.power

theorem Interval.below_spec (i : Interval) (k : ℤ) :
    (i.below k : ℚ) * 10 ^ k ≤ i.mid ∧ i.mid < (i.below k + 1 : ℕ) * 10 ^ k := by
  have hu := unit_pos i.power k
  have one := cleared_ten 1 i.power k
  rw [Nat.one_mul, Nat.cast_one, one_mul] at one
  have pos : 0 < Nat.pow 10 k.toNat <<< (-i.power).toNat := by
    rw [Nat.shiftLeft_eq, Nat.pow_eq]
    positivity
  have lo : i.below k * (Nat.pow 10 k.toNat <<< (-i.power).toNat) ≤
      (i.centre * Nat.pow 10 (-k).toNat) <<< i.power.toNat := Nat.div_mul_le_self _ _
  have hi : (i.centre * Nat.pow 10 (-k).toNat) <<< i.power.toNat <
      (i.below k + 1) * (Nat.pow 10 k.toNat <<< (-i.power).toNat) := by
    rw [Nat.mul_comm (i.below k + 1)]
    exact Nat.lt_mul_div_succ _ pos
  rw [← Nat.cast_le (α := ℚ), Nat.cast_mul, one, cleared_two, ← mul_assoc,
    mul_le_mul_iff_left₀ hu] at lo
  rw [← Nat.cast_lt (α := ℚ), Nat.cast_mul, one, cleared_two, ← mul_assoc,
    mul_lt_mul_iff_left₀ hu] at hi
  exact ⟨lo, hi⟩

theorem Interval.contains_of_nearest {i : Interval} {k : ℤ} {d : ℕ} (h : i.nearest k = some d) :
    i.contains d k = true := by
  unfold nearest at h
  dsimp only at h
  cases h₀ : i.contains (i.below k) k <;> cases h₁ : i.contains (i.below k + 1) k <;>
    rw [h₀, h₁] at h <;> dsimp only at h
  · cases h
  · cases h
    exact h₁
  · cases h
    exact h₀
  · -- both neighbours are inside, so whichever is taken is
    have both : d = i.below k ∨ d = i.below k + 1 := by
      cases hc : compareScaled (2 * i.centre) i.power (2 * i.below k + 1) k <;>
        rw [hc] at h <;> dsimp only at h
      · exact .inl (Option.some.inj h).symm
      · split at h
        · exact .inl (Option.some.inj h).symm
        · exact .inr (Option.some.inj h).symm
      · exact .inr (Option.some.inj h).symm
    rcases both with rfl | rfl
    · exact h₀
    · exact h₁

theorem Interval.nearest_isSome {i : Interval} {k : ℤ}
    (h : i.contains (i.below k) k = true ∨ i.contains (i.below k + 1) k = true) :
    (i.nearest k).isSome = true := by
  unfold nearest
  dsimp only
  cases h₀ : i.contains (i.below k) k <;> cases h₁ : i.contains (i.below k + 1) k
  · rw [h₀, h₁] at h
    simp at h
  · rfl
  · rfl
  · dsimp only
    split <;> rfl

/-- A grid no coarser than the upper half of an interval has a point in it. -/
theorem Interval.nearest_isSome_of_le {i : Interval} {k : ℤ} (low : i.low < i.centre)
    (fine : (10 : ℚ) ^ k ≤ (i.high - i.centre) * 2 ^ i.power) : (i.nearest k).isSome = true := by
  have hp : (0 : ℚ) < 2 ^ i.power := by positivity
  have hlow : (i.low : ℚ) * 2 ^ i.power < i.mid := by
    unfold mid
    gcongr
  have hk : (0 : ℚ) < 10 ^ k := by positivity
  obtain ⟨lo, hi⟩ := i.below_spec k
  refine nearest_isSome ?_
  rw [contains_iff, contains_iff]
  have hmid : i.mid + (i.high - i.centre) * 2 ^ i.power = i.high * 2 ^ i.power := by
    unfold mid
    ring
  -- the centre is a point of the grid, or the next one above it is near enough
  rcases lo.lt_or_eq with lo | lo
  · right
    push_cast at hi ⊢
    exact ⟨.inl (hlow.trans hi), .inl (by linarith)⟩
  · left
    rw [lo]
    exact ⟨.inl hlow, .inl (by linarith)⟩

/-! ### The leading digit -/

theorem digitCount_spec {n : ℕ} (hn : 0 < n) :
    0 < digitCount n ∧ 10 ^ (digitCount n - 1) ≤ n ∧ n < 10 ^ digitCount n := by
  unfold digitCount
  rw [if_neg hn.ne']
  have pos : 0 < (Nat.toDigits 10 n).length := Nat.length_toDigits_pos
  refine ⟨pos, ?_, (Nat.length_toDigits_le_iff (by norm_num) pos).1 le_rfl⟩
  by_cases one : (Nat.toDigits 10 n).length - 1 = 0
  · rw [one]
    omega
  · apply not_lt.1
    intro hlt
    have := (Nat.length_toDigits_le_iff (b := 10) (by norm_num) (Nat.pos_of_ne_zero one)).2 hlt
    omega

theorem Interval.mid_mul (i : Interval) :
    i.mid * (1 <<< (-i.power).toNat : ℕ) = (i.centre <<< i.power.toNat : ℕ) := by
  rw [Nat.shiftLeft_eq, Nat.shiftLeft_eq, mid]
  push_cast
  rw [← zpow_mul_pow_neg two_ne_zero i.power]
  ring

theorem two_pow_le (n : ℕ) : 2 ^ (3 * n) ≤ 10 ^ n := by
  rw [Nat.pow_mul]
  exact Nat.pow_le_pow_left (by norm_num) n

/-- The places that are looked at are enough to lift a ratio to one. -/
theorem le_mul_pow_find? {n d : ℕ} (hn : 0 < n) (small : d ≤ 10 ^ (399 + 1)) :
    d ≤ n * 10 ^
      (((List.range 400).find? fun s => decide (d ≤ n * Nat.pow 10 (s + 1))).getD 399 + 1) := by
  cases hf : (List.range 400).find? fun s => decide (d ≤ n * Nat.pow 10 (s + 1)) with
  | some t => simpa using List.find?_some hf
  | none =>
    rw [Option.getD_none]
    exact small.trans (Nat.le_mul_of_pos_left _ hn)

theorem Interval.leading_le {i : Interval} (hc : 0 < i.centre) (hp : -1200 ≤ i.power) :
    (10 : ℚ) ^ i.leading ≤ i.mid := by
  have hd : (0 : ℚ) < (1 <<< (-i.power).toNat : ℕ) := by
    rw [Nat.shiftLeft_eq]
    positivity
  have hmid := i.mid_mul
  have hn : 0 < i.centre <<< i.power.toNat := by
    rw [Nat.shiftLeft_eq]
    positivity
  have hsmall : 1 <<< (-i.power).toNat ≤ 10 ^ (399 + 1) := by
    rw [Nat.shiftLeft_eq, Nat.one_mul]
    exact (Nat.pow_le_pow_right (by norm_num) (by omega)).trans (two_pow_le (399 + 1))
  unfold leading
  dsimp only
  generalize i.centre <<< i.power.toNat = n at hmid hn ⊢
  generalize 1 <<< (-i.power).toNat = d at hd hmid hsmall ⊢
  rw [← mul_le_mul_iff_left₀ hd, hmid]
  split
  · rename_i hle
    have hdn : 0 < d := by exact_mod_cast hd
    obtain ⟨pos, lo, -⟩ := digitCount_spec (Nat.div_pos hle hdn)
    rw [show (digitCount (n / d) : ℤ) - 1 = (digitCount (n / d) - 1 : ℕ) by omega, zpow_natCast]
    exact_mod_cast (Nat.mul_le_mul_right d lo).trans (Nat.div_mul_le_self n d)
  · have lifts := le_mul_pow_find? hn hsmall
    rw [zpow_negSucc, inv_mul_le_iff₀ (by positivity), mul_comm]
    exact_mod_cast lifts

/-! ### The shortest decimal -/

theorem dropZeros_value (fuel d : ℕ) (k : ℤ) :
    ((dropZeros fuel d k).1 : ℚ) * 10 ^ (dropZeros fuel d k).2 = d * 10 ^ k := by
  induction fuel generalizing d k with
  | zero => rfl
  | succ fuel ih =>
    unfold dropZeros
    split
    · rename_i h
      have hd : (d : ℚ) = (d / 10 : ℕ) * 10 := by
        exact_mod_cast (Nat.div_mul_cancel (Nat.dvd_of_mod_eq_zero h.2)).symm
      rw [ih, zpow_add₀ (by norm_num), zpow_one, hd]
      ring
    · rfl

/-- Seventeen digits make a grid that is fine enough. -/
theorem nearest_seventeen {x : Binary64} (hm : x.magnitude.1 ≠ 0) :
    ((Interval.of x).nearest ((Interval.of x).leading - (17 : ℕ))).isSome = true := by
  have hc : (Interval.of x).centre = 4 * x.magnitude.1 := rfl
  have hh : (Interval.of x).high = 4 * x.magnitude.1 + 2 := rfl
  have hp : (Interval.of x).power = x.magnitude.2 - 2 := rfl
  have least := x.magnitude_least
  have lead := (Interval.of x).leading_le (by rw [hc]; omega) (by rw [hp]; omega)
  have fits : (x.magnitude.1 : ℚ) < 2 * leadingBit := by exact_mod_cast x.magnitude_fits
  have pos : (0 : ℚ) < 2 ^ (Interval.of x).power := by positivity
  refine Interval.nearest_isSome_of_le ?_ ?_
  · unfold Interval.of
    dsimp only
    split <;> omega
  · unfold Interval.mid at lead
    rw [zpow_sub₀ (by norm_num)]
    rw [hc] at lead ⊢
    rw [hh]
    push_cast at lead ⊢
    generalize (2 : ℚ) ^ (Interval.of x).power = p at pos lead ⊢
    rw [div_le_iff₀ (by positivity)]
    have : 4 * (x.magnitude.1 : ℚ) * p ≤ 4 * (2 * leadingBit) * p := by gcongr
    norm_num [leadingBit] at this ⊢
    linarith

/-- The shortest decimal of a number lies in its interval. -/
theorem shortest_has {x : Binary64} (hm : x.magnitude.1 ≠ 0) :
    (Interval.of x).Has (x.shortest.1 * 10 ^ x.shortest.2) := by
  obtain ⟨d₀, hd₀⟩ := Option.isSome_iff_exists.1 (nearest_seventeen hm)
  unfold shortest
  dsimp only
  generalize hf : (fun (extra : ℕ) =>
    ((Interval.of x).nearest ((Interval.of x).leading - extra)).map
      fun d => dropZeros 20 d ((Interval.of x).leading - extra)) = f
  cases hit : (List.range 18).findSome? f with
  | none =>
    have none := List.findSome?_eq_none_iff.1 hit 17 (by simp)
    rw [← hf] at none
    dsimp only at none
    rw [hd₀] at none
    cases none
  | some r =>
    obtain ⟨extra, -, hr⟩ := List.exists_of_findSome?_eq_some hit
    rw [← hf] at hr
    obtain ⟨d, hd, rfl⟩ := Option.map_eq_some_iff.1 hr
    rw [Option.getD_some, dropZeros_value, ← Interval.contains_iff]
    exact Interval.contains_of_nearest hd

/-! ### Reading decimals -/

variable {x : Binary64} {d : ℕ} {k : ℤ}

theorem Interval.Has.pos {r : ℚ} (hm : x.magnitude.1 ≠ 0) (h : (Interval.of x).Has r) : 0 < r := by
  have low : (2 : ℚ) ≤ (Interval.of x).low := by exact_mod_cast (four_le_magnitude hm).2
  have hp : (0 : ℚ) < 2 ^ (Interval.of x).power := by positivity
  have : 0 < ((Interval.of x).low : ℚ) * 2 ^ (Interval.of x).power := by positivity
  rcases h.1 with h | ⟨h, -⟩ <;> linarith

theorem two_zpow_le (n : ℕ) : (2 : ℚ) ^ (3 * n : ℤ) ≤ 10 ^ (n : ℤ) := by
  have := two_pow_le n
  rw [zpow_natCast, show (3 * n : ℤ) = (3 * n : ℕ) by push_cast; rfl, zpow_natCast]
  exact_mod_cast this

/-- No decimal in the interval of a number is below the places that are looked at. -/
theorem Interval.Has.lower {r : ℚ} (hm : x.magnitude.1 ≠ 0) (h : (Interval.of x).Has r) :
    (10 : ℚ) ^ (-((400 : ℕ) : ℤ)) < r := by
  have least := x.magnitude_least
  have hp : (Interval.of x).power = x.magnitude.2 - 2 := rfl
  have pos : (0 : ℚ) < 2 ^ (Interval.of x).power := by positivity
  have low : (2 : ℚ) ≤ (Interval.of x).low := by exact_mod_cast (four_le_magnitude hm).2
  calc (10 : ℚ) ^ (-((400 : ℕ) : ℤ)) ≤ 2 ^ (-(3 * ((400 : ℕ) : ℤ))) := by
        rw [zpow_neg, zpow_neg]
        exact inv_anti₀ (by positivity) (two_zpow_le 400)
    _ ≤ 2 ^ (Interval.of x).power := by
        rw [hp]
        exact zpow_le_zpow_right₀ one_le_two (by push_cast; omega)
    _ < (Interval.of x).low * 2 ^ (Interval.of x).power := by
        rw [lt_mul_iff_one_lt_left pos]
        linarith
    _ ≤ r := h.1.elim le_of_lt fun e => e.1.le

/-- No decimal in the interval of a finite number is above the places that are looked at. -/
theorem Interval.Has.upper {r : ℚ} (hx : x.isFinite = true) (h : (Interval.of x).Has r) :
    r < (10 : ℚ) ^ ((400 : ℕ) : ℤ) := by
  have greatest := magnitude_greatest hx
  have hp : (Interval.of x).power = x.magnitude.2 - 2 := rfl
  have hh : (Interval.of x).high = 4 * x.magnitude.1 + 2 := rfl
  have high : ((Interval.of x).high : ℚ) < 2 ^ (56 : ℤ) := by
    have : (Interval.of x).high < 2 ^ 56 := by
      have := x.magnitude_fits
      rw [hh]
      unfold leadingBit at this
      omega
    exact_mod_cast this
  calc r ≤ (Interval.of x).high * 2 ^ (Interval.of x).power := h.2.elim le_of_lt fun e => e.1.le
    _ < 2 ^ (56 : ℤ) * 2 ^ (Interval.of x).power := by gcongr
    _ ≤ 2 ^ (3 * ((400 : ℕ) : ℤ)) := by
        rw [← zpow_add₀ two_ne_zero, hp]
        exact zpow_le_zpow_right₀ one_le_two (by push_cast; omega)
    _ ≤ 10 ^ ((400 : ℕ) : ℤ) := two_zpow_le 400

theorem digitCount_bounds (hd : 0 < d) (k : ℤ) :
    (10 : ℚ) ^ ((digitCount d : ℤ) + k - 1) ≤ d * 10 ^ k ∧
      (d : ℚ) * 10 ^ k < 10 ^ ((digitCount d : ℤ) + k) := by
  obtain ⟨pos, lo, hi⟩ := digitCount_spec hd
  constructor
  · rw [show (digitCount d : ℤ) + k - 1 = (digitCount d - 1 : ℕ) + k by omega,
      zpow_add₀ (by norm_num), zpow_natCast]
    gcongr
    exact_mod_cast lo
  · rw [zpow_add₀ (by norm_num), zpow_natCast]
    gcongr
    exact_mod_cast hi

/-- **Every decimal in the interval of a number is read as the number.** -/
theorem ofDecimal_of_has (hx : x.isFinite = true) (hm : x.magnitude.1 ≠ 0)
    (h : (Interval.of x).Has (d * 10 ^ k)) : ofDecimal x.negative d k = x := by
  have hpos := h.pos hm
  have hd : 0 < d := by
    rcases Nat.eq_zero_or_pos d with rfl | hd
    · simp at hpos
    · exact hd
  obtain ⟨lo, hi⟩ := digitCount_bounds hd k
  have above : -((400 : ℕ) : ℤ) < (digitCount d : ℤ) + k :=
    (zpow_lt_zpow_iff_right₀ (by norm_num : (1 : ℚ) < 10)).1 ((h.lower hm).trans hi)
  have below : (digitCount d : ℤ) + k - 1 < ((400 : ℕ) : ℤ) :=
    (zpow_lt_zpow_iff_right₀ (by norm_num : (1 : ℚ) < 10)).1 (lo.trans_lt (h.upper hx))
  unfold ofDecimal
  dsimp only
  rw [if_neg hd.ne', if_neg (by omega), if_neg (by omega)]
  split
  · rename_i hk
    refine roundRatio_of_has hx hm (Nat.mul_pos hd (by rw [Nat.pow_eq]; positivity)) one_pos ?_
    rw [Nat.pow_eq]
    push_cast
    rwa [div_one, ← zpow_natCast, Int.toNat_of_nonneg hk]
  · rename_i hk
    refine roundRatio_of_has hx hm hd (by rw [Nat.pow_eq]; positivity) ?_
    rw [Nat.pow_eq]
    push_cast
    rwa [← zpow_natCast, Int.toNat_of_nonneg (by omega), zpow_neg, div_inv_eq_mul]

/-- A number without magnitude is zero. -/
theorem signedZero_of_magnitude (hm : x.magnitude.1 = 0) : signedZero x.negative = x := by
  have he : x.exponent = 0 := by
    by_contra he
    rw [magnitude_of_normal he] at hm
    dsimp only [leadingBit] at hm
    omega
  rw [magnitude_of_subnormal he] at hm
  have := x.ofParts_fields
  rwa [he, show x.fraction = 0 from hm, Nat.zero_mul] at this

end WorkerCluster.Binary64
