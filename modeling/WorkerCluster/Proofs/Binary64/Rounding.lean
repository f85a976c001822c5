import Mathlib.Algebra.Order.Field.Power
import Mathlib.Data.Rat.Cast.Order
import Mathlib.Tactic
import WorkerCluster.Binary64.Shortest

/-!
# Rounding

A ratio in the interval of a number rounds to that number.

* `Near m r` says that the integer nearest to `r` is `m`, a tie going to the even one.
* `gridExponent_eq` finds the grid of a ratio from the powers of two around it.
* `Interval.Has` says that a rational is in an interval; `roundRatio_of_has` is the main statement.
-/

namespace WorkerCluster.Binary64

/-! ### Nearest integers -/

/-- The integer nearest to a rational, a tie going to the even one. -/
def Near (m : ℕ) (r : ℚ) : Prop :=
  (2 * (m : ℚ) < 2 * r + 1 ∨ 2 * (m : ℚ) = 2 * r + 1 ∧ m % 2 = 0) ∧
    (2 * r < 2 * (m : ℚ) + 1 ∨ 2 * r = 2 * (m : ℚ) + 1 ∧ m % 2 = 0)

theorem divNearest_eq_of_le {num den m : ℕ} (hd : 0 < den)
    (lo : 2 * (m * den) < 2 * num + den ∨ 2 * (m * den) = 2 * num + den ∧ m % 2 = 0)
    (hi : 2 * num < 2 * (m * den) + den ∨ 2 * num = 2 * (m * den) + den ∧ m % 2 = 0) :
    divNearest num den = m := by
  have hdiv : num / den * den + num % den = num := Nat.div_add_mod' num den
  have hmod : num % den < den := Nat.mod_lt _ hd
  unfold divNearest
  generalize num / den = t at hdiv ⊢
  generalize num % den = r at hdiv hmod ⊢
  dsimp only
  -- the quotient is the nearest integer or the one below it
  have upper : t ≤ m := by
    by_contra h
    have := Nat.mul_le_mul_right den (show m + 1 ≤ t by omega)
    rw [Nat.add_mul] at this
    omega
  have lower : m ≤ t + 1 := by
    by_contra h
    have := Nat.mul_le_mul_right den (show t + 2 ≤ m by omega)
    rw [Nat.add_mul] at this
    omega
  obtain rfl | rfl : t = m ∨ m = t + 1 := by omega
  · split
    · rfl
    · split <;> omega
  · rw [Nat.add_mul] at lo hi
    split
    · omega
    · split <;> omega

theorem divNearest_eq {num den m : ℕ} (hd : 0 < den) (h : Near m ((num : ℚ) / den)) :
    divNearest num den = m := by
  have hdq : (0 : ℚ) < den := by exact_mod_cast hd
  have clear : (num : ℚ) = num / den * den := (div_mul_cancel₀ _ hdq.ne').symm
  generalize (num : ℚ) / den = r at h clear
  have cast (a b : ℕ) : a < b ↔ (a : ℚ) < b := Nat.cast_lt.symm
  have cast' (a b : ℕ) : a = b ↔ (a : ℚ) = b := Nat.cast_inj.symm
  refine divNearest_eq_of_le hd ?_ ?_
  · rw [cast, cast']
    push_cast
    rw [clear, show (2 : ℚ) * (m * den) = 2 * m * den by ring,
      show (2 : ℚ) * (r * den) + den = (2 * r + 1) * den by ring,
      mul_lt_mul_iff_left₀ hdq, mul_left_inj' hdq.ne']
    exact h.1
  · rw [cast, cast']
    push_cast
    rw [clear, show (2 : ℚ) * (m * den) + den = (2 * m + 1) * den by ring,
      show (2 : ℚ) * (r * den) = 2 * r * den by ring,
      mul_lt_mul_iff_left₀ hdq, mul_left_inj' hdq.ne']
    exact h.2

/-! ### Grids -/

theorem two_zpow_toNat {q : ℤ} (h : 0 ≤ q) : (2 : ℚ) ^ q.toNat = 2 ^ q := by
  rw [← zpow_natCast, Int.toNat_of_nonneg h]

theorem scale_pos {num den : ℕ} (hd : 0 < den) (q : ℤ) : 0 < (scale num den q).2 := by
  unfold scale
  split
  · rw [Nat.shiftLeft_eq]
    positivity
  · exact hd

/-- Scaling divides the ratio by a power of two. -/
theorem scale_ratio {num den : ℕ} (hd : 0 < den) (q : ℤ) :
    ((scale num den q).1 : ℚ) / (scale num den q).2 = (num : ℚ) / den / 2 ^ q := by
  have hdq : (den : ℚ) ≠ 0 := by exact_mod_cast hd.ne'
  unfold scale
  split
  · rename_i h
    rw [Nat.shiftLeft_eq]
    push_cast
    rw [two_zpow_toNat h, div_div]
  · rename_i h
    rw [Nat.shiftLeft_eq]
    push_cast
    rw [two_zpow_toNat (by omega), zpow_neg, div_div, mul_comm (den : ℚ), ← div_div,
      div_eq_mul_inv (num : ℚ)]

/-- The powers of two around a ratio that the lengths of its parts give. -/
theorem two_zpow_log2 {num den : ℕ} (hn : 0 < num) (hd : 0 < den) :
    (2 : ℚ) ^ ((num.log2 : ℤ) - den.log2 - 1) ≤ (num : ℚ) / den ∧
      (num : ℚ) / den < (2 : ℚ) ^ ((num.log2 : ℤ) - den.log2 + 1) := by
  have hdq : (0 : ℚ) < den := by exact_mod_cast hd
  have n₁ : (2 : ℚ) ^ num.log2 ≤ num := by exact_mod_cast Nat.log2_self_le hn.ne'
  have n₂ : (num : ℚ) < 2 ^ (num.log2 + 1) := by exact_mod_cast Nat.lt_log2_self
  have d₁ : (2 : ℚ) ^ den.log2 ≤ den := by exact_mod_cast Nat.log2_self_le hd.ne'
  have d₂ : (den : ℚ) < 2 ^ (den.log2 + 1) := by exact_mod_cast Nat.lt_log2_self
  constructor
  · rw [le_div_iff₀ hdq]
    calc (2 : ℚ) ^ ((num.log2 : ℤ) - den.log2 - 1) * den
        ≤ 2 ^ ((num.log2 : ℤ) - den.log2 - 1) * 2 ^ ((den.log2 : ℤ) + 1) := by
          gcongr
          exact_mod_cast d₂.le
      _ = 2 ^ num.log2 := by
          rw [← zpow_add₀ two_ne_zero, ← zpow_natCast]
          congr 1
          omega
      _ ≤ num := n₁
  · rw [div_lt_iff₀ hdq]
    calc (num : ℚ) < 2 ^ (num.log2 + 1) := n₂
      _ = 2 ^ ((num.log2 : ℤ) - den.log2 + 1) * 2 ^ (den.log2 : ℤ) := by
          rw [← zpow_add₀ two_ne_zero, ← zpow_natCast]
          congr 1
          push_cast
          omega
      _ ≤ 2 ^ ((num.log2 : ℤ) - den.log2 + 1) * den := by
          gcongr
          exact_mod_cast d₁

/-- The comparison that chooses between two neighbouring grids. -/
theorem scale_le_iff {num den : ℕ} (hd : 0 < den) (e : ℤ) :
    2 * leadingBit * (scale num den e).2 ≤ (scale num den e).1 ↔
      (2 : ℚ) ^ (e + 53) ≤ (num : ℚ) / den := by
  have hs : (0 : ℚ) < (scale num den e).2 := by exact_mod_cast scale_pos hd e
  have he : (0 : ℚ) < 2 ^ e := by positivity
  rw [← Nat.cast_le (α := ℚ)]
  push_cast
  rw [← le_div_iff₀ hs, scale_ratio hd, le_div_iff₀ he, zpow_add₀ two_ne_zero, mul_comm]
  norm_num [leadingBit]

/-- The grid of a ratio, from the power of two below it. -/
theorem gridExponent_spec {num den : ℕ} (hn : 0 < num) (hd : 0 < den) :
    ∃ g : ℤ, gridExponent num den = max g (-1074) ∧
      (2 : ℚ) ^ (g + 52) ≤ (num : ℚ) / den ∧ (num : ℚ) / den < (2 : ℚ) ^ (g + 53) := by
  obtain ⟨low, high⟩ := two_zpow_log2 hn hd
  unfold gridExponent
  generalize he : (num.log2 : ℤ) - den.log2 - 53 = e
  rw [show (num.log2 : ℤ) - den.log2 - 1 = e + 52 by omega] at low
  rw [show (num.log2 : ℤ) - den.log2 + 1 = e + 54 by omega] at high
  by_cases h : (2 : ℚ) ^ (e + 53) ≤ (num : ℚ) / den
  · refine ⟨e + 1, ?_, ?_, ?_⟩
    · simp [(scale_le_iff hd e).2 h]
    · rwa [show e + 1 + 52 = e + 53 by ring]
    · rwa [show e + 1 + 53 = e + 54 by ring]
  · refine ⟨e, ?_, low, not_le.1 h⟩
    have := mt (scale_le_iff hd e).1 h
    simp only [if_neg this]

theorem gridExponent_eq {num den : ℕ} (hn : 0 < num) (hd : 0 < den) {q : ℤ} (least : -1074 ≤ q)
    (low : (2 : ℚ) ^ (q + 52) ≤ (num : ℚ) / den ∨ q = -1074)
    (high : (num : ℚ) / den < (2 : ℚ) ^ (q + 53)) : gridExponent num den = q := by
  obtain ⟨g, hg, g₁, g₂⟩ := gridExponent_spec hn hd
  have below : g + 52 < q + 53 :=
    (zpow_lt_zpow_iff_right₀ one_lt_two).1 (g₁.trans_lt high)
  rcases low with low | rfl
  · have above : q + 52 < g + 53 := (zpow_lt_zpow_iff_right₀ one_lt_two).1 (low.trans_lt g₂)
    rw [hg]
    omega
  · rw [hg]
    omega

/-! ### Rounding -/

variable {num den m : ℕ} {q : ℤ}

theorem roundRatio_eq (negative : Bool) (hn : 0 < num) (hd : 0 < den)
    (grid : gridExponent num den = q) (near : Near m ((num : ℚ) / den / 2 ^ q))
    (fits : m < 2 * leadingBit) (finite : q ≤ 971) :
    roundRatio negative num den =
      if m < leadingBit then ofParts negative m
      else ofParts negative ((q + 1075).toNat * leadingBit + (m - leadingBit)) := by
  have hm : divNearest (scale num den q).1 (scale num den q).2 = m :=
    divNearest_eq (scale_pos hd q) (by rw [scale_ratio hd]; exact near)
  unfold roundRatio
  simp only [grid, hm, if_neg hn.ne', if_neg fits.ne, if_neg (not_lt.2 finite)]

/-- A ratio that rounds up to a power of two is taken to the next grid. -/
theorem roundRatio_carry (negative : Bool) (hn : 0 < num) (hd : 0 < den)
    (grid : gridExponent num den = q) (near : Near (2 * leadingBit) ((num : ℚ) / den / 2 ^ q))
    (finite : q + 1 ≤ 971) :
    roundRatio negative num den = ofParts negative ((q + 1 + 1075).toNat * leadingBit) := by
  have hm : divNearest (scale num den q).1 (scale num den q).2 = 2 * leadingBit :=
    divNearest_eq (scale_pos hd q) (by rw [scale_ratio hd]; exact near)
  unfold roundRatio
  simp only [grid, hm, if_neg hn.ne', if_true, if_neg (not_lt.2 finite),
    if_neg (Nat.lt_irrefl leadingBit), Nat.sub_self, Nat.add_zero]

/-- A number is made of its sign, its exponent bits and its fraction bits. -/
theorem ofParts_fields (x : Binary64) :
    ofParts x.negative (x.exponent * leadingBit + x.fraction) = x := by
  have hb : x.bits.toNat < 18446744073709551616 := x.bits.toNat_lt
  have key : x.exponent * leadingBit + x.fraction + (if x.negative then signBit else 0) =
      x.bits.toNat := by
    unfold exponent fraction negative leadingBit signBit
    simp only [decide_eq_true_eq]
    split <;> omega
  unfold ofParts
  rw [key]
  obtain ⟨b⟩ := x
  simp

theorem fraction_lt (x : Binary64) : x.fraction < leadingBit := Nat.mod_lt _ (by decide)

theorem exponent_le {x : Binary64} (h : x.isFinite = true) : x.exponent ≤ 2046 := by
  have : x.exponent < 2047 := by simpa [isFinite] using h
  omega

/-- A rational lies in an interval. -/
def Interval.Has (i : Interval) (r : ℚ) : Prop :=
  (i.low * 2 ^ i.power < r ∨ i.low * 2 ^ i.power = r ∧ i.closed = true) ∧
    (r < i.high * 2 ^ i.power ∨ r = i.high * 2 ^ i.power ∧ i.closed = true)

variable {x : Binary64} {r : ℚ}

theorem four_le_magnitude (hm : x.magnitude.1 ≠ 0) :
    4 * x.magnitude.1 - 2 ≤ (Interval.of x).low ∧ 2 ≤ (Interval.of x).low := by
  unfold Interval.of
  dsimp only
  split <;> omega

theorem Interval.two_zpow_power (x : Binary64) :
    (2 : ℚ) ^ (Interval.of x).power = 2 ^ x.magnitude.2 / 4 := by
  rw [show (Interval.of x).power = x.magnitude.2 - 2 from rfl, zpow_sub₀ two_ne_zero]
  norm_num

/-- What lies in the interval of a number is nearest to it on its grid. -/
theorem Interval.Has.near (hm : x.magnitude.1 ≠ 0) (h : (Interval.of x).Has r) :
    Near x.magnitude.1 (r / 2 ^ x.magnitude.2) := by
  have hlow := (four_le_magnitude hm).1
  have hhigh : (Interval.of x).high = 4 * x.magnitude.1 + 2 := rfl
  have hclosed : (Interval.of x).closed = true ↔ x.magnitude.1 % 2 = 0 := by
    simp [Interval.of]
  obtain ⟨h₁, h₂⟩ := h
  rw [two_zpow_power, hclosed] at h₁ h₂
  rw [hhigh] at h₂
  have hlow' : 4 * (x.magnitude.1 : ℚ) ≤ (Interval.of x).low + 2 := by
    exact_mod_cast (by omega : 4 * x.magnitude.1 ≤ (Interval.of x).low + 2)
  have hp : (0 : ℚ) < 2 ^ x.magnitude.2 := by positivity
  generalize (2 : ℚ) ^ x.magnitude.2 = p at h₁ h₂ hp ⊢
  obtain ⟨s, rfl⟩ : ∃ s, r = s * p := ⟨r / p, (div_mul_cancel₀ r hp.ne').symm⟩
  rw [mul_div_cancel_right₀ _ hp.ne']
  have lo (a : ℚ) : a * (p / 4) = a / 4 * p := by ring
  rw [lo, mul_lt_mul_iff_left₀ hp, mul_left_inj' hp.ne'] at h₁
  rw [lo, mul_lt_mul_iff_left₀ hp, mul_left_inj' hp.ne'] at h₂
  push_cast at h₂
  constructor
  · rcases h₁ with h₁ | ⟨h₁, even⟩
    · left; linarith
    · rcases hlow'.lt_or_eq with hlow' | hlow'
      · left; linarith
      · right; exact ⟨by linarith, even⟩
  · rcases h₂ with h₂ | ⟨h₂, even⟩
    · left; linarith
    · right; exact ⟨by linarith, even⟩

/-- The interval ends below the next power of two but one. -/
theorem Near.lt_pow (h : Near m r) (fits : m < 2 * leadingBit) : r < 2 ^ (53 : ℤ) := by
  have : (m : ℚ) + 1 ≤ 2 * leadingBit := by exact_mod_cast fits
  norm_num [leadingBit] at this ⊢
  rcases h.2 with h | ⟨h, -⟩ <;> linarith

theorem magnitude_of_subnormal (h : x.exponent = 0) : x.magnitude = (x.fraction, -1074) := by
  simp [magnitude, h]

theorem magnitude_of_normal (h : x.exponent ≠ 0) :
    x.magnitude = (x.fraction + leadingBit, (x.exponent : ℤ) - 1075) := by
  simp [magnitude, h]

theorem magnitude_fits (x : Binary64) : x.magnitude.1 < 2 * leadingBit := by
  have := x.fraction_lt
  by_cases h : x.exponent = 0
  · rw [magnitude_of_subnormal h]
    dsimp only
    omega
  · rw [magnitude_of_normal h]
    dsimp only
    omega

theorem magnitude_least (x : Binary64) : -1074 ≤ x.magnitude.2 := by
  by_cases h : x.exponent = 0
  · rw [magnitude_of_subnormal h]
  · rw [magnitude_of_normal h]
    dsimp only
    omega

theorem magnitude_greatest (h : x.isFinite = true) : x.magnitude.2 ≤ 971 := by
  have := exponent_le h
  by_cases h : x.exponent = 0
  · rw [magnitude_of_subnormal h]
    norm_num
  · rw [magnitude_of_normal h]
    dsimp only
    omega

/-- The number is read back from what its magnitude is rounded to. -/
theorem ofParts_magnitude (x : Binary64) :
    (if x.magnitude.1 < leadingBit then ofParts x.negative x.magnitude.1
      else ofParts x.negative
        ((x.magnitude.2 + 1075).toNat * leadingBit + (x.magnitude.1 - leadingBit))) = x := by
  have hf := x.fraction_lt
  have hx := x.ofParts_fields
  by_cases h : x.exponent = 0
  · rw [magnitude_of_subnormal h, if_pos hf]
    rwa [h, Nat.zero_mul, Nat.zero_add] at hx
  · rw [magnitude_of_normal h, if_neg (by dsimp only; omega)]
    dsimp only
    rwa [Nat.add_sub_cancel, show (x.exponent : ℤ) - 1075 + 1075 = x.exponent by ring,
      Int.toNat_natCast]

/-- Only the interval of a power of two reaches below it, and by a quarter of its own grid. -/
theorem Interval.Has.reach (he : 1 < x.exponent) (h : (Interval.of x).Has r)
    (below : r / 2 ^ x.magnitude.2 < leadingBit) :
    x.fraction = 0 ∧ (leadingBit : ℚ) - 1 / 4 ≤ r / 2 ^ x.magnitude.2 := by
  have hmag := magnitude_of_normal (show x.exponent ≠ 0 by omega)
  have near := h.near (by rw [hmag]; dsimp only [leadingBit]; omega)
  have hp : (0 : ℚ) < 2 ^ x.magnitude.2 := by positivity
  have hf : x.fraction = 0 := by
    by_contra hne
    have : (1 : ℚ) ≤ x.fraction := by exact_mod_cast Nat.one_le_iff_ne_zero.2 hne
    have := near.1
    rw [hmag] at this below
    push_cast at this
    rcases this with this | ⟨this, -⟩ <;> linarith
  have hlow : (Interval.of x).low = 4 * leadingBit - 1 := by
    unfold Interval.of
    simp only [hmag, hf, Nat.zero_add]
    rw [if_pos ⟨trivial, he⟩]
  refine ⟨hf, ?_⟩
  rw [le_div_iff₀ hp]
  have lo := h.1
  rw [hlow, two_zpow_power, show ((4 * leadingBit - 1 : ℕ) : ℚ) = 4 * leadingBit - 1 by
    norm_num [leadingBit]] at lo
  rcases lo with lo | ⟨lo, -⟩ <;> linarith

/-- A ratio in the interval of a power of two, but below it, is rounded on the finer grid. -/
theorem roundRatio_of_has_below (hx : x.isFinite = true) (hn : 0 < num) (hd : 0 < den)
    (h : (Interval.of x).Has ((num : ℚ) / den)) (he : 1 < x.exponent)
    (below : (num : ℚ) / den / 2 ^ x.magnitude.2 < leadingBit) :
    roundRatio x.negative num den = x := by
  obtain ⟨hf, reach⟩ := h.reach he below
  have hx' := x.ofParts_fields
  have hmag := magnitude_of_normal (show x.exponent ≠ 0 by omega)
  have finite := exponent_le hx
  rw [hmag] at reach below
  dsimp only at reach below
  generalize hq : (x.exponent : ℤ) - 1075 = q at reach below
  have double : (num : ℚ) / den / 2 ^ (q - 1) = 2 * ((num : ℚ) / den / 2 ^ q) := by
    rw [zpow_sub₀ two_ne_zero, zpow_one]
    field_simp
  have hp : (0 : ℚ) < 2 ^ (q - 1) := by positivity
  -- on that grid the power of two is the nearest point
  have near : Near (2 * leadingBit) ((num : ℚ) / den / 2 ^ (q - 1)) := by
    rw [double]
    refine ⟨?_, .inl ?_⟩
    · push_cast
      rcases reach.lt_or_eq with reach | reach
      · left; linarith
      · right; exact ⟨by linarith, by decide⟩
    · push_cast
      linarith
  have grid : gridExponent num den = q - 1 := by
    refine gridExponent_eq hn hd (by omega) (.inl ?_) ?_
    · rw [zpow_add₀ two_ne_zero, mul_comm, ← le_div_iff₀ hp, double]
      norm_num [leadingBit] at reach ⊢
      linarith
    · rw [zpow_add₀ two_ne_zero, mul_comm, ← div_lt_iff₀ hp, double]
      norm_num [leadingBit] at below ⊢
      linarith
  rw [roundRatio_carry x.negative hn hd grid near (by omega),
    show (q - 1 + 1 + 1075).toNat = x.exponent by omega]
  rwa [hf, Nat.add_zero] at hx'

/-- **A ratio in the interval of a number rounds to the number.** -/
theorem roundRatio_of_has (hx : x.isFinite = true) (hm : x.magnitude.1 ≠ 0) (hn : 0 < num)
    (hd : 0 < den) (h : (Interval.of x).Has ((num : ℚ) / den)) :
    roundRatio x.negative num den = x := by
  by_cases below : 1 < x.exponent ∧ (num : ℚ) / den / 2 ^ x.magnitude.2 < leadingBit
  · exact roundRatio_of_has_below hx hn hd h below.1 below.2
  · have near := h.near hm
    have hp : (0 : ℚ) < 2 ^ x.magnitude.2 := by positivity
    have grid : gridExponent num den = x.magnitude.2 := by
      refine gridExponent_eq hn hd x.magnitude_least ?_ ?_
      · by_cases he : 1 < x.exponent
        · left
          rw [zpow_add₀ two_ne_zero, mul_comm, ← le_div_iff₀ hp]
          have := not_lt.1 fun hlt => below ⟨he, hlt⟩
          norm_num [leadingBit] at this ⊢
          exact this
        · right
          by_cases he' : x.exponent = 0
          · rw [magnitude_of_subnormal he']
          · rw [magnitude_of_normal he', show x.exponent = 1 by omega]
            norm_num
      · rw [zpow_add₀ two_ne_zero, mul_comm, ← div_lt_iff₀ hp]
        exact near.lt_pow x.magnitude_fits
    rw [roundRatio_eq x.negative hn hd grid near x.magnitude_fits (magnitude_greatest hx)]
    exact x.ofParts_magnitude

end WorkerCluster.Binary64
