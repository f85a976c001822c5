/-!
# Double-precision numbers

Numbers of 64 bits: a sign, eleven bits of exponent and 52 bits of fraction. A finite number stands
for `± m · 2 ^ q` with `m < 2 ^ 53` and `-1074 ≤ q ≤ 971`.

* `magnitude` gives `m` and `q`; `roundRatio` is the number nearest to a positive ratio, a tie going
  to the even neighbour.
* `mul` multiplies exactly and rounds once; `lt` compares as real numbers.
-/

namespace WorkerCluster

/-- A double-precision number, as its bit pattern. -/
structure Binary64 where
  /-- The bit pattern. -/
  bits : UInt64
  deriving DecidableEq, Inhabited

namespace Binary64

/-- The weight of the sign bit, `2 ^ 63`. -/
def signBit : Nat := 0x8000000000000000

/-- The weight of the leading binary digit, `2 ^ 52`, which the fraction leaves out. -/
def leadingBit : Nat := 0x10000000000000

/-- The sign bit. -/
def negative (x : Binary64) : Bool := x.bits.toNat ≥ signBit

/-- The eleven exponent bits. -/
def exponent (x : Binary64) : Nat := x.bits.toNat / leadingBit % 2048

/-- The 52 fraction bits. -/
def fraction (x : Binary64) : Nat := x.bits.toNat % leadingBit

/-- Whether the number is neither infinite nor undefined. -/
def isFinite (x : Binary64) : Bool := x.exponent < 2047

/-- Whether the pattern stands for no number. -/
def isNaN (x : Binary64) : Bool := x.exponent = 2047 ∧ x.fraction ≠ 0

/-- The `m` and `q` of a finite number, whose absolute value is `m · 2 ^ q`. -/
def magnitude (x : Binary64) : Nat × Int :=
  if x.exponent = 0 then (x.fraction, -1074)
  else (x.fraction + leadingBit, (x.exponent : Int) - 1075)

/-- The number with a sign and the remaining 63 bits. -/
def ofParts (negative : Bool) (rest : Nat) : Binary64 :=
  ⟨(rest + if negative then signBit else 0).toUInt64⟩

/-- Zero. -/
def zero : Binary64 := ⟨0⟩

/-- Zero with either sign. -/
def signedZero (negative : Bool) : Binary64 := ofParts negative 0

/-- Infinity with either sign. -/
def infinity (negative : Bool) : Binary64 := ofParts negative (2047 * leadingBit)

/-- The pattern for an undefined result. -/
def undefined : Binary64 := ⟨0x7ff8000000000000⟩

/-- The quotient rounded to the nearest integer, a tie to the even one. -/
def divNearest (num den : Nat) : Nat :=
  let t := num / den
  let r := num % den
  if 2 * r < den then t
  else if den < 2 * r then t + 1
  else t + t % 2

/-- The fraction `num / den` divided by `2 ^ q`, as a numerator and a denominator. -/
def scale (num den : Nat) (q : Int) : Nat × Nat :=
  if 0 ≤ q then (num, den <<< q.toNat) else (num <<< (-q).toNat, den)

/-- The exponent of the grid on which `num / den` has 53 binary digits, or the lowest one. -/
def gridExponent (num den : Nat) : Int :=
  let estimate : Int := (num.log2 : Int) - den.log2 - 53
  let (n, d) := scale num den estimate
  let q := if 2 * leadingBit * d ≤ n then estimate + 1 else estimate
  max q (-1074)

/-- The number nearest to the ratio of two positive integers, infinite when it is too large. -/
def roundRatio (negative : Bool) (num den : Nat) : Binary64 :=
  if num = 0 then signedZero negative
  else
    let q := gridExponent num den
    let (n, d) := scale num den q
    let m := divNearest n d
    let (m, q) := if m = 2 * leadingBit then (leadingBit, q + 1) else (m, q)
    if 971 < q then infinity negative
    else if m < leadingBit then ofParts negative m
    else ofParts negative ((q + 1075).toNat * leadingBit + (m - leadingBit))

/-- The number nearest to a natural number. -/
def ofNat (n : Nat) : Binary64 := roundRatio false n 1

/-- The number nearest to an integer. -/
def ofInt (i : Int) : Binary64 := roundRatio (i < 0) i.natAbs 1

/-- How many decimal digits a number has; zero has none. -/
def digitCount (n : Nat) : Nat := if n = 0 then 0 else (Nat.toDigits 10 n).length

/-- The number nearest to `± digits · 10 ^ power`. Beyond 400 decimal places on either side the
result no longer depends on the digits. -/
def ofDecimal (negative : Bool) (digits : Nat) (power : Int) : Binary64 :=
  if digits = 0 then signedZero negative
  else
    let top := (digitCount digits : Int) + power
    if top < -400 then signedZero negative
    else if 400 < top then infinity negative
    else if 0 ≤ power then roundRatio negative (digits * Nat.pow 10 power.toNat) 1
    else roundRatio negative digits (Nat.pow 10 (-power).toNat)

/-- The number `m · 2 ^ q` rounded, with a sign. -/
def ofScaled (negative : Bool) (m : Nat) (q : Int) : Binary64 :=
  if 0 ≤ q then roundRatio negative (m <<< q.toNat) 1
  else roundRatio negative m (1 <<< (-q).toNat)

/-- The product, rounded once. -/
def mul (x y : Binary64) : Binary64 :=
  let negative := x.negative ^^ y.negative
  if x.isFinite && y.isFinite then
    let (m, q) := x.magnitude
    let (n, r) := y.magnitude
    ofScaled negative (m * n) (q + r)
  else if x.isNaN || y.isNaN || x.magnitude.1 = 0 || y.magnitude.1 = 0 then undefined
  else infinity negative

/-- A position on the number line: numbers that are equal have the same position. -/
def position (x : Binary64) : Int :=
  let rest : Int := x.bits.toNat % signBit
  if x.negative then -rest else rest

/-- Whether one number is below another; an undefined one is below none and above none. -/
def lt (x y : Binary64) : Bool := !x.isNaN && !y.isNaN && decide (x.position < y.position)

theorem lt_irrefl (x : Binary64) : x.lt x = false := by simp [lt]

theorem lt_trans {x y z : Binary64} (h₁ : x.lt y = true) (h₂ : y.lt z = true) :
    x.lt z = true := by
  simp only [lt, Bool.and_eq_true, decide_eq_true_eq] at *
  exact ⟨⟨h₁.1.1, h₂.1.2⟩, Int.lt_trans h₁.2 h₂.2⟩

end Binary64

end WorkerCluster
