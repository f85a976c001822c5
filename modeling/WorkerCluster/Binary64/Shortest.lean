import WorkerCluster.Binary64.Basic

/-!
# Shortest decimal texts

The text of a finite double-precision number is the shortest decimal that reads back as it.

* `Interval` is the set of reals that round to a number, `m · 2 ^ q` with half a step on both
  sides.
* `shortest` searches the decimal grids from one significant digit upwards. The first grid with a
  point in the interval wins; of two points the nearer, and of equally near ones the even.
* `Layout` says how digits and exponent are written; `Layout.text` writes them.
-/

namespace WorkerCluster.Binary64

/-- The reals that round to a number, in units of `2 ^ q / 4`: from `low` to `high` around
`centre`, ends included iff `closed`. -/
structure Interval where
  low : Nat
  centre : Nat
  high : Nat
  closed : Bool
  power : Int

/-- The interval of a positive finite number. Below a power of two the grid is twice as fine. -/
def Interval.of (x : Binary64) : Interval :=
  let (m, q) := x.magnitude
  { low := if x.fraction = 0 ∧ 1 < x.exponent then 4 * m - 1 else 4 * m - 2
    centre := 4 * m
    high := 4 * m + 2
    closed := m % 2 = 0
    power := q - 2 }

/-- Compare `a · 2 ^ p` with `d · 10 ^ k`. -/
def compareScaled (a : Nat) (p : Int) (d : Nat) (k : Int) : Ordering :=
  compare ((a * Nat.pow 10 (-k).toNat) <<< p.toNat) ((d * Nat.pow 10 k.toNat) <<< (-p).toNat)

/-- Whether `d · 10 ^ k` lies in the interval. -/
def Interval.contains (i : Interval) (d : Nat) (k : Int) : Bool :=
  (match compareScaled i.low i.power d k with
    | .lt => true
    | .eq => i.closed
    | .gt => false) &&
  (match compareScaled i.high i.power d k with
    | .lt => false
    | .eq => i.closed
    | .gt => true)

/-- The largest `d` for which `d · 10 ^ k` does not exceed the centre. -/
def Interval.below (i : Interval) (k : Int) : Nat :=
  ((i.centre * Nat.pow 10 (-k).toNat) <<< i.power.toNat) /
    (Nat.pow 10 k.toNat <<< (-i.power).toNat)

/-- The point of the grid of multiples of `10 ^ k` nearest to the centre, if it is in the
interval. -/
def Interval.nearest (i : Interval) (k : Int) : Option Nat :=
  let d := i.below k
  match i.contains d k, i.contains (d + 1) k with
  | false, false => none
  | true, false => some d
  | false, true => some (d + 1)
  | true, true =>
    match compareScaled (2 * i.centre) i.power (2 * d + 1) k with
    | .lt => some d
    | .gt => some (d + 1)
    | .eq => some (if d % 2 = 0 then d else d + 1)

/-- The place of the leading digit: the largest `e` with `10 ^ e` at most the centre. -/
def Interval.leading (i : Interval) : Int :=
  let n := i.centre <<< i.power.toNat
  let d := 1 <<< (-i.power).toNat
  if d ≤ n then (digitCount (n / d) : Int) - 1
  else
    -- the first power of ten that lifts the centre to one or more
    let lifts (s : Nat) : Bool := d ≤ n * Nat.pow 10 (s + 1)
    let steps : Nat := ((List.range 400).find? lifts).getD 399
    Int.negSucc steps

/-- Digits without trailing zeros, and the exponent raised by as many places. -/
def dropZeros : (fuel : Nat) → Nat → Int → Nat × Int
  | 0, d, k => (d, k)
  | fuel + 1, d, k => if d ≠ 0 ∧ d % 10 = 0 then dropZeros fuel (d / 10) (k + 1) else (d, k)

/-- The digits `d` and the exponent `k` of the shortest decimal `d · 10 ^ k` that rounds to a
positive finite number. Seventeen digits always suffice. -/
def shortest (x : Binary64) : Nat × Int :=
  let i := Interval.of x
  let e := i.leading
  let hit := (List.range 18).findSome? fun (extra : Nat) =>
    (i.nearest (e - extra)).map fun d => dropZeros 20 d (e - extra)
  hit.getD (0, 0)

/-- How the digits of a number are laid out. -/
structure Layout where
  /-- The least exponent of the leading digit that is written without an exponent. -/
  least : Int
  /-- The exponent from which on an exponent is written. -/
  bound : Int
  /-- Whether a plus sign stands before a positive exponent. -/
  plus : Bool

/-- The digits with a point after the first `places` of them, and at least one on either side. -/
def withPoint (digits : List Char) (places : Int) : List Char :=
  if places ≤ 0 then
    '0' :: '.' :: List.replicate (-places).toNat '0' ++ digits
  else
    let n := places.toNat
    if digits.length ≤ n then digits ++ List.replicate (n - digits.length) '0' ++ ['.', '0']
    else digits.take n ++ '.' :: digits.drop n

/-- Write the digits of a positive number. -/
def Layout.digits (l : Layout) (d : Nat) (k : Int) : List Char :=
  let ds := Nat.toDigits 10 d
  let e := k + ds.length - 1
  if l.least ≤ e ∧ e < l.bound then withPoint ds (e + 1)
  else
    let mantissa := match ds with
      | [c] => [c]
      | c :: rest => c :: '.' :: rest
      | [] => []
    let sign := if e < 0 then ['-'] else if l.plus then ['+'] else []
    mantissa ++ 'e' :: sign ++ Nat.toDigits 10 e.natAbs

/-- Write a finite number. -/
def Layout.chars (l : Layout) (x : Binary64) : List Char :=
  let sign := if x.negative then ['-'] else []
  if x.magnitude.1 = 0 then sign ++ ['0', '.', '0']
  else
    let (d, k) := x.shortest
    sign ++ l.digits d k

/-- The layout of all numbers of this program: plain from `10 ^ -5` up to below `10 ^ 16`, with a
point and a digit after it, and with a signed exponent elsewhere. -/
def Layout.plain : Layout := { least := -5, bound := 16, plus := true }

/-- The text of a number; infinite and undefined ones have names. -/
def text (x : Binary64) : String :=
  if x.isFinite then String.ofList (Layout.plain.chars x)
  else if x.isNaN then "NaN"
  else if x.negative then "-inf" else "inf"

end WorkerCluster.Binary64
