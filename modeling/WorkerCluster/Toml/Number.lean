import WorkerCluster.Binary64.Basic
import WorkerCluster.Toml.Value

/-!
# Numbers, dates and times in TOML

Values of one word, such as `1_000`, `0x1f`, `-2.5e3`, `inf`, `true` or `1979-05-27`.

* `word?` reads a word as a value.
* `isDate` and `isTime` recognise the two parts of a moment.
-/

namespace WorkerCluster.Toml

/-! ### Numbers -/

/-- Digits, of which there must be one, with single underscores between them. -/
def digits? (isDigit : Char → Bool) : List Char → Option (List Char)
  | [] => none
  | [c] => if isDigit c then some [c] else none
  | c :: '_' :: rest => if isDigit c then (digits? isDigit rest).map (c :: ·) else none
  | c :: rest => if isDigit c then (digits? isDigit rest).map (c :: ·) else none

/-- The value of a digit in a base up to sixteen. -/
def digitValue (c : Char) : Nat :=
  if c.isDigit then c.toNat - 48 else if c.isUpper then c.toNat - 55 else c.toNat - 87

/-- Whether a character is a digit in a base up to sixteen. -/
def isDigitOf (base : Nat) (c : Char) : Bool :=
  (c.isDigit || ('a'.toNat ≤ c.toNat && c.toNat ≤ 'f'.toNat) ||
    ('A'.toNat ≤ c.toNat && c.toNat ≤ 'F'.toNat)) && digitValue c < base

/-- The number that digits give. -/
def ofDigits (base : Nat) (digits : List Char) : Nat :=
  digits.foldl (fun n c => base * n + digitValue c) 0

/-- The integer of a sign and a magnitude, which must fit 64 bits. -/
def integer? (negative : Bool) (n : Nat) : Option Value :=
  let i : Int := if negative then -n else n
  if -0x8000000000000000 ≤ i ∧ i < 0x8000000000000000 then some (.integer i) else none

/-- An integer in another base than ten. -/
def based? (base : Nat) (cs : List Char) : Option Value :=
  (digits? (isDigitOf base) cs).bind fun ds => integer? false (ofDigits base ds)

/-- The digits before a point or an exponent. Only zero itself begins with a zero. -/
def whole? (cs : List Char) : Option (List Char) :=
  match digits? Char.isDigit cs with
  | some ['0'] => some ['0']
  | some ('0' :: _) => none
  | r => r

/-- A sign and the rest. -/
def sign : List Char → Bool × List Char
  | '-' :: rest => (true, rest)
  | '+' :: rest => (false, rest)
  | cs => (false, cs)

/-- The exponent of a number; none means zero. -/
def power? : List Char → Option Int
  | [] => some 0
  | c :: rest =>
    if c = 'e' ∨ c = 'E' then
      let (negative, cs) := sign rest
      (digits? Char.isDigit cs).map fun ds =>
        if negative then -(ofDigits 10 ds : Int) else (ofDigits 10 ds : Int)
    else none

/-- The float of decimal digits and a power of ten, unless it is too large; below zero, one that is
too large is infinite. -/
def float? (negative : Bool) (digits : List Char) (power : Int) : Option Value :=
  let x := Binary64.ofDecimal negative (ofDigits 10 digits) power
  if x = .infinity false then none else some (.float x)

/-- A number in base ten, without its sign. -/
def decimal? (negative : Bool) (cs : List Char) : Option Value :=
  let (whole, rest) := cs.span fun c => c.isDigit || c = '_'
  match whole? whole, rest with
  | none, _ => none
  | some w, [] => integer? negative (ofDigits 10 w)
  | some w, '.' :: rest =>
    let (part, rest) := rest.span fun c => c.isDigit || c = '_'
    match digits? Char.isDigit part, power? rest with
    | some p, some k => float? negative (w ++ p) (k - p.length)
    | _, _ => none
  | some w, rest => (power? rest).bind fun k => float? negative w k

/-- A number. -/
def number? : List Char → Option Value
  | '0' :: 'x' :: rest => based? 16 rest
  | '0' :: 'o' :: rest => based? 8 rest
  | '0' :: 'b' :: rest => based? 2 rest
  | cs =>
    match sign cs with
    | (negative, ['i', 'n', 'f']) => some (.float (.infinity negative))
    | (_, ['n', 'a', 'n']) => some (.float .undefined)
    | (negative, rest) => decimal? negative rest

/-! ### Dates and times -/

/-- The number of two digits. -/
def two? (a b : Char) : Option Nat :=
  if a.isDigit && b.isDigit then some (10 * digitValue a + digitValue b) else none

/-- How many days a month has. -/
def daysIn (year month : Nat) : Nat :=
  if month = 2 then if year % 4 = 0 ∧ (year % 100 ≠ 0 ∨ year % 400 = 0) then 29 else 28
  else if month = 4 ∨ month = 6 ∨ month = 9 ∨ month = 11 then 30
  else 31

/-- Whether a word is a date. -/
def isDate : List Char → Bool
  | [y₁, y₂, y₃, y₄, '-', m₁, m₂, '-', d₁, d₂] =>
    match two? y₁ y₂, two? y₃ y₄, two? m₁ m₂, two? d₁ d₂ with
    | some c, some y, some m, some d =>
      1 ≤ m && m ≤ 12 && 1 ≤ d && d ≤ daysIn (100 * c + y) m
    | _, _, _, _ => false
  | _ => false

/-- Whether a word is a distance from universal time, or nothing. -/
def isOffset : List Char → Bool
  | [] => true
  | ['Z'] => true
  | ['z'] => true
  | [s, h₁, h₂, ':', m₁, m₂] =>
    match two? h₁ h₂, two? m₁ m₂ with
    | some h, some m => (s = '+' || s = '-') && h ≤ 23 && m ≤ 59
    | _, _ => false
  | _ => false

/-- The rest after the fraction of a second, if there is one. -/
def afterFraction : List Char → Option (List Char)
  | '.' :: c :: rest => if c.isDigit then some (rest.dropWhile Char.isDigit) else none
  | '.' :: [] => none
  | cs => some cs

/-- Whether a word is a time, perhaps with an offset. -/
def isTime (offset : Bool) : List Char → Bool
  | h₁ :: h₂ :: ':' :: m₁ :: m₂ :: ':' :: s₁ :: s₂ :: rest =>
    match two? h₁ h₂, two? m₁ m₂, two? s₁ s₂, afterFraction rest with
    | some h, some m, some s, some rest =>
      h ≤ 23 && m ≤ 59 && s ≤ 60 && (if offset then isOffset rest else rest.isEmpty)
    | _, _, _, _ => false
  | _ => false

/-- Whether a word is a date, a time, or a date and a time. -/
def isMoment (cs : List Char) : Bool :=
  isDate cs || isTime false cs ||
    (isDate (cs.take 10) &&
      match cs.drop 10 with
      | 'T' :: time => isTime true time
      | 't' :: time => isTime true time
      | _ => false)

/-! ### Words -/

/-- Whether a character may occur in a word. -/
def isWordChar (c : Char) : Bool :=
  c.isAlphanum || c = '+' || c = '-' || c = '_' || c = '.' || c = ':'

/-- The value of a word. -/
def word? (cs : List Char) : Option Value :=
  if cs = ['t', 'r', 'u', 'e'] then some (.bool true)
  else if cs = ['f', 'a', 'l', 's', 'e'] then some (.bool false)
  else if isMoment cs then some (.moment (String.ofList cs))
  else number? cs

/-- Read a word, or a date and a time with a space between them: the value and what follows. -/
def readWord (cs : List Char) : Option (Value × List Char) :=
  let (word, rest) := cs.span isWordChar
  let single := (word? word).map (·, rest)
  match rest with
  | ' ' :: after =>
    let (time, rest') := after.span isWordChar
    if isDate word && isTime true time then
      some (.moment (String.ofList (word ++ ' ' :: time)), rest')
    else single
  | _ => single

end WorkerCluster.Toml
