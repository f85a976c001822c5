/-!
# Hexadecimal digits

* `digitValue?` reads one digit of either case; `lowerDigit` writes one in lower case.
* `bytes?` and `ofBytes` convert between texts of digit pairs and bytes.
-/

namespace WorkerCluster.Hex

/-- The value of a hexadecimal digit, given by its byte. -/
def digitValue? (b : UInt8) : Option Nat :=
  if 48 ≤ b ∧ b ≤ 57 then some (b.toNat - 48)
  else if 97 ≤ b ∧ b ≤ 102 then some (b.toNat - 87)
  else if 65 ≤ b ∧ b ≤ 70 then some (b.toNat - 55)
  else none

/-- The number that a list of digits writes, the most significant first. -/
def number? (digits : List UInt8) : Option Nat :=
  digits.foldlM (fun n b => (digitValue? b).map (16 * n + ·)) 0

/-- The lower-case digit of a number below sixteen. -/
def lowerDigit (n : Nat) : Char :=
  if n < 10 then Char.ofNat (48 + n) else Char.ofNat (87 + n)

/-- The upper-case digit of a number below sixteen. -/
def upperDigit (n : Nat) : Char :=
  if n < 10 then Char.ofNat (48 + n) else Char.ofNat (55 + n)

/-- The last `count` lower-case digits of a number. -/
def fixed : (count : Nat) → Nat → List Char
  | 0, _ => []
  | k + 1, n => fixed k (n / 16) ++ [lowerDigit (n % 16)]

/-- The last `count` upper-case digits of a number. -/
def fixedUpper : (count : Nat) → Nat → List Char
  | 0, _ => []
  | k + 1, n => fixedUpper k (n / 16) ++ [upperDigit (n % 16)]

/-- Each byte as two lower-case digits. -/
def ofBytes (bytes : List UInt8) : String :=
  String.ofList (bytes.flatMap fun b => [lowerDigit (b.toNat / 16), lowerDigit (b.toNat % 16)])

/-- The bytes that a text of digit pairs writes. -/
def bytesOf? : List Char → Option (List UInt8)
  | [] => some []
  | [_] => none
  | c :: d :: rest => do
    let hi ← if c.toNat < 128 then digitValue? c.toNat.toUInt8 else none
    let lo ← if d.toNat < 128 then digitValue? d.toNat.toUInt8 else none
    let tail ← bytesOf? rest
    return (16 * hi + lo).toUInt8 :: tail

/-- The bytes that a text of digit pairs writes. -/
def bytes? (text : String) : Option (List UInt8) := bytesOf? text.toList

end WorkerCluster.Hex
