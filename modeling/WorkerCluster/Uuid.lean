import WorkerCluster.Hex
import WorkerCluster.SortedMap

/-!
# Unique identifiers

Identifiers of 128 bits, ordered as big-endian numbers.

* `Uuid.parse?` reads four written forms, `Uuid.text` writes the hyphenated one.
* `Uuid.random` stamps 128 arbitrary bits as a version 4 identifier.
* `IdSupply` hands out the bits for fresh identifiers: those it was given first, then 1, 2, 3, ….
-/

namespace WorkerCluster

/-- A 128-bit identifier, as the big-endian number of its sixteen bytes. -/
structure Uuid where
  /-- The number. -/
  value : BitVec 128
  deriving DecidableEq, Inhabited

namespace Uuid

/-- Identifiers are ordered as numbers, hence as byte strings. -/
instance : KeyOrder Uuid where
  lt a b := a.value.toNat < b.value.toNat
  decidableLT a b := inferInstanceAs (Decidable (a.value.toNat < b.value.toNat))
  irrefl a := Nat.lt_irrefl a.value.toNat
  trans := Nat.lt_trans
  connex {a b} h₁ h₂ := by
    have h : a.value.toNat = b.value.toNat :=
      Nat.le_antisymm (Nat.not_lt.1 h₂) (Nat.not_lt.1 h₁)
    cases a; cases b
    exact congrArg mk (BitVec.eq_of_toNat_eq h)

/-- The identifier of a number, of which the low 128 bits count. -/
def ofNat (n : Nat) : Uuid := ⟨BitVec.ofNat 128 n⟩

/-- The sixteen bytes, the most significant first. -/
def bytes (u : Uuid) : List UInt8 :=
  (List.range 16).map fun i => (u.value.toNat >>> (8 * (15 - i))).toUInt8

/-- The identifier of a big-endian byte string. -/
def ofBytes (bytes : List UInt8) : Uuid :=
  ofNat (bytes.foldl (fun n b => 256 * n + b.toNat) 0)

/-- The 32 digits without hyphens. -/
def digits (u : Uuid) : List Char := Hex.fixed 32 u.value.toNat

/-- The 32 digits as a text. -/
def compact (u : Uuid) : String := String.ofList u.digits

/-- The hyphenated form, in lower case. -/
def text (u : Uuid) : String :=
  let d := u.digits
  String.ofList (d.take 8 ++ '-' :: (d.drop 8).take 4 ++ '-' :: (d.drop 12).take 4 ++
    '-' :: (d.drop 16).take 4 ++ '-' :: d.drop 20)

instance : ToString Uuid := ⟨text⟩

/-- Read 32 digits. -/
def ofDigits? (digits : List UInt8) : Option Uuid :=
  if digits.length = 32 then (Hex.number? digits).map ofNat else none

/-- Read digits in groups of 8, 4, 4, 4 and 12 with hyphens between them. -/
def ofHyphenated? (bytes : List UInt8) : Option Uuid :=
  let hyphen : UInt8 := 45
  if bytes.length = 36 ∧ bytes[8]? = some hyphen ∧ bytes[13]? = some hyphen ∧
      bytes[18]? = some hyphen ∧ bytes[23]? = some hyphen then
    ofDigits? (bytes.take 8 ++ (bytes.drop 9).take 4 ++ (bytes.drop 14).take 4 ++
      (bytes.drop 19).take 4 ++ bytes.drop 24)
  else none

/-- Whether bytes are `urn:uuid:`, in letters of either case. -/
def isUrnStart (bytes : List UInt8) : Bool :=
  (bytes.map fun b => if 65 ≤ b ∧ b ≤ 90 then b + 32 else b) == "urn:uuid:".toUTF8.toList

/-- Read an identifier: 32 digits, or the hyphenated form alone, in braces or after `urn:uuid:`. -/
def parse? (text : String) : Option Uuid :=
  let bytes := text.toUTF8.toList
  match bytes.length with
  | 32 => ofDigits? bytes
  | 36 => ofHyphenated? bytes
  | 38 =>
    if bytes.head? = some 123 ∧ bytes.getLast? = some 125 then
      ofHyphenated? ((bytes.drop 1).take 36)
    else none
  | 45 =>
    if isUrnStart (bytes.take 9) then ofHyphenated? (bytes.drop 9) else none
  | _ => none

/-- Stamp the bits as a version 4 identifier: byte 6 begins with 4, byte 8 with the bits 10. -/
def random (bits : Uuid) : Uuid :=
  ⟨(bits.value &&& 0xffffffffffff0fff3fffffffffffffff#128) ||| 0x40008000000000000000#128⟩

end Uuid

/-- Where the bits of fresh identifiers come from. -/
structure IdSupply where
  /-- Bits to use first, in this order. -/
  given : List Uuid := []
  /-- How many were drawn after the given ones had been used up. -/
  drawn : Nat := 0
  deriving Inhabited

namespace IdSupply

/-- Draw a fresh version 4 identifier. -/
def draw (s : IdSupply) : Uuid × IdSupply :=
  match s.given with
  | bits :: rest => (bits.random, { s with given := rest })
  | [] => ((Uuid.ofNat (s.drawn + 1)).random, { s with drawn := s.drawn + 1 })

end IdSupply

end WorkerCluster
