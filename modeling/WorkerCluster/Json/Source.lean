import WorkerCluster.Json.Basic

/-!
# JSON as written

A text is first taken apart into a `Source`: the value as it stands there, with every fault that a
reader may meet. A reader that wants a value and one that passes over it object to different
things: a number too large or half a surrogate pair is no obstacle to skipping. So each `Atom`
carries both outcomes.

* `Fault` is the kind of a problem: the text is malformed, it ends too early, or it holds another
  type of value than the reader expects.
* `Source.scan` takes a text apart. It stops at the first fault that nobody can pass.
* `Source.ofJson` is the source of a value that has been read already.
-/

namespace WorkerCluster.Json

/-- What is wrong with a text. -/
inductive Fault
  /-- The text follows no JSON value. -/
  | malformed
  /-- The text ends within a value. -/
  | truncated
  /-- The text goes on as JSON, but is not of the expected type. -/
  | mismatched
  deriving DecidableEq, Repr

/-- A value without parts. -/
inductive Scalar
  | null
  | bool (value : Bool)
  | number (value : Number)
  | string (value : String)

/-- What the first byte of an atom announces. -/
inductive Opening
  /-- There is no byte left. -/
  | missing
  /-- A quote. -/
  | quote
  /-- Anything else. -/
  | other
  deriving DecidableEq

/-- A value without parts as it is written. -/
structure Atom where
  /-- What its first byte announces. -/
  opening : Opening
  /-- What a reader of the value gets. -/
  meaning : Except Fault Scalar
  /-- Why a reader that passes over the value cannot go on behind it, if so. -/
  blocked : Option Fault

/-- A value as it is written. `ending` is what is wrong where the closing bracket should be. -/
inductive Source
  | atom (a : Atom)
  | array (items : List Source) (ending : Option Fault)
  | fields (entries : List (Atom × Source)) (ending : Option Fault)

namespace Atom

/-- Nothing where a value should begin. -/
def missing : Atom := ⟨.missing, .error .truncated, some .truncated⟩

/-- Something that begins no value. -/
def junk : Atom := ⟨.other, .error .malformed, some .malformed⟩

/-- An atom that was read without a fault. -/
def ofScalar (s : Scalar) : Atom :=
  ⟨match s with | .string _ => .quote | _ => .other, .ok s, none⟩

/-- The text of a string atom. -/
def string? (a : Atom) : Except Fault String :=
  match a.meaning with
  | .ok (.string s) => .ok s
  | .ok _ => .error .mismatched
  | .error f => .error f

end Atom

mutual

/-- The source of a value. -/
def Source.ofJson : Json → Source
  | .null => .atom (.ofScalar .null)
  | .bool b => .atom (.ofScalar (.bool b))
  | .number n => .atom (.ofScalar (.number n))
  | .string s => .atom (.ofScalar (.string s))
  | .array items => .array (Source.ofItems items) none
  | .fields entries => .fields (Source.ofFields entries) none

/-- The sources of a list of values. -/
def Source.ofItems : List Json → List Source
  | [] => []
  | j :: rest => Source.ofJson j :: Source.ofItems rest

/-- The sources of a list of fields. -/
def Source.ofFields : List (String × Json) → List (Atom × Source)
  | [] => []
  | (name, j) :: rest => (.ofScalar (.string name), Source.ofJson j) :: Source.ofFields rest

end

/-! ### Blanks and words -/

/-- Whether a byte separates values: a space, a tab, a line feed or a carriage return. -/
def isBlank (b : UInt8) : Bool := b = 32 || b = 9 || b = 10 || b = 13

/-- The text after its leading blanks. -/
def skipBlanks (text : List UInt8) : List UInt8 := text.dropWhile isBlank

/-- The text after a word, or what is wrong with it. -/
def scanWord : List UInt8 → List UInt8 → Except Fault (List UInt8)
  | [], text => .ok text
  | _ :: _, [] => .error .truncated
  | w :: word, b :: text => if w = b then scanWord word text else .error .malformed

/-- A scanned atom and the text behind it, unless nobody can pass. -/
abbrev Scan := Atom × Option (List UInt8)

/-- Scan a word that stands for a value. -/
def scanLiteral (word : String) (value : Scalar) (text : List UInt8) : Scan :=
  match scanWord word.toUTF8.toList text with
  | .ok rest => (.ofScalar value, some rest)
  | .error f => (⟨.other, .error f, some f⟩, none)

/-! ### Numbers -/

/-- Whether a byte is a decimal digit. -/
def isDigit (b : UInt8) : Bool := 48 ≤ b && b ≤ 57

/-- The number that decimal digits write, after digits that write `n`. -/
def decimal (n : Nat) (digits : List UInt8) : Nat :=
  digits.foldl (fun n b => 10 * n + (b.toNat - 48)) n

/-- A number that breaks off. A reader of the value finds the end of the text too early where one
that passes over it finds no digit. -/
def brokenNumber (text : List UInt8) : Scan :=
  (⟨.other, .error (if text.isEmpty then .truncated else .malformed), some .malformed⟩, none)

/-- The value of a number without point and exponent: an integer if it fits 64 bits. -/
def integerValue (negative : Bool) (n : Nat) : Except Fault Scalar :=
  let i : Int := if negative then -n else n
  if h : -0x8000000000000000 ≤ i ∧ i < 0x10000000000000000 then
    if negative ∧ n = 0 then .ok (.number (.float (Binary64.signedZero true) (by decide)))
    else .ok (.number (.integer i h))
  else
    let x := Binary64.ofDecimal negative n 0
    if h : x.isFinite = true then .ok (.number (.float x h)) else .error .malformed

/-- The value of a number with a point or an exponent. -/
def floatValue (negative : Bool) (digits : Nat) (power : Int) : Except Fault Scalar :=
  let x := Binary64.ofDecimal negative digits power
  if h : x.isFinite = true then .ok (.number (.float x h)) else .error .malformed

/-- Scan the exponent of a number, behind its `e`. -/
def scanExponent (negative : Bool) (digits : Nat) (power : Int) (text : List UInt8) : Scan :=
  let (minus, text) := match text with
    | 43 :: rest => (false, rest)
    | 45 :: rest => (true, rest)
    | _ => (false, text)
  let exponent := text.takeWhile isDigit
  let rest := text.dropWhile isDigit
  if exponent.isEmpty then brokenNumber text
  else
    let e : Int := decimal 0 exponent
    (⟨.other, floatValue negative digits (power + if minus then -e else e), none⟩, some rest)

/-- Scan what follows the digits before the point. -/
def scanTail (negative : Bool) (whole : List UInt8) (text : List UInt8) : Scan :=
  let n := decimal 0 whole
  match text with
  | 46 :: text =>
    let places := text.takeWhile isDigit
    let rest := text.dropWhile isDigit
    if places.isEmpty then brokenNumber text
    else
      let digits := decimal n places
      let power : Int := -places.length
      match rest with
      | 69 :: rest | 101 :: rest => scanExponent negative digits power rest
      | _ => (⟨.other, floatValue negative digits power, none⟩, some rest)
  | 69 :: rest | 101 :: rest => scanExponent negative n 0 rest
  | _ => (⟨.other, integerValue negative n, none⟩, some text)

/-- Scan a number behind its sign. A zero is followed by no digit. -/
def scanNumber (negative : Bool) (text : List UInt8) : Scan :=
  match text.takeWhile isDigit with
  | [] => brokenNumber text
  | [48] => scanTail negative [48] (text.drop 1)
  | 48 :: _ => (.junk, none)
  | whole => scanTail negative whole (text.dropWhile isDigit)

/-! ### Strings -/

/-- Where the scanner of a string stands. -/
inductive StringState
  /-- Between characters. -/
  | plain
  /-- Behind a backslash. -/
  | escape
  /-- Within the four digits of an escape, of which some were seen. `high` is the leading half of
  a surrogate pair before it. -/
  | digits (high : Option Nat) (seen : List UInt8)
  /-- Behind the leading half of a surrogate pair. -/
  | high (half : Nat)
  /-- Behind the leading half of a surrogate pair and a backslash. -/
  | highEscape (half : Nat)

/-- The byte that a short escape stands for. -/
def shortEscape? (b : UInt8) : Option UInt8 :=
  if b = 34 ∨ b = 92 ∨ b = 47 then some b
  else if b = 98 then some 8
  else if b = 102 then some 12
  else if b = 110 then some 10
  else if b = 114 then some 13
  else if b = 116 then some 9
  else none

/-- The string atom of the bytes between the quotes. -/
def stringAtom (content : List UInt8) (unpaired : Bool) : Atom :=
  let meaning : Except Fault Scalar :=
    if unpaired then .error .malformed
    else match String.fromUTF8? ⟨content.toArray⟩ with
      | some s => .ok (.string s)
      | none => .error .malformed
  ⟨.quote, meaning, none⟩

/-- A string that nobody can pass. Half a surrogate pair before it was met first. -/
def brokenString (unpaired : Bool) (f : Fault) : Scan :=
  (⟨.quote, .error (if unpaired then .malformed else f), some f⟩, none)

/-- The bytes of a character, given by its code point. -/
def utf8Bytes (codePoint : Nat) : List UInt8 :=
  (String.singleton (Char.ofNat codePoint)).toUTF8.toList

/-- Scan a string behind its opening quote. `content` holds the bytes so far, the last one first;
`unpaired` says whether half a surrogate pair stood alone. -/
def scanString : StringState → List UInt8 → Bool → List UInt8 → Scan
  | _, _, unpaired, [] => brokenString unpaired .truncated
  | .plain, content, unpaired, b :: rest =>
    if b = 34 then (stringAtom content.reverse unpaired, some rest)
    else if b = 92 then scanString .escape content unpaired rest
    else if b < 32 then brokenString unpaired .malformed
    else scanString .plain (b :: content) unpaired rest
  | .escape, content, unpaired, b :: rest =>
    if b = 117 then scanString (.digits none []) content unpaired rest
    else match shortEscape? b with
      | some c => scanString .plain (c :: content) unpaired rest
      | none => brokenString unpaired .malformed
  | .high half, content, unpaired, b :: rest =>
    if b = 92 then scanString (.highEscape half) content unpaired rest
    else if b = 34 then (stringAtom content.reverse true, some rest)
    else if b < 32 then brokenString true .malformed
    else scanString .plain content true rest
  | .highEscape half, content, unpaired, b :: rest =>
    if b = 117 then scanString (.digits (some half) []) content unpaired rest
    else match shortEscape? b with
      | some _ => scanString .plain content true rest
      | none => brokenString true .malformed
  | .digits high seen, content, unpaired, b :: rest =>
    if seen.length < 3 then scanString (.digits high (seen ++ [b])) content unpaired rest
    else match Hex.number? (seen ++ [b]) with
      | none => brokenString unpaired .malformed
      | some n =>
        match high with
        | some half =>
          if 0xDC00 ≤ n ∧ n ≤ 0xDFFF then
            let codePoint := (half - 0xD800) * 0x400 + (n - 0xDC00) + 0x10000
            scanString .plain ((utf8Bytes codePoint).reverse ++ content) unpaired rest
          else scanString .plain content true rest
        | none =>
          if 0xDC00 ≤ n ∧ n ≤ 0xDFFF then scanString .plain content true rest
          else if 0xD800 ≤ n ∧ n ≤ 0xDBFF then scanString (.high n) content unpaired rest
          else scanString .plain ((utf8Bytes n).reverse ++ content) unpaired rest

/-! ### Values -/

/-- Scan a value without parts, of which `b` is the first byte. -/
def scanAtom (b : UInt8) (rest : List UInt8) : Scan :=
  if b = 110 then scanLiteral "ull" .null rest
  else if b = 116 then scanLiteral "rue" (.bool true) rest
  else if b = 102 then scanLiteral "alse" (.bool false) rest
  else if b = 45 then scanNumber true rest
  else if isDigit b then scanNumber false (b :: rest)
  else if b = 34 then scanString .plain [] false rest
  else (.junk, none)

mutual

/-- Scan a value. Of two nested calls the outer one uses up a byte of the text, so fuel of twice
its length suffices. -/
def scanValue : (fuel : Nat) → List UInt8 → Source × Option (List UInt8)
  | 0, _ => (.atom .missing, none)
  | fuel + 1, text =>
    match skipBlanks text with
    | [] => (.atom .missing, none)
    | 91 :: rest =>
      match skipBlanks rest with
      | [] => (.array [] (some .truncated), none)
      | 93 :: rest => (.array [] none, some rest)
      | rest =>
        let (items, ending, rest) := scanItems fuel rest
        (.array items ending, rest)
    | 123 :: rest =>
      match skipBlanks rest with
      | [] => (.fields [] (some .truncated), none)
      | 125 :: rest => (.fields [] none, some rest)
      | rest =>
        let (entries, ending, rest) := scanFields fuel rest
        (.fields entries ending, rest)
    | b :: rest =>
      let (a, rest) := scanAtom b rest
      (.atom a, rest)

/-- Scan the items of an array from one that must follow. -/
def scanItems : (fuel : Nat) → List UInt8 → List Source × Option Fault × Option (List UInt8)
  | 0, _ => ([], some .truncated, none)
  | fuel + 1, text =>
    match scanValue fuel text with
    | (item, none) => ([item], none, none)
    | (item, some rest) =>
      match skipBlanks rest with
      | [] => ([item], some .truncated, none)
      | 93 :: rest => ([item], none, some rest)
      | 44 :: rest =>
        let (items, ending, rest) := scanItems fuel rest
        (item :: items, ending, rest)
      | _ => ([item], some .malformed, none)

/-- Scan the fields of an object from one that must follow. Where no name begins, what stands
there is kept as the value of a field without a name. -/
def scanFields : (fuel : Nat) → List UInt8 →
    List (Atom × Source) × Option Fault × Option (List UInt8)
  | 0, _ => ([], some .truncated, none)
  | fuel + 1, text =>
    match skipBlanks text with
    | [] => ([(.missing, .atom .missing)], none, none)
    | 34 :: rest =>
      match scanString .plain [] false rest with
      | (name, none) => ([(name, .atom .junk)], none, none)
      | (name, some rest) =>
        match skipBlanks rest with
        | [] => ([(name, .atom .missing)], none, none)
        | 58 :: rest =>
          match scanValue fuel rest with
          | (value, none) => ([(name, value)], none, none)
          | (value, some rest) =>
            match skipBlanks rest with
            | [] => ([(name, value)], some .truncated, none)
            | 125 :: rest => ([(name, value)], none, some rest)
            | 44 :: rest =>
              let (entries, ending, rest) := scanFields fuel rest
              ((name, value) :: entries, ending, rest)
            | _ => ([(name, value)], some .malformed, none)
        | _ => ([(name, .atom .junk)], none, none)
    | text => ([(.junk, (scanValue fuel text).1)], none, none)

end

/-- Take a text apart: its value, and whether anything but blanks follows it. -/
def Source.scan (text : List UInt8) : Source × Bool :=
  match scanValue (2 * text.length + 2) text with
  | (s, none) => (s, false)
  | (s, some rest) => (s, !(skipBlanks rest).isEmpty)

end WorkerCluster.Json
