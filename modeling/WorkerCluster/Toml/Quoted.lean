import WorkerCluster.Hex

/-!
# Quoted texts in TOML

A text stands in single or double quotes, one or three of them. Backslashes escape in double quotes
only; line breaks may stand in triple quotes only.

* `Quoted.write` writes a text in the plainest form that can hold it.
* `Quoted.read` reads any of the four forms.
-/

namespace WorkerCluster.Toml.Quoted

/-! ### Writing -/

/-- The length of the longest run of a character. -/
def longestRun (c : Char) (cs : List Char) : Nat :=
  (cs.foldl (fun (best, run) d => if d = c then (max best (run + 1), run + 1) else (best, 0))
    (0, 0)).1

/-- Whether a character is an ASCII control character other than a tab or a line feed. -/
def isControl (c : Char) : Bool := (c.toNat < 32 && c != '\t' && c != '\n') || c.toNat = 127

/-- The forms of a quoted text. -/
inductive Form
  /-- One line between `"`. -/
  | basic
  /-- One line between `'`. -/
  | literal
  /-- Lines between `"""`. -/
  | longBasic
  /-- Lines between `'''`. -/
  | longLiteral
  deriving DecidableEq

/-- The plainest form that can hold a text. -/
def form (cs : List Char) : Form :=
  let control := cs.any isControl
  let backslash := cs.contains '\\'
  let line := cs.contains '\n'
  if !control && !backslash && !cs.contains '"' && !line then .basic
  else if !control && !cs.contains '\'' && !line then .literal
  else if !control && !backslash && longestRun '"' cs ≤ 2 then .longBasic
  else if !control && longestRun '\'' cs ≤ 2 then .longLiteral
  else if line then .longBasic
  else .basic

/-- A character other than a quote in double quotes. -/
def escape (long : Bool) (c : Char) : List Char :=
  if c = '\\' then ['\\', '\\']
  else if c = '\t' then ['\\', 't']
  else if c = '\r' then ['\\', 'r']
  else if c.toNat = 8 then ['\\', 'b']
  else if c.toNat = 12 then ['\\', 'f']
  else if c = '\n' then if long then ['\n'] else ['\\', 'n']
  else if isControl c then '\\' :: 'u' :: Hex.fixedUpper 4 c.toNat
  else [c]

/-- The characters of a text in double quotes. In the long form `quotes` of them have just been
written as they are, and only a third one in a row is escaped. -/
def escapeAll (long : Bool) : (quotes : Nat) → List Char → List Char
  | _, [] => []
  | quotes, c :: rest =>
    if c = '"' then
      if long && quotes < 2 then '"' :: escapeAll long (quotes + 1) rest
      else '\\' :: '"' :: escapeAll long 0 rest
    else escape long c ++ escapeAll long 0 rest

/-- What follows the opening quotes of a long form: a line break if the text has one itself. -/
def lead (cs : List Char) : List Char := if cs.contains '\n' then ['\n'] else []

/-- Write a text. -/
def write (cs : List Char) : List Char :=
  match form cs with
  | .basic => '"' :: escapeAll false 0 cs ++ ['"']
  | .literal => '\'' :: cs ++ ['\'']
  | .longBasic => ['"', '"', '"'] ++ lead cs ++ escapeAll true 0 cs ++ ['"', '"', '"']
  | .longLiteral => ['\'', '\'', '\''] ++ lead cs ++ cs ++ ['\'', '\'', '\'']

/-! ### Reading -/

/-- Whether a character may stand for itself within a line: no control character but a tab. -/
def isPlain (c : Char) : Bool := c = '\t' || (32 ≤ c.toNat && c.toNat != 127)

/-- The character of a code point, unless it is a surrogate or too large. -/
def ofCodePoint? (n : Nat) : Option Char :=
  if n.isValidChar then some (Char.ofNat n) else none

/-- The character that hexadecimal digits give. -/
def hexChar? (digits : List Char) : Option Char :=
  if digits.all (·.toNat < 128) then
    (Hex.number? (digits.map fun c => c.toNat.toUInt8)).bind ofCodePoint?
  else none

/-- The character that a letter stands for after a backslash. -/
def unescape? : Char → Option Char
  | 'b' => some (Char.ofNat 8)
  | 'f' => some (Char.ofNat 12)
  | 'n' => some '\n'
  | 'r' => some '\r'
  | 't' => some '\t'
  | '"' => some '"'
  | '\\' => some '\\'
  | _ => none

/-- Put a character before what is read next. -/
def before (c : Option Char) (next : Option (List Char × List Char)) :
    Option (List Char × List Char) :=
  match c, next with
  | some c, some (cs, rest) => some (c :: cs, rest)
  | _, _ => none

/-- Read up to the closing double quote: the text and what follows. -/
def readBasic : List Char → Option (List Char × List Char)
  | [] => none
  | '"' :: rest => some ([], rest)
  | '\\' :: 'u' :: a :: b :: c :: d :: rest => before (hexChar? [a, b, c, d]) (readBasic rest)
  | '\\' :: 'U' :: a :: b :: c :: d :: e :: f :: g :: h :: rest =>
    before (hexChar? [a, b, c, d, e, f, g, h]) (readBasic rest)
  | '\\' :: e :: rest => before (unescape? e) (readBasic rest)
  | c :: rest => if isPlain c then before (some c) (readBasic rest) else none

/-- Read up to the closing single quote. -/
def readLiteral : List Char → Option (List Char × List Char)
  | [] => none
  | '\'' :: rest => some ([], rest)
  | c :: rest => if isPlain c then before (some c) (readLiteral rest) else none

/-- Whether a backslash before this text joins lines: only blanks follow in the line. -/
def endsLine (cs : List Char) : Bool :=
  match cs.dropWhile fun c => c = ' ' || c = '\t' with
  | '\n' :: _ => true
  | '\r' :: '\n' :: _ => true
  | _ => false

/-- Read up to three closing double quotes; two more right before them belong to the text. While
`joining` lines, blanks and line breaks are passed over. -/
def readLongBasic : (joining : Bool) → List Char → Option (List Char × List Char)
  | _, [] => none
  | true, ' ' :: rest => readLongBasic true rest
  | true, '\t' :: rest => readLongBasic true rest
  | true, '\n' :: rest => readLongBasic true rest
  | true, '\r' :: '\n' :: rest => readLongBasic true rest
  | _, '"' :: '"' :: '"' :: '"' :: '"' :: rest => some (['"', '"'], rest)
  | _, '"' :: '"' :: '"' :: '"' :: rest => some (['"'], rest)
  | _, '"' :: '"' :: '"' :: rest => some ([], rest)
  | _, '\\' :: 'u' :: a :: b :: c :: d :: rest =>
    before (hexChar? [a, b, c, d]) (readLongBasic false rest)
  | _, '\\' :: 'U' :: a :: b :: c :: d :: e :: f :: g :: h :: rest =>
    before (hexChar? [a, b, c, d, e, f, g, h]) (readLongBasic false rest)
  | _, '\\' :: e :: rest =>
    if endsLine (e :: rest) then readLongBasic true (e :: rest)
    else before (unescape? e) (readLongBasic false rest)
  | _, '\r' :: '\n' :: rest => before (some '\n') (readLongBasic false rest)
  | _, c :: rest =>
    if isPlain c || c = '\n' then before (some c) (readLongBasic false rest) else none

/-- Read up to three closing single quotes; two more right before them belong to the text. -/
def readLongLiteral : List Char → Option (List Char × List Char)
  | [] => none
  | '\'' :: '\'' :: '\'' :: '\'' :: '\'' :: rest => some (['\'', '\''], rest)
  | '\'' :: '\'' :: '\'' :: '\'' :: rest => some (['\''], rest)
  | '\'' :: '\'' :: '\'' :: rest => some ([], rest)
  | '\r' :: '\n' :: rest => before (some '\n') (readLongLiteral rest)
  | c :: rest => if isPlain c || c = '\n' then before (some c) (readLongLiteral rest) else none

/-- The text after a line break that may follow the opening quotes of a long form. -/
def afterLead : List Char → List Char
  | '\n' :: rest => rest
  | '\r' :: '\n' :: rest => rest
  | cs => cs

/-- Read a text in any of the four forms: the text and what follows. -/
def read : List Char → Option (List Char × List Char)
  | '"' :: '"' :: '"' :: rest => readLongBasic false (afterLead rest)
  | '"' :: rest => readBasic rest
  | '\'' :: '\'' :: '\'' :: rest => readLongLiteral (afterLead rest)
  | '\'' :: rest => readLiteral rest
  | _ => none

/-- Read a text in one of the two short forms. -/
def readShort : List Char → Option (List Char × List Char)
  | '"' :: rest => readBasic rest
  | '\'' :: rest => readLiteral rest
  | _ => none

end WorkerCluster.Toml.Quoted
