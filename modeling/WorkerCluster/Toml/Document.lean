import WorkerCluster.Toml.Number
import WorkerCluster.Toml.Quoted

/-!
# TOML documents

* `Statement` is a header or an entry, as the text gives them.
* `Document.statements?` takes a text apart, `Table.ofStatements?` builds the table of the document.
* `Document.parse` does both.
-/

namespace WorkerCluster.Toml

/-! ### Blanks and comments -/

/-- Whether a character is a blank within a line. -/
def isSpace (c : Char) : Bool := c = ' ' || c = '\t'

/-- The text after blanks within the line. -/
def skipSpaces (cs : List Char) : List Char := cs.dropWhile isSpace

/-- The text after blanks, line breaks and comments, up to the first thing that is none of them. -/
def skipGap : (comment : Bool) → List Char → List Char
  | _, [] => []
  | _, '\n' :: rest => skipGap false rest
  | _, '\r' :: '\n' :: rest => skipGap false rest
  | true, c :: rest => if Quoted.isPlain c then skipGap true rest else c :: rest
  | false, ' ' :: rest => skipGap false rest
  | false, '\t' :: rest => skipGap false rest
  | false, '#' :: rest => skipGap true rest
  | false, cs => cs

/-- The text after the end of the line, where nothing but blanks and a comment may come before. -/
def endLine (cs : List Char) : Option (List Char) :=
  let rest := match skipSpaces cs with
    | '#' :: rest => rest.dropWhile Quoted.isPlain
    | rest => rest
  match rest with
  | [] => some []
  | '\n' :: rest => some rest
  | '\r' :: '\n' :: rest => some rest
  | _ => none

/-! ### Keys -/

/-- Whether a character may occur in a key without quotes. -/
def isKeyChar (c : Char) : Bool := c.isAlphanum || c = '-' || c = '_'

/-- Read one part of a key. -/
def readKeyPart (cs : List Char) : Option (String × List Char) :=
  match cs with
  | '"' :: _ | '\'' :: _ => (Quoted.readShort cs).map fun (part, rest) => (String.ofList part, rest)
  | _ =>
    match cs.span isKeyChar with
    | ([], _) => none
    | (part, rest) => some (String.ofList part, rest)

/-- Read a key of parts with points between them: the parts before the last, the last one, and what
follows. A key has as many parts as `room` allows. -/
def readKey : (room : Nat) → List Char → Option (List String × String × List Char)
  | 0, _ => none
  | room + 1, cs => do
    let (part, rest) ← readKeyPart (skipSpaces cs)
    match skipSpaces rest with
    | '.' :: rest => do
      let (path, key, rest) ← readKey room rest
      return (part :: path, key, rest)
    | rest => return ([], part, rest)

/-- How many parts a key may have, and how deep values may nest. -/
def room : Nat := 79

/-! ### Values -/

/-- A way to read values. -/
abbrev Reader := List Char → Option (Value × List Char)

/-- Read the items of an array and the closing bracket. The fuel bounds their number. -/
def readItems (value : Reader) : (fuel : Nat) → List Char → Option (List Value × List Char)
  | 0, _ => none
  | fuel + 1, cs =>
    match skipGap false cs with
    | ']' :: rest => some ([], rest)
    | cs => do
      let (v, rest) ← value cs
      match skipGap false rest with
      | ',' :: rest => do
        let (vs, rest) ← readItems value fuel rest
        return (v :: vs, rest)
      | ']' :: rest => return ([v], rest)
      | _ => none

/-- Read an entry: path, key and value, and what follows. -/
def readEntry (value : Reader) (cs : List Char) :
    Option ((List String × String × Value) × List Char) := do
  let (path, key, rest) ← readKey room cs
  match rest with
  | '=' :: rest => do
    let (v, rest) ← value (skipSpaces rest)
    return ((path, key, v), rest)
  | _ => none

/-- Read the entries of a table in braces, of which there must be one, and the closing brace. -/
def readEntries (value : Reader) :
    (fuel : Nat) → List Char → Option (List (List String × String × Value) × List Char)
  | 0, _ => none
  | fuel + 1, cs => do
    let (e, rest) ← readEntry value cs
    match skipSpaces rest with
    | ',' :: rest => do
      let (es, rest) ← readEntries value fuel rest
      return (e :: es, rest)
    | c :: rest => if c = '\x7d' then return ([e], rest) else none
    | [] => none

/-- Read a table in braces after the opening one. -/
def readBraced (value : Reader) (cs : List Char) : Option (Value × List Char) := do
  let (entries, rest) ← match skipSpaces cs with
    | c :: rest => if c = '\x7d' then some ([], rest) else readEntries value cs.length cs
    | [] => none
  let t ← Table.ofEntries entries
  return (t.value, rest)

/-- Read a value without parts. -/
def readScalar (cs : List Char) : Option (Value × List Char) :=
  match cs with
  | '"' :: _ | '\'' :: _ =>
    (Quoted.read cs).map fun (text, rest) => (.string (String.ofList text), rest)
  | _ => readWord cs

/-- Read a value. Arrays and tables in braces nest as deep as `room` allows. -/
def readValue : (room : Nat) → List Char → Option (Value × List Char)
  | 0, cs => readScalar cs
  | room + 1, cs =>
    match cs with
    | '[' :: rest => (readItems (readValue room) (rest.length + 1) rest).map fun (items, rest) =>
      (.array items, rest)
    | '\x7b' :: rest => readBraced (readValue room) rest
    | _ => readScalar cs

/-! ### Statements -/

/-- A line of a document that says something. -/
inductive Statement
  /-- The header of a table. -/
  | table (path : List String) (key : String)
  /-- The header of one more table of an array. -/
  | element (path : List String) (key : String)
  /-- An entry of the table with the last header. -/
  | entry (path : List String) (key : String) (value : Value)

/-- Read a statement and the end of its line. -/
def readStatement (cs : List Char) : Option (Statement × List Char) :=
  match cs with
  | '[' :: '[' :: rest => do
    let (path, key, rest) ← readKey room rest
    match rest with
    | ']' :: ']' :: rest => return (.element path key, ← endLine rest)
    | _ => none
  | '[' :: rest => do
    let (path, key, rest) ← readKey room rest
    match rest with
    | ']' :: rest => return (.table path key, ← endLine rest)
    | _ => none
  | _ => do
    let ((path, key, v), rest) ← readEntry (readValue room) cs
    return (.entry path key v, ← endLine rest)

namespace Document

/-- Take a text apart. The fuel bounds the number of lines. -/
def statementsOf? : (fuel : Nat) → List Char → Option (List Statement)
  | 0, _ => none
  | fuel + 1, cs =>
    match skipSpaces cs with
    | [] => some []
    | '\n' :: rest => statementsOf? fuel rest
    | '\r' :: '\n' :: rest => statementsOf? fuel rest
    | '#' :: rest => do statementsOf? fuel (← endLine ('#' :: rest))
    | cs => do
      let (s, rest) ← readStatement cs
      return s :: (← statementsOf? fuel rest)

/-- Take a text apart. A byte order mark may come first. -/
def statements? (text : String) : Option (List Statement) :=
  let cs := match text.toList with
    | c :: rest => if c.toNat = 0xfeff then rest else c :: rest
    | [] => []
  statementsOf? (cs.length + 1) cs

end Document

/-- Follow a statement. `here` leads to the table with the last header. -/
def Table.follow (here : List String) (t : Table) : Statement → Option (List String × Table)
  | .table path key => (t.open path key).map (path ++ [key], ·)
  | .element path key => (t.append path key).map (path ++ [key], ·)
  | .entry path key v => (t.within .implied (·.addEntry path key v) here).map (here, ·)

/-- The table of a document. -/
def Table.ofStatements? (statements : List Statement) : Option Table :=
  let start : List String × Table := ([], .new .defined)
  (statements.foldlM (fun st s => Table.follow st.1 st.2 s) start).map Prod.snd

/-- Read a document. -/
def Document.parse (text : String) : Option Table :=
  (Document.statements? text).bind Table.ofStatements?

end WorkerCluster.Toml
