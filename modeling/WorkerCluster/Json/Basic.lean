import WorkerCluster.Binary64.Shortest
import WorkerCluster.Hex
import WorkerCluster.SortedMap

/-!
# JSON values

* `Json` is a value with the fields of its objects in the order in which they are written.
* `Json.object` builds an object in canonical form: fields sorted by name, the last of a name wins.
* `Json.text` is the compact text of a value.
-/

namespace WorkerCluster

/-- A number as JSON texts can hold it: an integer of 64 bits, signed or unsigned, or a finite
double-precision number. -/
inductive Json.Number
  /-- An integer. -/
  | integer (value : Int) (inRange : -0x8000000000000000 ≤ value ∧ value < 0x10000000000000000)
  /-- A finite double-precision number. -/
  | float (value : Binary64) (finite : value.isFinite = true)
  deriving DecidableEq

/-- A JSON value. -/
inductive Json
  | null
  | bool (value : Bool)
  | number (value : Json.Number)
  | string (value : String)
  | array (items : List Json)
  | fields (entries : List (String × Json))

namespace Json

instance : Inhabited Json := ⟨null⟩

/-- The number of an integer that fits, by default zero. -/
def ofInt (i : Int) : Json :=
  if h : -0x8000000000000000 ≤ i ∧ i < 0x10000000000000000 then number (.integer i h) else null

/-- The number of a natural number of 64 bits. -/
def ofUInt64 (n : UInt64) : Json :=
  number (.integer n.toNat ⟨by omega, by have := n.toNat_lt; omega⟩)

/-- The number of a double-precision number; one that is not finite has no number and is `null`. -/
def ofFloat (x : Binary64) : Json :=
  if h : x.isFinite = true then number (.float x h) else null

/-- Build an object in canonical form. -/
def object (entries : List (String × Json)) : Json :=
  fields (SortedMap.ofList entries).entries

/-- The object with the entries of a map. -/
def ofMap (m : SortedMap String Json) : Json := fields m.entries

/-! ### Canonical form -/

mutual

/-- Sort the fields of every object by name. -/
def sorted : Json → Json
  | array items => array (sortedItems items)
  | fields entries => object (sortedFields entries)
  | j => j

/-- Sort the fields of every object in a list. -/
def sortedItems : List Json → List Json
  | [] => []
  | j :: rest => j.sorted :: sortedItems rest

/-- Sort the fields of every object under a list of names. -/
def sortedFields : List (String × Json) → List (String × Json)
  | [] => []
  | (name, j) :: rest => (name, j.sorted) :: sortedFields rest

end

mutual

/-- How deep arrays and objects nest. -/
def depth : Json → Nat
  | array items => depthItems items + 1
  | fields entries => depthFields entries + 1
  | _ => 0

/-- How deep the values of a list nest. -/
def depthItems : List Json → Nat
  | [] => 0
  | j :: rest => max j.depth (depthItems rest)

/-- How deep the values of a list of fields nest. -/
def depthFields : List (String × Json) → Nat
  | [] => 0
  | (_, j) :: rest => max j.depth (depthFields rest)

end

mutual

/-- Whether the fields of every object are sorted by name, each name once. -/
def Canonical : Json → Prop
  | array items => CanonicalItems items
  | fields entries =>
    entries.Pairwise (fun a b => a.1 < b.1) ∧ CanonicalFields entries
  | _ => True

/-- Whether every value of a list is canonical. -/
def CanonicalItems : List Json → Prop
  | [] => True
  | j :: rest => j.Canonical ∧ CanonicalItems rest

/-- Whether every value of a list of fields is canonical. -/
def CanonicalFields : List (String × Json) → Prop
  | [] => True
  | (_, j) :: rest => j.Canonical ∧ CanonicalFields rest

end

/-! ### Text -/

/-- A character inside a quoted text. Quotes, backslashes and control characters are escaped, all
others stand for themselves. -/
def escape (c : Char) : List Char :=
  if c = '"' then ['\\', '"']
  else if c = '\\' then ['\\', '\\']
  else if c = '\n' then ['\\', 'n']
  else if c = '\r' then ['\\', 'r']
  else if c = '\t' then ['\\', 't']
  else if c.toNat = 8 then ['\\', 'b']
  else if c.toNat = 12 then ['\\', 'f']
  else if c.toNat < 32 then '\\' :: 'u' :: Hex.fixed 4 c.toNat
  else [c]

/-- A text in quotes. -/
def quote (s : String) : String :=
  "\"" ++ String.ofList (s.toList.flatMap escape) ++ "\""

/-- The text of a number. -/
def Number.text : Number → String
  | .integer i _ => if i < 0 then "-" ++ toString i.natAbs else toString i.natAbs
  | .float x _ => x.text

/-- Texts with commas between them. -/
def commas : List String → String
  | [] => ""
  | s :: rest => rest.foldl (fun acc t => acc ++ "," ++ t) s

mutual

/-- The compact text of a value. -/
def text : Json → String
  | null => "null"
  | bool true => "true"
  | bool false => "false"
  | number n => n.text
  | string s => quote s
  | array items => "[" ++ commas (textItems items) ++ "]"
  | fields entries => "\x7b" ++ commas (textFields entries) ++ "\x7d"

/-- The texts of a list of values. -/
def textItems : List Json → List String
  | [] => []
  | j :: rest => j.text :: textItems rest

/-- The texts of a list of fields. -/
def textFields : List (String × Json) → List String
  | [] => []
  | (name, j) :: rest => (quote name ++ ":" ++ j.text) :: textFields rest

end

/-- The bytes of the compact text. -/
def bytes (j : Json) : List UInt8 := j.text.toUTF8.toList

end Json

end WorkerCluster
