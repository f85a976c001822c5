import WorkerCluster.Binary64.Basic
import WorkerCluster.Json.Source

/-!
# TOML values

A document is a table of values, put together from headers and entries in any order.

* `Table.addEntry` adds an entry under a dotted key, `Table.open` and `Table.append` follow headers.
  All of them refuse to define something twice, and to go on with what was finished.
* `Value.source` is what a reader of configurations is given.
-/

namespace WorkerCluster.Toml

/-- How a table has come to be, which decides who may add to it. -/
inductive Origin
  /-- It is on the way to a table with a header of its own. -/
  | implied
  /-- It was made by a dotted key. -/
  | dotted
  /-- It has a header, or is the document. -/
  | defined
  /-- It stands in braces. -/
  | braced
  deriving DecidableEq, Inhabited

/-- A value. -/
inductive Value
  | string (text : String)
  | integer (value : Int)
  | float (value : Binary64)
  | bool (value : Bool)
  /-- A date, a time or both, as it is written. -/
  | moment (text : String)
  | array (items : List Value)
  | table (origin : Origin) (entries : List (String × Value))
  /-- An array of tables that have headers. -/
  | tables (items : List (Origin × List (String × Value)))
  deriving Inhabited

/-- A table. -/
structure Table where
  origin : Origin
  entries : List (String × Value)
  deriving Inhabited

namespace Table

/-- A table without entries. -/
def new (origin : Origin) : Table := ⟨origin, []⟩

/-- The table as a value. -/
def value (t : Table) : Value := .table t.origin t.entries

/-- Replace what stands under a key. -/
def alterEntries (key : String) (f : Option Value → Option Value) :
    List (String × Value) → Option (List (String × Value))
  | [] => (f none).map fun v => [(key, v)]
  | (k, v) :: rest =>
    if k = key then (f (some v)).map fun v => (k, v) :: rest
    else (alterEntries key f rest).map fun rest => (k, v) :: rest

/-- Replace what stands under a key. -/
def alter (key : String) (f : Option Value → Option Value) (t : Table) : Option Table :=
  (alterEntries key f t.entries).map fun entries => { t with entries }

/-- Change the last one of a list of tables. -/
def alterLast (f : Table → Option Table) :
    List (Origin × List (String × Value)) → Option (List (Origin × List (String × Value)))
  | [] => none
  | [(origin, entries)] => (f ⟨origin, entries⟩).map fun t => [(t.origin, t.entries)]
  | t :: rest => (alterLast f rest).map (t :: ·)

/-- Change the table at the end of a path, making tables on the way. A dotted key may not go
through a table that has a header; an array of tables is entered at its last one. -/
def within (origin : Origin) (f : Table → Option Table) : List String → Table → Option Table
  | [], t => f t
  | key :: path, t =>
    t.alter key fun
      | none => (within origin f path (new origin)).map value
      | some (.table o entries) =>
        if o = .braced ∨ (origin = .dotted ∧ o = .defined) then none
        else (within origin f path ⟨o, entries⟩).map value
      | some (.tables items) => (alterLast (within origin f path) items).map .tables
      | some _ => none

/-- Add an entry to the table at the end of a path. -/
def addEntry (path : List String) (key : String) (v : Value) (t : Table) : Option Table :=
  within .dotted (fun t =>
    if (t.origin = .dotted) = (path = []) then none
    else t.alter key fun
      | none => some v
      | some _ => none) path t

/-- Follow the header of a table: it must be new, or have been on the way only. -/
def «open» (path : List String) (key : String) (t : Table) : Option Table :=
  within .implied (fun t => t.alter key fun
    | none => some (.table .defined [])
    | some (.table .implied entries) => some (.table .defined entries)
    | some _ => none) path t

/-- Follow the header of one more table of an array. -/
def append (path : List String) (key : String) (t : Table) : Option Table :=
  within .implied (fun t => t.alter key fun
    | none => some (.tables [(.defined, [])])
    | some (.tables items) => some (.tables (items ++ [(.defined, [])]))
    | some _ => none) path t

/-- The table in braces with these entries, each of them a path, a key and a value. -/
def ofEntries (entries : List (List String × String × Value)) : Option Table :=
  let add (t : Table) (entry : List String × String × Value) : Option Table :=
    t.addEntry entry.1 entry.2.1 entry.2.2
  let built := entries.foldlM add (new .defined)
  built.map fun t => { t with origin := .braced }

end Table

open Json (Atom Source)

/-- A value that nothing but passing over it can be done with. -/
def unreadable : Source := .atom ⟨.other, .error .mismatched, none⟩

namespace Value

mutual

/-- What a reader of configurations is given. A moment is an object with one field. -/
def source : Value → Source
  | .string s => .atom (.ofScalar (.string s))
  | .integer i =>
    if h : -0x8000000000000000 ≤ i ∧ i < 0x10000000000000000 then
      .atom (.ofScalar (.number (.integer i h)))
    else unreadable
  | .float _ => unreadable
  | .bool b => .atom (.ofScalar (.bool b))
  | .moment s =>
    .fields [(.ofScalar (.string "$__toml_private_datetime"), .atom (.ofScalar (.string s)))] none
  | .array items => .array (sources items) none
  | .table _ entries => .fields (entrySources entries) none
  | .tables items => .array (tableSources items) none

/-- The sources of a list of values. -/
def sources : List Value → List Source
  | [] => []
  | v :: rest => v.source :: sources rest

/-- The sources of a list of entries. -/
def entrySources : List (String × Value) → List (Atom × Source)
  | [] => []
  | (key, v) :: rest => (.ofScalar (.string key), v.source) :: entrySources rest

/-- The sources of a list of tables. -/
def tableSources : List (Origin × List (String × Value)) → List Source
  | [] => []
  | (_, entries) :: rest => .fields (entrySources entries) none :: tableSources rest

end

end Value

/-- What a reader of a configuration is given. -/
def Table.source (t : Table) : Source := t.value.source

end WorkerCluster.Toml
