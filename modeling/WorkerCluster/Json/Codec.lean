import WorkerCluster.Json.Source

/-!
# JSON forms of types

A `Codec α` writes values of `α` as JSON and reads them back from a source.

* `Reading` is the way in which a source is read: straight from the text, where the first fault
  decides and nesting is limited, or from a copy that has been read in full before.
* `Codec.list`, `Codec.option`, `Codec.map` and the codecs of numbers and texts are the parts.
* `Fields` lists the fields of a record; `Fields.record` is the codec of the record. A record is
  read from an object, in any order of fields and passing over unknown ones, or from an array.
* `Variant.read` reads a value of one of several kinds, told apart by what one field holds.
-/

namespace WorkerCluster.Json

/-- How a source is read. -/
inductive Reading
  /-- Straight from the text. `room` more arrays and objects may nest. -/
  | streamed (room : Nat)
  /-- From a copy of something that was read in full before. -/
  | buffered
  /-- From a copy, passing over surplus items where an array stands for a record. -/
  | lenient

namespace Reading

/-- How many arrays and objects may nest in a text. -/
def nestingLimit : Nat := 127

/-- Read a text from its beginning. -/
def text : Reading := .streamed nestingLimit

/-- Go into an array or an object. -/
def enter : Reading → Except Fault Reading
  | .streamed 0 => .error .malformed
  | .streamed (room + 1) => .ok (.streamed room)
  | .buffered => .ok .buffered
  | .lenient => .ok .lenient

/-- What surplus items are where an array stands for a record. -/
def surplus : Reading → Except Fault Unit
  | .streamed _ => .error .malformed
  | .buffered => .error .mismatched
  | .lenient => .ok ()

end Reading

/-- The end of an array or an object, where a closing bracket should be. -/
def closed : Option Fault → Except Fault Unit
  | none => .ok ()
  | some f => .error f

namespace Source

/-- What a reader finds that expects another type of value. It reads an atom in full and looks no
further than the bracket of an array or an object. -/
def mismatch : Source → Fault
  | .atom a =>
    match a.meaning with
    | .ok _ => .mismatched
    | .error f => f
  | _ => .mismatched

mutual

/-- Pass over a value. -/
def skip : Source → Except Fault Unit
  | .atom a => closed a.blocked
  | .array items ending => do
    skipItems items
    closed ending
  | .fields entries ending => do
    skipFields entries
    closed ending

/-- Pass over the items of an array. -/
def skipItems : List Source → Except Fault Unit
  | [] => .ok ()
  | s :: rest => do
    s.skip
    skipItems rest

/-- Pass over the fields of an object. -/
def skipFields : List (Atom × Source) → Except Fault Unit
  | [] => .ok ()
  | (name, s) :: rest => do
    closed name.blocked
    s.skip
    skipFields rest

end

mutual

/-- Read a value of any type. -/
def read (r : Reading) : Source → Except Fault Json
  | .atom a =>
    match a.meaning with
    | .ok .null => .ok .null
    | .ok (.bool b) => .ok (.bool b)
    | .ok (.number n) => .ok (.number n)
    | .ok (.string s) => .ok (.string s)
    | .error f => .error f
  | .array items ending => do
    let values ← readItems (← r.enter) items
    closed ending
    return .array values
  | .fields entries ending => do
    let values ← readFields (← r.enter) entries
    closed ending
    return Json.object values

/-- Read the items of an array. -/
def readItems (r : Reading) : List Source → Except Fault (List Json)
  | [] => .ok []
  | s :: rest => do
    let j ← s.read r
    return j :: (← readItems r rest)

/-- Read the fields of an object. -/
def readFields (r : Reading) : List (Atom × Source) → Except Fault (List (String × Json))
  | [] => .ok []
  | (name, s) :: rest => do
    let n ← name.string?
    let j ← s.read r
    return (n, j) :: (← readFields r rest)

end

end Source

/-- How values of a type are written as JSON and read back. -/
structure Codec (α : Type) where
  /-- Write a value. -/
  encode : α → Json
  /-- Read a value. -/
  decode : Reading → Source → Except Fault α

/-- Types of which there is one way to write and read them. -/
class Coded (α : Type) where
  codec : Codec α

namespace Codec

variable {α β : Type}

/-- Read a text as a value of a type: the value, then nothing but blanks. -/
def read (c : Codec α) (text : List UInt8) : Except Fault α := do
  let (s, more) := Source.scan text
  let a ← c.decode .text s
  if more then .error .malformed
  return a

/-- Read a value of a type from JSON that has been read before. -/
def ofJson (c : Codec α) (j : Json) : Except Fault α := c.decode .buffered (Source.ofJson j)

/-- Write and read a type as another one, of which some values may be refused. -/
def refine (c : Codec α) (into : β → α) (from? : α → Option β) : Codec β where
  encode b := c.encode (into b)
  decode r s := do
    match from? (← c.decode r s) with
    | some b => .ok b
    | none => .error .mismatched

/-- Write and read a type as another one. -/
def via (c : Codec α) (into : β → α) (from' : α → β) : Codec β :=
  c.refine into fun a => some (from' a)

/-! ### Atoms -/

/-- Any JSON value. -/
def json : Codec Json where
  encode j := j
  decode r s := s.read r

/-- A type whose values are read from atoms of one kind. -/
def scalar (write : α → Json) (read? : Scalar → Option α) : Codec α where
  encode := write
  decode
    | _, .atom a =>
      match a.meaning with
      | .ok v =>
        match read? v with
        | some x => .ok x
        | none => .error .mismatched
      | .error f => .error f
    | _, s => .error s.mismatch

/-- A text. -/
def string : Codec String :=
  scalar .string fun | .string s => some s | _ => none

/-- A truth value. -/
def bool : Codec Bool :=
  scalar .bool fun | .bool b => some b | _ => none

/-- An unsigned integer of 64 bits. A number written with a point or an exponent is none. -/
def uint64 : Codec UInt64 :=
  scalar Json.ofUInt64 fun
    | .number (.integer i _) => if 0 ≤ i then some i.toNat.toUInt64 else none
    | _ => none

/-- An unsigned integer of 32 bits. -/
def uint32 : Codec UInt32 :=
  uint64.refine (·.toUInt64) fun n => if n.toNat < UInt32.size then some n.toUInt32 else none

/-- An unsigned integer of 16 bits. -/
def uint16 : Codec UInt16 :=
  uint64.refine (·.toUInt64) fun n => if n.toNat < UInt16.size then some n.toUInt16 else none

/-- A signed integer of 64 bits. -/
def int64 : Codec Int64 :=
  scalar (fun n => Json.ofInt n.toInt) fun
    | .number (.integer i _) => if i < 0x8000000000000000 then some (Int64.ofInt i) else none
    | _ => none

/-- A double-precision number. An integer is rounded to one. -/
def float : Codec Binary64 :=
  scalar Json.ofFloat fun
    | .number (.integer i _) => some (Binary64.ofInt i)
    | .number (.float x _) => some x
    | _ => none

/-! ### Composed values -/

/-- A value or `null`. -/
def option (c : Codec α) : Codec (Option α) where
  encode
    | none => .null
    | some a => c.encode a
  decode r s :=
    match s with
    | .atom { meaning := .ok .null, .. } => .ok none
    | s => some <$> c.decode r s

/-- A list of values. -/
def list (c : Codec α) : Codec (List α) where
  encode l := .array (l.map c.encode)
  decode r
    | .array items ending => do
      let r ← r.enter
      let values ← items.mapM (c.decode r)
      closed ending
      return values
    | s => .error s.mismatch

/-- A map from names to values. The last value of a name counts. -/
def map (c : Codec α) : Codec (SortedMap String α) where
  encode m := .fields (m.entries.map fun e => (e.1, c.encode e.2))
  decode r
    | .fields entries ending => do
      let r ← r.enter
      let values ← entries.mapM fun (name, s) => do
        let n ← name.string?
        let a ← c.decode r s
        return (n, a)
      closed ending
      return SortedMap.ofList values
    | s => .error s.mismatch

end Codec

/-! ### Records -/

/-- What it means that a field is not there. -/
inductive Absence (α : Type)
  /-- It must be there. -/
  | refused
  /-- It may be missing from an object, but not from an array. -/
  | inObject (value : α)
  /-- It may be missing. -/
  | always (value : α)

/-- A field of a record. -/
structure Field (α : Type) where
  /-- Its name. -/
  name : String
  /-- The form of its values. -/
  codec : Codec α
  /-- What it means that it is not there. -/
  absence : Absence α

namespace Field

variable {α : Type}

/-- A field that must be there. -/
def required (name : String) (c : Codec α) : Field α := ⟨name, c, .refused⟩

/-- A field with a value for the case that it is missing. -/
def withDefault (name : String) (c : Codec α) (value : α) : Field α := ⟨name, c, .always value⟩

/-- A field of an optional value that may be missing from an object. -/
def optional (name : String) (c : Codec α) : Field (Option α) := ⟨name, c.option, .inObject none⟩

/-- The value for a field that an object does not have. -/
def fromObject (f : Field α) : Except Fault α :=
  match f.absence with
  | .refused => .error .mismatched
  | .inObject a | .always a => .ok a

/-- The value for a field that an array does not have. -/
def fromArray (f : Field α) : Except Fault α :=
  match f.absence with
  | .refused | .inObject _ => .error .mismatched
  | .always a => .ok a

end Field

/-- The fields of a record, in the order in which they are written. -/
inductive Fields : List Type → Type 1
  | nil : Fields []
  | cons {α : Type} {αs : List Type} (field : Field α) (rest : Fields αs) : Fields (α :: αs)

namespace Fields

/-- One value for every field. -/
def Values : List Type → Type
  | [] => Unit
  | α :: αs => α × Values αs

/-- A value for every field that has been met. -/
def Slots : List Type → Type
  | [] => Unit
  | α :: αs => Option α × Slots αs

/-- No field has been met. -/
def unmet : {αs : List Type} → Fields αs → Slots αs
  | _, .nil => ()
  | _, .cons _ rest => (none, rest.unmet)

/-- Write the fields. -/
def encode : {αs : List Type} → Fields αs → Values αs → List (String × Json)
  | _, .nil, _ => []
  | _, .cons f rest, (a, values) => (f.name, f.codec.encode a) :: rest.encode values

/-- Read the value of a field into its slot; `none` if there is no field of that name. A field is
given once at most. -/
def accept (r : Reading) (name : String) (s : Source) :
    {αs : List Type} → Fields αs → Slots αs → Option (Except Fault (Slots αs))
  | _, .nil, _ => none
  | _, .cons f rest, (slot, slots) =>
    if f.name = name then
      match slot with
      | some _ => some (.error .mismatched)
      | none => some ((fun a => (some a, slots)) <$> f.codec.decode r s)
    else (accept r name s rest slots).map fun e => (fun slots => (slot, slots)) <$> e

/-- Read the fields of an object in the order of the text. -/
def readEntries {αs : List Type} (fs : Fields αs) (r : Reading) :
    List (Atom × Source) → Slots αs → Except Fault (Slots αs)
  | [], slots => .ok slots
  | (name, s) :: rest, slots => do
    let n ← name.string?
    match fs.accept r n s slots with
    | some e => fs.readEntries r rest (← e)
    | none =>
      s.skip
      fs.readEntries r rest slots

/-- The values of all fields, with those for the missing ones. -/
def finish : {αs : List Type} → Fields αs → Slots αs → Except Fault (Values αs)
  | _, .nil, _ => .ok ()
  | _, .cons f rest, (slot, slots) => do
    let a ← match slot with
      | some a => .ok a
      | none => f.fromObject
    return (a, ← rest.finish slots)

/-- Read the fields from the items of an array, in the order of the fields. -/
def readItems (r : Reading) (ending : Option Fault) :
    {αs : List Type} → Fields αs → List Source → Except Fault (Values αs)
  | _, .nil, [] => do
    closed ending
    return ()
  | _, .nil, _ :: _ => do
    r.surplus
    return ()
  | _, .cons f rest, [] => do
    closed ending
    let a ← f.fromArray
    return (a, ← readItems r ending rest [])
  | _, .cons f rest, s :: items => do
    let a ← f.codec.decode r s
    return (a, ← readItems r ending rest items)

/-- Read the fields of a record. -/
def decode {αs : List Type} (fs : Fields αs) (r : Reading) : Source → Except Fault (Values αs)
  | .fields entries ending => do
    let r ← r.enter
    let slots ← fs.readEntries r entries fs.unmet
    closed ending
    fs.finish slots
  | .array items ending => do
    let r ← r.enter
    fs.readItems r ending items
  | s => .error s.mismatch

/-- The codec of a record with these fields. -/
def record {αs : List Type} {β : Type} (fs : Fields αs) (parts : β → Values αs)
    (make : Values αs → β) : Codec β where
  encode b := .fields (fs.encode (parts b))
  decode r s := make <$> fs.decode r s

end Fields

/-! ### Kinds -/

namespace Variant

variable {α : Type}

/-- A kind of value: its name, and how its fields are read. -/
abbrev Kind (α : Type) := String × (Source → Except Fault α)

/-- Find the kind that a value names. In a copy a kind may also be given by its place in the
list. -/
def choose (kinds : List (Kind α)) (r : Reading) :
    Source → Except Fault (Source → Except Fault α)
  | .atom a =>
    match a.meaning, r with
    | .ok (.string s), _ => found (kinds.lookup s)
    | .ok (.number (.integer i _)), .buffered =>
      found (if 0 ≤ i then kinds[i.toNat]?.map (·.2) else none)
    | .ok _, _ => .error .mismatched
    | .error f, _ => .error f
  | s => .error s.mismatch
where
  /-- The kind must be a known one. -/
  found : Option (Source → Except Fault α) → Except Fault (Source → Except Fault α)
    | some body => .ok body
    | none => .error .mismatched

/-- Read the fields of an object in the order of the text: the kind under `tag`, which must be
given once, and copies of all other fields. -/
def readEntries (tag : String) (kinds : List (Kind α)) (r : Reading) :
    List (Atom × Source) → Option (Source → Except Fault α) →
      Except Fault (Option (Source → Except Fault α) × List (Atom × Source))
  | [], found => .ok (found, [])
  | (name, s) :: rest, found => do
    let n ← name.string?
    if n = tag then
      if found.isSome then .error .mismatched
      let body ← choose kinds r s
      readEntries tag kinds r rest (some body)
    else
      let _ ← s.read r
      let (body, others) ← readEntries tag kinds r rest found
      return (body, (name, s) :: others)

/-- Read a value of one of several kinds. An object names its kind under `tag`, an array in its
first item; the rest is read in full before it is read as that kind. -/
def read (tag : String) (kinds : List (Kind α)) (r : Reading) : Source → Except Fault α
  | .fields entries ending => do
    let r ← r.enter
    let (found, others) ← readEntries tag kinds r entries none
    closed ending
    match found with
    | some body => body (.fields others none)
    | none => .error .mismatched
  | .array [] ending => do
    let _ ← r.enter
    closed ending
    .error .mismatched
  | .array (first :: items) ending => do
    let r ← r.enter
    let body ← choose kinds r first
    let _ ← Source.readItems r items
    closed ending
    body (.array items none)
  | s => .error s.mismatch

/-- A kind without fields: any fields of an object are passed over, an array has no more items. -/
def unit (name : String) (value : α) : Kind α :=
  (name, fun
    | .array (_ :: _) _ => .error .mismatched
    | _ => .ok value)

/-- A kind with the fields of a record. -/
def ofFields {αs : List Type} (name : String) (fs : Fields αs) (make : Fields.Values αs → α) :
    Kind α :=
  (name, fun s => make <$> fs.decode .buffered s)

/-- Write a value of a kind: the kind under `tag`, then the fields. -/
def write (tag kind : String) (entries : List (String × Json)) : Json :=
  .fields ((tag, .string kind) :: entries)

end Variant

end WorkerCluster.Json
