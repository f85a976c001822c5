import WorkerCluster.Proofs.Json.Codec

/-!
# Values that are not read back

* `Codec.Refuses` says that a codec does not read what it writes of a value.
* Each way to build codecs comes with the lemma that takes `Refuses` from a part to the whole;
  `Fields.record_refuses` and `Variant.read_refuses` do so for records and their kinds.
* `Codec.read_bytes_iff` is about texts: it joins `Reads` and `Refuses`.
* `Codec.Limited` says that a codec reads what it writes of a value only if that does not nest too
  deep; `Variant.limited_write` says so of kinds, whose fields are copied before they are read.
* `Variant.read_bytes_unknown` is about kinds that a reader does not know.
-/

namespace WorkerCluster.Json

variable {α β : Type}

/-- What does not nest may always be read. -/
theorem Reading.admits_zero (r : Reading) : r.Admits 0 := by
  cases r with
  | streamed room => exact room.zero_le
  | buffered => trivial
  | lenient => trivial

namespace Codec

/-- What is written of a value is not read, however it is read. -/
def Refuses (c : Codec α) (a : α) : Prop :=
  ∀ r b, c.decode r (Source.ofJson (c.encode a)) ≠ .ok b

variable {c : Codec α}

theorem refine_refuses {into : β → α} {from? : α → Option β} {b : β} (reads : c.Reads (into b))
    (flat : (c.encode (into b)).depth = 0) (none : from? (into b) = none) :
    (c.refine into from?).Refuses b := by
  intro r b' read
  have written := reads r (flat ▸ r.admits_zero)
  unfold Codec.refine at read
  dsimp only at read
  rw [written, bind_ok, none] at read
  cases read

theorem option_refuses {a : α} (h : c.Refuses a) (some : c.encode a ≠ .null) :
    c.option.Refuses (.some a) := by
  intro r o read
  have refused : ∀ o, Option.some <$> c.decode r (Source.ofJson (c.encode a)) ≠ .ok o := by
    intro o read
    obtain ⟨b, read, -⟩ := map_eq_ok read
    exact h r b read
  unfold option at read
  dsimp only at read
  generalize c.encode a = j at some refused read
  cases j with
  | null => exact some rfl
  | _ => exact refused o read

theorem list_refuses {l : List α} {a : α} (mem : a ∈ l) (h : c.Refuses a) : c.list.Refuses l := by
  intro r l' read
  unfold list at read
  dsimp only at read
  rw [Source.ofJson, ofItems_eq_map, List.map_map] at read
  dsimp only at read
  obtain ⟨r', -, read⟩ := bind_eq_ok read
  obtain ⟨values, items, -⟩ := bind_eq_ok read
  obtain ⟨b, item⟩ := exists_mapM_ok_iff.1 ⟨values, items⟩ _ (List.mem_map_of_mem mem)
  exact h r' b item

/-- A value is read back from its text exactly if it is one that its codec reads back. -/
theorem read_bytes_iff {a b : α} {P : Prop} (reads : P → c.Reads a)
    (refuses : ¬ P → ∀ b, c.decode .text (Source.ofJson (c.encode a)) ≠ .ok b)
    (depth : (c.encode a).depth ≤ Reading.nestingLimit) :
    c.read (c.encode a).bytes = .ok b ↔ P ∧ b = a := by
  by_cases can : P
  · rw [(reads can).read_bytes depth, Except.ok.injEq]
    exact ⟨fun same => ⟨can, same.symm⟩, fun same => same.2.symm⟩
  · refine ⟨fun read => ?_, fun same => absurd same.1 can⟩
    rw [Codec.read, scan_bytes] at read
    obtain ⟨b', decoded, -⟩ := bind_eq_ok read
    exact absurd decoded (refuses can b')

end Codec

namespace Fields

/-- The value of some field is not read. -/
def Refuses : {αs : List Type} → Fields αs → Values αs → Prop
  | _, .nil, _ => False
  | _, .cons f rest, (a, values) => f.codec.Refuses a ∨ rest.Refuses values

theorem readEntries_refuses : {αs : List Type} → (fs : Fields αs) → (values : Values αs) →
    fs.names.Nodup → fs.Refuses values → (r : Reading) → (slots : Slots αs) →
    fs.readEntries r (Source.ofFields (fs.encode values)) fs.unmet ≠ .ok slots
  | _, .nil, _, _, refuses, _, _ => refuses.elim
  | _, .cons f rest, (a, values), distinct, refuses, r, slots => by
    intro read
    obtain ⟨fresh, distinct⟩ := List.nodup_cons.1 distinct
    have ne : ∀ e ∈ rest.encode values, e.1 ≠ f.name := ne_of_mem_encode fresh
    have read := (readEntries_cons _ r f.name (f.codec.encode a) (rest.encode values) _).symm.trans
      read
    rw [accept_self] at read
    obtain ⟨slots', first, others⟩ := bind_eq_ok read
    obtain ⟨b, decoded, rfl⟩ := map_eq_ok first
    rcases refuses with first | later
    · exact first r b decoded
    · rw [readEntries_slot (string?_of_mem_ofFields ne)] at others
      obtain ⟨slots', others, -⟩ := map_eq_ok others
      exact readEntries_refuses rest values distinct later r slots' others

variable {αs : List Type} {fs : Fields αs}

theorem decode_refuses {values : Values αs} (distinct : fs.names.Nodup)
    (refuses : fs.Refuses values) (r : Reading) (values' : Values αs) :
    fs.decode r (.fields (Source.ofFields (fs.encode values)) none) ≠ .ok values' := by
  intro read
  obtain ⟨r', -, read⟩ := bind_eq_ok read
  obtain ⟨slots, entries, -⟩ := bind_eq_ok read
  exact readEntries_refuses fs values distinct refuses r' slots entries

/-- **A record is not read back if one of its parts is not.** -/
theorem record_refuses {parts : β → Values αs} {make : Values αs → β} {b : β}
    (distinct : fs.names.Nodup) (refuses : fs.Refuses (parts b)) :
    (fs.record parts make).Refuses b := by
  intro r b' read
  obtain ⟨values, read, -⟩ := map_eq_ok read
  exact decode_refuses distinct refuses r values read

end Fields

/-- A value of a kind with fields is not read back if one of its parts is not. -/
theorem Variant.read_refuses {tag kind : String} {kinds : List (Kind α)} {αs : List Type}
    {fs : Fields αs} {make : Fields.Values αs → α} {values : Fields.Values αs} {r : Reading}
    (admits : r.Admits (write tag kind (fs.encode values)).depth)
    (hk : kinds.lookup kind = some (ofFields kind fs make).2) (ne : tag ∉ fs.names)
    (distinct : fs.names.Nodup) (refuses : fs.Refuses values) (a : α) :
    read tag kinds r (Source.ofJson (write tag kind (fs.encode values))) ≠ .ok a := by
  rw [read_write hk (Fields.ne_of_mem_encode ne) admits]
  intro read
  obtain ⟨values', read, -⟩ := map_eq_ok read
  exact Fields.decode_refuses distinct refuses .buffered values' read

/-! ### What nests too deep -/

theorem Reading.Admits.max {r : Reading} {m n : ℕ} (h : r.Admits m) (h' : r.Admits n) :
    r.Admits (max m n) := by
  cases r with
  | streamed room => exact max_le h h'
  | buffered => trivial
  | lenient => trivial

/-- Where a level could be entered, one level more is admitted than behind it. -/
theorem Reading.Admits.of_enter {r r' : Reading} {n : ℕ} (enter : r.enter = .ok r')
    (h : r'.Admits n) : r.Admits (n + 1) := by
  match r, enter with
  | .streamed (room + 1), rfl => exact Nat.succ_le_succ h
  | .buffered, _ => trivial
  | .lenient, _ => trivial

mutual

/-- Only what does not nest too deep is read. -/
theorem admits_of_read : (j : Json) → {r : Reading} → {k : Json} →
    (Source.ofJson j).read r = .ok k → r.Admits j.depth
  | .null, r, _, _ | .bool _, r, _, _ | .number _, r, _, _ | .string _, r, _, _ => r.admits_zero
  | .array items, r, k, h => by
    rw [Source.ofJson, Source.read] at h
    obtain ⟨r', enter, h⟩ := bind_eq_ok h
    obtain ⟨values, read, -⟩ := bind_eq_ok h
    exact (admits_of_readItems items read).of_enter enter
  | .fields entries, r, k, h => by
    rw [Source.ofJson, Source.read] at h
    obtain ⟨r', enter, h⟩ := bind_eq_ok h
    obtain ⟨values, read, -⟩ := bind_eq_ok h
    exact (admits_of_readFields entries read).of_enter enter

theorem admits_of_readItems : (items : List Json) → {r : Reading} → {l : List Json} →
    Source.readItems r (Source.ofItems items) = .ok l → r.Admits (depthItems items)
  | [], r, _, _ => r.admits_zero
  | j :: items, r, l, h => by
    rw [Source.ofItems, Source.readItems] at h
    obtain ⟨k, first, h⟩ := bind_eq_ok h
    obtain ⟨values, rest, -⟩ := bind_eq_ok h
    exact (admits_of_read j first).max (admits_of_readItems items rest)

theorem admits_of_readFields : (entries : List (String × Json)) → {r : Reading} →
    {l : List (String × Json)} → Source.readFields r (Source.ofFields entries) = .ok l →
    r.Admits (depthFields entries)
  | [], r, _, _ => r.admits_zero
  | (name, j) :: entries, r, l, h => by
    rw [Source.ofFields, Source.readFields] at h
    obtain ⟨n, -, h⟩ := bind_eq_ok h
    obtain ⟨k, first, h⟩ := bind_eq_ok h
    obtain ⟨values, rest, -⟩ := bind_eq_ok h
    exact (admits_of_read j first).max (admits_of_readFields entries rest)

end

namespace Codec

/-- What is written of a value is read only if it does not nest too deep. -/
def Limited (c : Codec α) (a : α) : Prop :=
  ∀ r b, c.decode r (Source.ofJson (c.encode a)) = .ok b → r.Admits (c.encode a).depth

theorem json_limited (j : Json) : json.Limited j := fun _ _ read => admits_of_read j read

/-- **A value is read back from its text exactly if it does not nest too deep.** -/
theorem read_bytes_iff_depth {c : Codec α} {a b : α} (reads : c.Reads a) (limited : c.Limited a) :
    c.read (c.encode a).bytes = .ok b ↔ (c.encode a).depth ≤ Reading.nestingLimit ∧ b = a := by
  constructor
  · intro read
    have decoded := read
    rw [Codec.read, scan_bytes] at decoded
    obtain ⟨b', decoded, -⟩ := bind_eq_ok decoded
    have depth : (c.encode a).depth ≤ Reading.nestingLimit := limited .text b' decoded
    rw [reads.read_bytes depth] at read
    exact ⟨depth, (Except.ok.inj read).symm⟩
  · rintro ⟨depth, rfl⟩
    exact reads.read_bytes depth

end Codec

namespace Variant

variable {tag kind : String} {kinds : List (Kind α)} {entries : List (String × Json)}

/-- The other fields are copied, and only what does not nest too deep is. -/
theorem admits_of_readEntries (ne : ∀ e ∈ entries, e.1 ≠ tag) {r : Reading}
    {found : Option (Source → Except Fault α)}
    {copied : Option (Source → Except Fault α) × List (Atom × Source)}
    (read : readEntries tag kinds r (Source.ofFields entries) found = .ok copied) :
    r.Admits (depthFields entries) := by
  induction entries generalizing copied with
  | nil => exact r.admits_zero
  | cons e entries ih =>
    obtain ⟨first, rest⟩ := List.forall_mem_cons.1 ne
    rw [Source.ofFields, readEntries,
      show (Atom.ofScalar (.string e.1)).string? = .ok e.1 from rfl, bind_ok, if_neg first] at read
    obtain ⟨k, value, read⟩ := bind_eq_ok read
    obtain ⟨others, read, -⟩ := bind_eq_ok read
    exact (admits_of_read e.2 value).max (ih rest read)

/-- A value of a kind is read only if it does not nest too deep, whatever its kind reads of it. -/
theorem limited_write (ne : ∀ e ∈ entries, e.1 ≠ tag) {r : Reading} {a : α}
    (h : read tag kinds r (Source.ofJson (write tag kind entries)) = .ok a) :
    r.Admits (write tag kind entries).depth := by
  rw [write, Source.ofJson, read] at h
  obtain ⟨r', enter, h⟩ := bind_eq_ok h
  obtain ⟨copied, all, -⟩ := bind_eq_ok h
  rw [Source.ofFields, readEntries,
    show (Atom.ofScalar (.string tag)).string? = .ok tag from rfl, bind_ok, if_pos rfl] at all
  obtain ⟨body, -, all⟩ := bind_eq_ok all
  have others := admits_of_readEntries ne all
  exact (r'.admits_zero.max others).of_enter enter

/-! ### Unknown kinds -/

/-- A value of a kind that is not known is not read from a text, whatever else it holds. -/
theorem read_bytes_unknown {c : Codec α} (decode : c.decode = read tag kinds)
    (unknown : kinds.lookup kind = none) :
    c.read (write tag kind entries).bytes = .error .mismatched := by
  have first (r : Reading) :
      choose kinds r (Source.ofJson (.string kind)) = .error .mismatched := by
    change choose.found (kinds.lookup kind) = _
    rw [unknown]
    rfl
  have all (r : Reading) : readEntries tag kinds r
      (Source.ofFields ((tag, .string kind) :: entries)) none = .error .mismatched := by
    rw [Source.ofFields, readEntries,
      show (Atom.ofScalar (.string tag)).string? = .ok tag from rfl, bind_ok, if_pos rfl, first]
    rfl
  have refused : read tag kinds .text (Source.ofJson (write tag kind entries)) =
      .error .mismatched := by
    rw [write, Source.ofJson, read,
      show Reading.text.enter = .ok (.streamed (Reading.nestingLimit - 1)) from rfl, bind_ok, all]
    rfl
  rw [Codec.read, scan_bytes, decode]
  dsimp only
  rw [refused]
  rfl

end Variant

end WorkerCluster.Json
