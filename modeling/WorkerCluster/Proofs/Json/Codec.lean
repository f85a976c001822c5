import WorkerCluster.Json.Codec
import WorkerCluster.Proofs.Json.Scan
import WorkerCluster.Proofs.SortedMap

/-!
# Values read back

* `Reading.Admits` says that what nests so deep may be read.
* `Codec.Reads` says that a codec reads back what it writes of a value; `read_bytes` takes that from
  JSON to its text.
* Each way to build codecs comes with the lemma that takes `Reads` from the parts to the whole;
  `Fields.record_reads` does so for records.
-/

namespace WorkerCluster.Json

variable {α β : Type}

/-! ### Nesting -/

/-- Values that nest so deep may be read. -/
def Reading.Admits : Reading → ℕ → Prop
  | .streamed room, depth => depth ≤ room
  | _, _ => True

theorem Reading.Admits.mono {r : Reading} {m n : ℕ} (h : r.Admits n) (hmn : m ≤ n) :
    r.Admits m := by
  cases r with
  | streamed room => exact hmn.trans h
  | buffered => trivial
  | lenient => trivial

/-- One level can be entered, and what is one level less deep may be read there. -/
theorem Reading.Admits.enter {r : Reading} {n : ℕ} (h : r.Admits (n + 1)) :
    ∃ r', r.enter = .ok r' ∧ r'.Admits n := by
  match r, h with
  | .streamed 0, h => exact absurd h (by simp [Admits])
  | .streamed (room + 1), h => exact ⟨_, rfl, Nat.le_of_succ_le_succ h⟩
  | .buffered, _ => exact ⟨_, rfl, trivial⟩
  | .lenient, _ => exact ⟨_, rfl, trivial⟩

theorem depth_le_depthItems {j : Json} {items : List Json} (h : j ∈ items) :
    j.depth ≤ depthItems items := by
  induction items with
  | nil => cases h
  | cons k items ih =>
    rw [depthItems]
    rcases List.mem_cons.1 h with rfl | h
    · exact le_max_left ..
    · exact (ih h).trans (le_max_right ..)

theorem depth_le_depthFields {e : String × Json} {entries : List (String × Json)}
    (h : e ∈ entries) : e.2.depth ≤ depthFields entries := by
  induction entries with
  | nil => cases h
  | cons f entries ih =>
    rw [depthFields]
    rcases List.mem_cons.1 h with rfl | h
    · exact le_max_left ..
    · exact (ih h).trans (le_max_right ..)

theorem ofItems_eq_map (items : List Json) : Source.ofItems items = items.map Source.ofJson := by
  induction items with
  | nil => rfl
  | cons j items ih => rw [Source.ofItems, ih]; rfl

theorem ofFields_eq_map (entries : List (String × Json)) :
    Source.ofFields entries =
      entries.map fun e => (.ofScalar (.string e.1), Source.ofJson e.2) := by
  induction entries with
  | nil => rfl
  | cons e entries ih => rw [Source.ofFields, ih]; rfl

/-! ### Reading any value -/

mutual

/-- Any value is read, its objects put in canonical form. -/
theorem read_ofJson : (j : Json) → {r : Reading} → r.Admits j.depth →
    (Source.ofJson j).read r = .ok j.sorted
  | .null, _, _ => rfl
  | .bool _, _, _ => rfl
  | .number _, _, _ => rfl
  | .string _, _, _ => rfl
  | .array items, r, h => by
    obtain ⟨r', enter, admits⟩ := Reading.Admits.enter h
    rw [Source.ofJson, Source.read, enter]
    change (do let values ← Source.readItems r' (Source.ofItems items); _) = _
    rw [readItems_ofItems items admits]
    rfl
  | .fields entries, r, h => by
    obtain ⟨r', enter, admits⟩ := Reading.Admits.enter h
    rw [Source.ofJson, Source.read, enter]
    change (do let values ← Source.readFields r' (Source.ofFields entries); _) = _
    rw [readFields_ofFields entries admits]
    rfl

theorem readItems_ofItems : (items : List Json) → {r : Reading} → r.Admits (depthItems items) →
    Source.readItems r (Source.ofItems items) = .ok (sortedItems items)
  | [], _, _ => rfl
  | j :: items, r, h => by
    rw [Source.ofItems, Source.readItems, read_ofJson j (h.mono (le_max_left ..)),
      readItems_ofItems items (h.mono (le_max_right ..))]
    rfl

theorem readFields_ofFields : (entries : List (String × Json)) → {r : Reading} →
    r.Admits (depthFields entries) →
    Source.readFields r (Source.ofFields entries) = .ok (sortedFields entries)
  | [], _, _ => rfl
  | (name, j) :: entries, r, h => by
    rw [Source.ofFields, Source.readFields, read_ofJson j (h.mono (le_max_left ..)),
      readFields_ofFields entries (h.mono (le_max_right ..))]
    rfl

end

mutual

/-- A canonical value is its own canonical form. -/
theorem sorted_eq : (j : Json) → j.Canonical → j.sorted = j
  | .null, _ => rfl
  | .bool _, _ => rfl
  | .number _, _ => rfl
  | .string _, _ => rfl
  | .array items, h => by rw [sorted, sortedItems_eq items h]
  | .fields entries, h => by
    rw [sorted, sortedFields_eq entries h.2, object]
    have := SortedMap.ofList_entries ⟨entries, h.1⟩
    rw [this]

theorem sortedItems_eq : (items : List Json) → CanonicalItems items → sortedItems items = items
  | [], _ => rfl
  | j :: items, h => by rw [sortedItems, sorted_eq j h.1, sortedItems_eq items h.2]

theorem sortedFields_eq : (entries : List (String × Json)) → CanonicalFields entries →
    sortedFields entries = entries
  | [], _ => rfl
  | (name, j) :: entries, h => by rw [sortedFields, sorted_eq j h.1, sortedFields_eq entries h.2]

end

/-! ### Reading back -/

theorem bind_ok (a : α) (f : α → Except Fault β) : (Except.ok a >>= f) = f a := rfl

theorem bind_eq_ok {ε : Type} {x : Except ε α} {f : α → Except ε β} {b : β}
    (h : x >>= f = .ok b) : ∃ a, x = .ok a ∧ f a = .ok b := by
  cases x with
  | error e => cases h
  | ok a => exact ⟨a, rfl, h⟩

theorem map_eq_ok {ε : Type} {x : Except ε α} {f : α → β} {b : β} (h : f <$> x = .ok b) :
    ∃ a, x = .ok a ∧ f a = b := by
  cases x with
  | error e => cases h
  | ok a => exact ⟨a, rfl, Except.ok.inj h⟩

theorem mem_mapM_ok {ε : Type} {f : α → Except ε β} {l : List α} {bs : List β}
    (h : l.mapM f = .ok bs) {b : β} : b ∈ bs ↔ ∃ a ∈ l, f a = .ok b := by
  induction l generalizing bs with
  | nil =>
    cases h
    simp
  | cons a l ih =>
    rw [List.mapM_cons] at h
    obtain ⟨c, first, h⟩ := bind_eq_ok h
    obtain ⟨cs, rest, h⟩ := bind_eq_ok h
    cases h
    simp [first, ih rest, eq_comm]

theorem exists_mapM_ok_iff {ε : Type} {f : α → Except ε β} {l : List α} :
    (∃ bs, l.mapM f = .ok bs) ↔ ∀ a ∈ l, ∃ b, f a = .ok b := by
  induction l with
  | nil => exact ⟨fun _ _ h => (List.not_mem_nil h).elim, fun _ => ⟨[], rfl⟩⟩
  | cons a l ih =>
    rw [List.forall_mem_cons, ← ih, List.mapM_cons]
    cases f a with
    | error e =>
      constructor
      · rintro ⟨bs, h⟩
        cases h
      · rintro ⟨⟨b, h⟩, -⟩
        cases h
    | ok b =>
      cases l.mapM f with
      | error e =>
        constructor
        · rintro ⟨bs, h⟩
          cases h
        · rintro ⟨-, bs, h⟩
          cases h
      | ok bs => exact ⟨fun _ => ⟨⟨b, rfl⟩, bs, rfl⟩, fun _ => ⟨b :: bs, rfl⟩⟩

namespace Codec

/-- What is written of a value is read back as the value. -/
def Reads (c : Codec α) (a : α) : Prop :=
  ∀ r : Reading, r.Admits (c.encode a).depth → c.decode r (Source.ofJson (c.encode a)) = .ok a

variable {c : Codec α}

/-- **What is read back from JSON is read back from its text.** -/
theorem Reads.read_bytes {a : α} (h : c.Reads a)
    (depth : (c.encode a).depth ≤ Reading.nestingLimit) : c.read (c.encode a).bytes = .ok a := by
  rw [Codec.read, scan_bytes]
  dsimp only
  rw [h .text depth]
  rfl

theorem json_reads {j : Json} (h : j.Canonical) : json.Reads j := fun _ admits =>
  (read_ofJson j admits).trans (congrArg _ (sorted_eq j h))

theorem scalar_reads {write : α → Json} {read? : Scalar → Option α} {a : α} (s : Scalar)
    (hs : Source.ofJson (write a) = .atom (.ofScalar s)) (hr : read? s = some a) :
    (scalar write read?).Reads a := by
  intro r _
  unfold scalar
  dsimp only
  rw [hs]
  dsimp only [Atom.ofScalar]
  rw [hr]

theorem string_reads (s : String) : string.Reads s := by
  exact scalar_reads (.string s) rfl rfl

theorem bool_reads (b : Bool) : bool.Reads b := by
  exact scalar_reads (.bool b) rfl rfl

theorem uint64_reads (n : UInt64) : uint64.Reads n := by
  refine scalar_reads (.number (.integer n.toNat ⟨by omega, by have := n.toNat_lt; omega⟩)) rfl ?_
  simp

theorem refine_reads {into : β → α} {from? : α → Option β} {b : β} (h : c.Reads (into b))
    (hb : from? (into b) = some b) : (c.refine into from?).Reads b := by
  intro r admits
  have h := h r admits
  unfold Codec.refine
  dsimp only
  rw [h, bind_ok, hb]

theorem uint32_reads (n : UInt32) : uint32.Reads n := by
  refine refine_reads (uint64_reads _) ?_
  have := n.toNat_lt
  simp [UInt32.size, this]

theorem uint16_reads (n : UInt16) : uint16.Reads n := by
  refine refine_reads (uint64_reads _) ?_
  have := n.toNat_lt
  simp [UInt16.size, this]

theorem float_reads {x : Binary64} (h : x.isFinite = true) : float.Reads x := by
  refine scalar_reads (.number (.float x h)) ?_ rfl
  rw [ofFloat, dif_pos h]
  rfl

theorem option_reads {o : Option α} (h : ∀ a ∈ o, c.Reads a ∧ c.encode a ≠ .null) :
    c.option.Reads o := by
  intro r admits
  cases o with
  | none => rfl
  | some a =>
    obtain ⟨ha, hne⟩ := h a rfl
    have ha : some <$> c.decode r (Source.ofJson (c.encode a)) = .ok (some a) := by
      rw [ha r admits]
      rfl
    unfold option
    dsimp only
    generalize c.encode a = j at ha hne
    cases j with
    | null => exact absurd rfl hne
    | _ => exact ha

theorem mapM_ok {ε : Type} {l : List α} {f : α → Except ε β} {g : α → β}
    (h : ∀ a ∈ l, f a = .ok (g a)) : l.mapM f = .ok (l.map g) := by
  induction l with
  | nil => rfl
  | cons a l ih =>
    rw [List.mapM_cons, h a (List.mem_cons_self ..),
      ih fun b hb => h b (List.mem_cons_of_mem _ hb)]
    rfl

theorem list_reads {l : List α} (h : ∀ a ∈ l, c.Reads a) : c.list.Reads l := by
  intro r admits
  obtain ⟨r', enter, admits⟩ := Reading.Admits.enter admits
  have items : (l.map fun a => Source.ofJson (c.encode a)).mapM (c.decode r') = .ok l := by
    rw [List.mapM_map]
    refine (mapM_ok (g := id) fun a ha => ?_).trans (congrArg _ l.map_id)
    exact h a ha r' (admits.mono (depth_le_depthItems (List.mem_map_of_mem ha)))
  unfold list
  dsimp only
  rw [Source.ofJson, ofItems_eq_map, List.map_map]
  dsimp only
  rw [enter, bind_ok, show Source.ofJson ∘ c.encode = fun a => Source.ofJson (c.encode a) from rfl,
    items]
  rfl

theorem map_reads {m : SortedMap String α} (h : ∀ e ∈ m.entries, c.Reads e.2) :
    c.map.Reads m := by
  intro r admits
  obtain ⟨r', enter, admits⟩ := Reading.Admits.enter admits
  unfold Codec.map
  dsimp only
  rw [Source.ofJson, ofFields_eq_map, List.map_map]
  dsimp only
  rw [enter, bind_ok, List.mapM_map, mapM_ok (g := id) fun e he => ?_, List.map_id, bind_ok]
  · exact congrArg Except.ok (SortedMap.ofList_entries m)
  · have depth := depth_le_depthFields
      (List.mem_map_of_mem (f := fun e : String × α => (e.1, c.encode e.2)) he)
    have := h e he r' (admits.mono depth)
    dsimp only [Function.comp_apply]
    rw [show (Atom.ofScalar (.string e.1)).string? = .ok e.1 from rfl, bind_ok, this]
    rfl

end Codec

/-! ### Records -/

namespace Fields

/-- The names of the fields. -/
def names : {αs : List Type} → Fields αs → List String
  | _, .nil => []
  | _, .cons f rest => f.name :: rest.names

/-- Every value is read back by the codec of its field. -/
def Reads : {αs : List Type} → Fields αs → Values αs → Prop
  | _, .nil, _ => True
  | _, .cons f rest, (a, values) => f.codec.Reads a ∧ rest.Reads values

/-- One slot and the others. -/
def slot {αs : List Type} (o : Option α) (slots : Slots αs) : Slots (α :: αs) := (o, slots)

/-- Entries give the values of the fields, in the order of the fields. One that may be missing can
be left out for the value that this means. -/
inductive Shows (r : Reading) :
    {αs : List Type} → Fields αs → List (Atom × Source) → Values αs → Prop
  | nil : Shows r .nil [] ()
  | given {α : Type} {αs : List Type} {f : Field α} {rest : Fields αs}
      {entries : List (Atom × Source)} {values : Values αs} {s : Source} {a : α}
      (read : f.codec.decode r s = .ok a) (others : Shows r rest entries values) :
      Shows r (.cons f rest) ((.ofScalar (.string f.name), s) :: entries) (a, values)
  | missing {α : Type} {αs : List Type} {f : Field α} {rest : Fields αs}
      {entries : List (Atom × Source)} {values : Values αs} {a : α} (missing : f.fromObject = .ok a)
      (others : Shows r rest entries values) : Shows r (.cons f rest) entries (a, values)

variable {αs : List Type}

theorem names_encode : {αs : List Type} → (fs : Fields αs) → (values : Values αs) →
    (fs.encode values).map Prod.fst = fs.names
  | _, .nil, _ => rfl
  | _, .cons f rest, (_, values) => congrArg (f.name :: ·) (names_encode rest values)

/-- No field is written under another name. -/
theorem ne_of_mem_encode {fs : Fields αs} {values : Values αs} {name : String}
    (h : name ∉ fs.names) : ∀ e ∈ fs.encode values, e.1 ≠ name := by
  rintro e he rfl
  apply h
  rw [← names_encode fs values]
  exact List.mem_map_of_mem he

theorem finish_slot (f : Field α) (rest : Fields αs) (a : α) (slots : Slots αs) :
    (Fields.cons f rest).finish (slot (some a) slots) =
      (fun v => (a, v)) <$> rest.finish slots := by
  have bind : (Fields.cons f rest).finish (slot (some a) slots) =
    (rest.finish slots >>= fun v => .ok (a, v)) := rfl
  rw [bind]
  cases rest.finish slots <;> rfl

theorem finish_slot_none (f : Field α) (rest : Fields αs) (slots : Slots αs) :
    (Fields.cons f rest).finish (slot none slots) =
      f.fromObject >>= fun a => (fun v => (a, v)) <$> rest.finish slots := by
  have bind : (Fields.cons f rest).finish (slot none slots) =
    (f.fromObject >>= fun a => rest.finish slots >>= fun v => .ok (a, v)) := rfl
  rw [bind]
  cases rest.finish slots <;> rfl

theorem readEntries_cons (fs : Fields αs) (r : Reading) (name : String) (j : Json)
    (entries : List (String × Json)) (slots : Slots αs) :
    fs.readEntries r (Source.ofFields ((name, j) :: entries)) slots =
      match fs.accept r name (Source.ofJson j) slots with
      | some e => e >>= fs.readEntries r (Source.ofFields entries)
      | none =>
        (Source.ofJson j).skip >>= fun _ => fs.readEntries r (Source.ofFields entries) slots :=
  rfl

theorem accept_of_ne {f : Field α} {rest : Fields αs} {name : String} (h : f.name ≠ name)
    (r : Reading) (s : Source) (o : Option α) (slots : Slots αs) :
    (Fields.cons f rest).accept r name s (slot o slots) =
      (rest.accept r name s slots).map fun e => slot o <$> e := if_neg h

theorem accept_self (f : Field α) (rest : Fields αs) (r : Reading) (s : Source) :
    (Fields.cons f rest).accept r f.name s (Fields.cons f rest).unmet =
      some ((fun a => slot (some a) rest.unmet) <$> f.codec.decode r s) := if_pos rfl

/-- Entries of other names leave the first slot alone. -/
theorem readEntries_slot {f : Field α} {rest : Fields αs} {r : Reading}
    {entries : List (Atom × Source)} (h : ∀ e ∈ entries, e.1.string? ≠ .ok f.name) (o : Option α)
    (slots : Slots αs) :
    (Fields.cons f rest).readEntries r entries (slot o slots) =
      slot o <$> rest.readEntries r entries slots := by
  induction entries generalizing slots with
  | nil => rfl
  | cons e entries ih =>
    obtain ⟨other, others⟩ := List.forall_mem_cons.1 h
    have ih := ih others
    rw [readEntries, readEntries]
    cases name : e.1.string? with
    | error fault => rfl
    | ok n =>
      have ne : f.name ≠ n := fun same => other (same ▸ name)
      rw [bind_ok, bind_ok, accept_of_ne ne]
      cases rest.accept r n e.2 slots with
      | none =>
        dsimp only [Option.map_none]
        cases e.2.skip with
        | error fault => rfl
        | ok _ => exact ih slots
      | some accepted =>
        dsimp only [Option.map_some]
        cases accepted with
        | error fault => rfl
        | ok slots' => exact ih slots'

theorem string?_of_mem_ofFields {entries : List (String × Json)} {name : String}
    (h : ∀ e ∈ entries, e.1 ≠ name) : ∀ e ∈ Source.ofFields entries, e.1.string? ≠ .ok name := by
  rw [ofFields_eq_map, List.forall_mem_map]
  exact fun e he same => h e he (Except.ok.inj same)

/-- Entries that give values of fields have the names of the fields. -/
theorem Shows.string?_ne {fs : Fields αs} {r : Reading} {entries : List (Atom × Source)}
    {values : Values αs} (h : fs.Shows r entries values) {name : String} (new : name ∉ fs.names) :
    ∀ e ∈ entries, e.1.string? ≠ .ok name := by
  induction h with
  | nil => exact fun _ he => absurd he List.not_mem_nil
  | given read _ ih =>
    obtain ⟨other, new⟩ := not_or.1 (List.mem_cons.not.1 new)
    exact List.forall_mem_cons.2 ⟨fun same => other (Except.ok.inj same).symm, ih new⟩
  | missing missing _ ih => exact ih (not_or.1 (List.mem_cons.not.1 new)).2

theorem Shows.readEntries {fs : Fields αs} {r : Reading} {entries : List (Atom × Source)}
    {values : Values αs} (h : fs.Shows r entries values) (distinct : fs.names.Nodup) :
    ∃ slots, fs.readEntries r entries fs.unmet = .ok slots ∧ fs.finish slots = .ok values := by
  induction h with
  | nil => exact ⟨(), rfl, rfl⟩
  | @given _ _ f rest entries values s a read shown ih =>
    obtain ⟨new, distinct⟩ := List.nodup_cons.1 distinct
    obtain ⟨slots, all, finished⟩ := ih distinct
    -- the first entry fills the first slot, the others leave it alone
    have first : (Fields.cons f rest).accept r f.name s (Fields.cons f rest).unmet =
        some (.ok (slot (some a) rest.unmet)) := by
      rw [accept_self, read]
      rfl
    refine ⟨slot (some a) slots, ?_, by rw [finish_slot, finished]; rfl⟩
    rw [Fields.readEntries, show (Atom.ofScalar (.string f.name)).string? = .ok f.name from rfl,
      bind_ok, first]
    exact (readEntries_slot (shown.string?_ne new) (some a) rest.unmet).trans (by rw [all]; rfl)
  | @missing _ _ f rest entries values a missing shown ih =>
    obtain ⟨new, distinct⟩ := List.nodup_cons.1 distinct
    obtain ⟨slots, all, finished⟩ := ih distinct
    refine ⟨slot none slots, ?_, by rw [finish_slot_none, missing, bind_ok, finished]; rfl⟩
    exact (readEntries_slot (shown.string?_ne new) none rest.unmet).trans (by rw [all]; rfl)

/-- The fields of a record are read from the entries that give their values. -/
theorem Shows.decode {fs : Fields αs} {r r' : Reading} {entries : List (Atom × Source)}
    {values : Values αs} (h : fs.Shows r' entries values) (distinct : fs.names.Nodup)
    (enter : r.enter = .ok r') : fs.decode r (.fields entries none) = .ok values := by
  obtain ⟨slots, read, finished⟩ := h.readEntries distinct
  rw [Fields.decode, enter, bind_ok, read, bind_ok]
  exact finished

/-- What is written of values gives them. -/
theorem shows_encode {r : Reading} : {αs : List Type} → (fs : Fields αs) → (values : Values αs) →
    fs.Reads values → r.Admits (depthFields (fs.encode values)) →
    fs.Shows r (Source.ofFields (fs.encode values)) values
  | _, .nil, _, _, _ => .nil
  | _, .cons _ rest, (_, values), reads, admits =>
    .given (reads.1 r (admits.mono (le_max_left ..)))
      (shows_encode rest values reads.2 (admits.mono (le_max_right ..)))

theorem decode_encode {fs : Fields αs} {values : Values αs} (distinct : fs.names.Nodup)
    (reads : fs.Reads values) {r : Reading}
    (admits : r.Admits (depthFields (fs.encode values) + 1)) :
    fs.decode r (.fields (Source.ofFields (fs.encode values)) none) = .ok values := by
  obtain ⟨r', enter, admits⟩ := Reading.Admits.enter admits
  exact (shows_encode fs values reads admits).decode distinct enter

/-- **A record is read back if its parts are.** -/
theorem record_reads {fs : Fields αs} {parts : β → Values αs} {make : Values αs → β} {b : β}
    (distinct : fs.names.Nodup) (reads : fs.Reads (parts b)) (hb : make (parts b) = b) :
    (fs.record parts make).Reads b := by
  intro r admits
  unfold record
  dsimp only
  rw [Source.ofJson, decode_encode distinct reads admits]
  exact congrArg Except.ok hb

/-- A record is read from entries that give its parts. -/
theorem Shows.decode_record {fs : Fields αs} {parts : β → Values αs} {make : Values αs → β} {b : β}
    {r r' : Reading} {entries : List (Atom × Source)} (distinct : fs.names.Nodup)
    (shown : fs.Shows r' entries (parts b)) (enter : r.enter = .ok r') (hb : make (parts b) = b) :
    (fs.record parts make).decode r (.fields entries none) = .ok b := by
  unfold record
  dsimp only
  rw [shown.decode distinct enter]
  exact congrArg Except.ok hb

/-- An optional record is read back if the record is: no record is written as `null`. -/
theorem option_record_reads {fs : Fields αs} {parts : β → Values αs} {make : Values αs → β}
    {o : Option β} (h : ∀ b ∈ o, (fs.record parts make).Reads b) :
    (fs.record parts make).option.Reads o :=
  Codec.option_reads fun b hb => ⟨h b hb, Json.noConfusion⟩

end Fields

/-! ### Fields that are passed on -/

/-- What only copies the fields of all names but one copies fields that have other names. -/
theorem passed_on {found : β} {tag : String} {r : Reading}
    {f : List (Atom × Source) → Except Fault (β × List (Atom × Source))}
    (nil : f [] = .ok (found, []))
    (cons : ∀ name j entries, name ≠ tag → f (Source.ofFields ((name, j) :: entries)) = do
      let _ ← (Source.ofJson j).read r
      let (b, others) ← f (Source.ofFields entries)
      return (b, (.ofScalar (.string name), Source.ofJson j) :: others))
    {entries : List (String × Json)} (ne : ∀ e ∈ entries, e.1 ≠ tag)
    (admits : r.Admits (depthFields entries)) :
    f (Source.ofFields entries) = .ok (found, Source.ofFields entries) := by
  induction entries with
  | nil => exact nil
  | cons e entries ih =>
    obtain ⟨name, j⟩ := e
    rw [cons name j entries (ne (name, j) (List.mem_cons_self ..)),
      read_ofJson j (admits.mono (le_max_left ..)), bind_ok,
      ih (fun e he => ne e (List.mem_cons_of_mem _ he)) (admits.mono (le_max_right ..))]
    rfl

/-! ### Kinds -/

namespace Variant

variable {tag kind : String} {kinds : List (Kind α)} {body : Source → Except Fault α}
  {entries : List (String × Json)}

/-- The other fields are only passed on. -/
theorem readEntries_others (kinds : List (Kind α)) {r : Reading}
    (ne : ∀ e ∈ entries, e.1 ≠ tag)
    (admits : r.Admits (depthFields entries)) (found : Option (Source → Except Fault α)) :
    readEntries tag kinds r (Source.ofFields entries) found =
      .ok (found, Source.ofFields entries) := by
  refine passed_on (f := fun l => readEntries tag kinds r l found) rfl ?_ ne admits
  intro name j entries other
  rw [Source.ofFields, readEntries,
    show (Atom.ofScalar (.string name)).string? = .ok name from rfl, bind_ok, if_neg other]

/-- **What is written of a kind is read as that kind**, from a copy of the fields. -/
theorem read_write (hk : kinds.lookup kind = some body) (ne : ∀ e ∈ entries, e.1 ≠ tag)
    {r : Reading} (admits : r.Admits (write tag kind entries).depth) :
    read tag kinds r (Source.ofJson (write tag kind entries)) =
      body (.fields (Source.ofFields entries) none) := by
  obtain ⟨r', enter, admits⟩ := Reading.Admits.enter admits
  have others := readEntries_others kinds ne (admits.mono (le_max_right ..)) (some body)
  have first : choose kinds r' (Source.ofJson (.string kind)) = .ok body := by
    change choose.found (kinds.lookup kind) = .ok body
    rw [hk]
    rfl
  have all : readEntries tag kinds r' (Source.ofFields ((tag, .string kind) :: entries)) none =
      .ok (some body, Source.ofFields entries) := by
    rw [Source.ofFields, readEntries,
      show (Atom.ofScalar (.string tag)).string? = .ok tag from rfl, bind_ok, if_pos rfl, first]
    exact others
  rw [write, Source.ofJson, read, enter, bind_ok, all]
  rfl

/-- A value of a kind without fields is read back. -/
theorem read_unit {a : α} {r : Reading} (admits : r.Admits (write tag kind []).depth)
    (hk : kinds.lookup kind = some (unit kind a).2) :
    read tag kinds r (Source.ofJson (write tag kind [])) = .ok a :=
  read_write hk (fun _ he => absurd he List.not_mem_nil) admits

/-- A value of a kind with fields is read back if its parts are. -/
theorem read_ofFields {αs : List Type} {fs : Fields αs} {make : Fields.Values αs → α}
    {values : Fields.Values αs} {a : α} {r : Reading}
    (admits : r.Admits (write tag kind (fs.encode values)).depth)
    (hk : kinds.lookup kind = some (ofFields kind fs make).2) (ha : make values = a)
    (ne : tag ∉ fs.names) (distinct : fs.names.Nodup) (reads : fs.Reads values) :
    read tag kinds r (Source.ofJson (write tag kind (fs.encode values))) = .ok a := by
  have body := Fields.decode_encode distinct reads (r := .buffered) trivial
  rw [read_write hk (Fields.ne_of_mem_encode ne) admits, ← ha]
  show make <$> fs.decode .buffered _ = _
  rw [body]
  rfl

end Variant

end WorkerCluster.Json
