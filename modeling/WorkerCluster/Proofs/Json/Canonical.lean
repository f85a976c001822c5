import WorkerCluster.Proofs.Json.Codec

/-!
# What is read is in canonical form

* `canonicalFields_iff` takes the canonical form of an object to its fields.
* `canonical_of_read` says that whatever is read of any text is in canonical form, in whichever
  order the text has the fields of its objects and however often it repeats one.
-/

namespace WorkerCluster

namespace SortedMap

variable {κ α : Type} [KeyOrder κ] [DecidableEq κ]

/-- A map holds only entries of the list from which it is built. -/
theorem mem_of_find?_ofList {l : List (κ × α)} {k : κ} {a : α}
    (h : (ofList l).find? k = some a) : (k, a) ∈ l := by
  rw [find?_ofList] at h
  obtain ⟨e, last, rfl⟩ := Option.map_eq_some_iff.1 h
  obtain ⟨mem, same⟩ := List.mem_filter.1 (List.mem_of_getLast? last)
  obtain rfl : e.1 = k := of_decide_eq_true same
  exact mem

end SortedMap

namespace Json

variable {entries : List (String × Json)}

theorem canonicalFields_iff : CanonicalFields entries ↔ ∀ e ∈ entries, e.2.Canonical := by
  induction entries with
  | nil => exact ⟨fun _ _ h => (List.not_mem_nil h).elim, fun _ => trivial⟩
  | cons e entries ih => rw [CanonicalFields, ih, List.forall_mem_cons]

/-- An object that is built of such values is in canonical form. -/
theorem canonical_object (h : CanonicalFields entries) : (object entries).Canonical := by
  refine ⟨(SortedMap.ofList entries).sorted, canonicalFields_iff.2 fun e he => ?_⟩
  exact canonicalFields_iff.1 h e (SortedMap.mem_of_find?_ofList (SortedMap.mem_entries.1 he))

mutual

/-- **Whatever is read is in canonical form.** -/
theorem canonical_of_read : (s : Source) → {r : Reading} → {j : Json} → s.read r = .ok j →
    j.Canonical
  | .atom a, r, j, h => by
    rw [Source.read] at h
    split at h
    · exact Except.ok.inj h ▸ trivial
    · exact Except.ok.inj h ▸ trivial
    · exact Except.ok.inj h ▸ trivial
    · exact Except.ok.inj h ▸ trivial
    · cases h
  | .array items ending, r, j, h => by
    rw [Source.read] at h
    obtain ⟨r', -, h⟩ := bind_eq_ok h
    obtain ⟨values, read, h⟩ := bind_eq_ok h
    obtain ⟨-, -, h⟩ := bind_eq_ok h
    obtain rfl := Except.ok.inj h
    exact canonicalItems_of_read items read
  | .fields entries ending, r, j, h => by
    rw [Source.read] at h
    obtain ⟨r', -, h⟩ := bind_eq_ok h
    obtain ⟨values, read, h⟩ := bind_eq_ok h
    obtain ⟨-, -, h⟩ := bind_eq_ok h
    obtain rfl := Except.ok.inj h
    exact canonical_object (canonicalFields_of_read entries read)

theorem canonicalItems_of_read : (items : List Source) → {r : Reading} → {l : List Json} →
    Source.readItems r items = .ok l → CanonicalItems l
  | [], r, l, h => Except.ok.inj h ▸ trivial
  | s :: items, r, l, h => by
    rw [Source.readItems] at h
    obtain ⟨j, first, h⟩ := bind_eq_ok h
    obtain ⟨values, rest, h⟩ := bind_eq_ok h
    obtain rfl := Except.ok.inj h
    exact ⟨canonical_of_read s first, canonicalItems_of_read items rest⟩

theorem canonicalFields_of_read : (entries : List (Atom × Source)) → {r : Reading} →
    {l : List (String × Json)} → Source.readFields r entries = .ok l → CanonicalFields l
  | [], r, l, h => Except.ok.inj h ▸ trivial
  | (name, s) :: entries, r, l, h => by
    rw [Source.readFields] at h
    obtain ⟨n, -, h⟩ := bind_eq_ok h
    obtain ⟨j, first, h⟩ := bind_eq_ok h
    obtain ⟨values, rest, h⟩ := bind_eq_ok h
    obtain rfl := Except.ok.inj h
    exact ⟨canonical_of_read s first, canonicalFields_of_read entries rest⟩

end

/-- What a codec reads from a text it has decoded. -/
theorem Codec.decode_of_read {α : Type} {c : Codec α} {text : List UInt8} {a : α}
    (h : c.read text = .ok a) : ∃ r s, c.decode r s = .ok a := by
  unfold Codec.read at h
  generalize Source.scan text = scanned at h
  obtain ⟨s, more⟩ := scanned
  obtain ⟨b, decoded, h⟩ := bind_eq_ok h
  cases more with
  | true => cases h
  | false =>
    obtain rfl := Except.ok.inj h
    exact ⟨_, _, decoded⟩

end Json

end WorkerCluster
