import WorkerCluster.Proofs.Restart

/-!
# The documents of a store as a map

A document is stored under one key that joins the name of its dataset and its own key.

* `Catalog` is a map from the names of datasets and keys to documents, `Catalog.call` what a call
  does to it, given what a call is refused for.
* `Store.Holds` says that the table of a store holds the documents of datasets; a call keeps it
  (`Holds.step`), and what is read is what they hold (`Holds.shows`).
* `refines_catalog` is the main statement: the calls on a store are those on a map, except that
  nobody looks at the name of a dataset without documents.
-/

namespace WorkerCluster

/-! ### Maps of documents -/

/-- The documents by dataset and key. -/
abbrev Catalog := String → String → Option Json

/-- What changes the documents of a store. -/
inductive DocumentCall
  | put (dataset key : String) (document : Json)
  | delete (dataset key : String)
  | replace (d : Datasets)

/-- Why there is no dataset of this name. -/
def datasetFault? (dataset : String) : Option StoreError :=
  if dataset = "" ∨ '/' ∈ dataset.toList then some (.datasetName dataset) else none

/-- Why there is no document of these names. -/
def documentFault? (dataset key : String) : Option StoreError :=
  (datasetFault? dataset).or (if key = "" then some (.emptyKey dataset) else none)

/-- The names of all documents. -/
def Datasets.names (d : Datasets) : List (String × String) :=
  d.entries.flatMap fun (dataset, documents) => documents.keys.map (dataset, ·)

namespace DocumentCall

/-- The names of the documents that it is about. -/
def names : DocumentCall → List (String × String)
  | put dataset key _ | delete dataset key => [(dataset, key)]
  | replace d => d.names

/-- The names of its datasets, also of those without documents. -/
def datasets : DocumentCall → List String
  | put dataset _ _ | delete dataset _ => [dataset]
  | replace d => d.keys

/-- Why one of its documents cannot be there. -/
def fault? (call : DocumentCall) : Option StoreError :=
  call.names.findSome? fun (dataset, key) => documentFault? dataset key

/-- Why one of its documents or one of its datasets cannot be there. -/
def anyFault? (call : DocumentCall) : Option StoreError :=
  call.fault?.or (call.datasets.findSome? datasetFault?)

/-- All its documents can be there, but it brings a dataset without documents that cannot. -/
def Hollow (call : DocumentCall) : Prop :=
  call.fault? = none ∧ ∃ d dataset documents, call = replace d ∧
    d.find? dataset = some documents ∧ documents.isEmpty = true ∧ datasetFault? dataset ≠ none

/-- Its documents can be read once they are written. -/
def Readable : DocumentCall → Prop
  | put _ _ document => document.Readable
  | delete _ _ => True
  | replace d => d.Readable

end DocumentCall

namespace Catalog

/-- A map with another document, or none, under these names. -/
def update (c : Catalog) (dataset key : String) (document : Option Json) : Catalog :=
  fun dataset' key' => if dataset' = dataset ∧ key' = key then document else c dataset' key'

/-- No documents. -/
def nothing : Catalog := fun _ _ => none

/-- What a call does. The result of a removal is whether the document was there. -/
def perform (c : Catalog) : DocumentCall → Bool × Catalog
  | .put dataset key document => (true, c.update dataset key (some document))
  | .delete dataset key => ((c dataset key).isSome, c.update dataset key none)
  | .replace d => (true, d.document?)

/-- What becomes of a call. One that is refused leaves everything as it is. -/
def call (refused : DocumentCall → Option StoreError) (c : Catalog) (call : DocumentCall) :
    Except StoreError Bool × Catalog :=
  match refused call with
  | some e => (.error e, c)
  | none => (.ok (c.perform call).1, (c.perform call).2)

end Catalog

/-- What becomes of a call. -/
def Store.call (s : Store) : DocumentCall → Except StoreError Bool × Store
  | .put dataset key document =>
    match s.putDocument dataset key document with
    | .ok t => (.ok true, t)
    | .error e => (.error e, s)
  | .delete dataset key =>
    match s.deleteDocument dataset key with
    | .ok (there, t) => (.ok there, t)
    | .error e => (.error e, s)
  | .replace d =>
    match s.replaceDatasets d with
    | .ok t => (.ok true, t)
    | .error e => (.error e, s)

/-- The results of calls one after the other, and what is there in the end. -/
def DocumentCall.run {σ α : Type} (step : σ → DocumentCall → α × σ) (s : σ) :
    List DocumentCall → List α × σ
  | [] => ([], s)
  | call :: calls =>
    let (answer, t) := step s call
    let (answers, u) := DocumentCall.run step t calls
    (answer :: answers, u)

/-- What is read of a store is what a map holds. -/
structure Store.Shows (s : Store) (c : Catalog) : Prop where
  /-- One document is read as the map has it, unless it cannot be there. -/
  one : ∀ dataset key, s.document? dataset key =
    (documentFault? dataset key).elim (.ok (c dataset key)) .error
  /-- Of all datasets exactly the documents of the map are read. -/
  all : ∃ d, s.datasets = .ok d ∧ d.Tidy ∧ ∀ dataset key, d.document? dataset key = c dataset key

/-! ### Names -/

/-- A list is mapped until the first fault. -/
theorem mapM_eq_elim {ε α β : Type} {f : α → Except ε β} {g : α → β} {fault? : α → Option ε}
    (h : ∀ a, f a = (fault? a).elim (.ok (g a)) .error) (l : List α) :
    l.mapM f = (l.findSome? fault?).elim (.ok (l.map g)) .error := by
  induction l with
  | nil => rfl
  | cons a l ih =>
    rw [List.mapM_cons, h, ih, List.findSome?_cons]
    cases fault? a with
    | some e => rfl
    | none => cases l.findSome? fault? <;> rfl

theorem Store.documentKey_eq_elim (dataset key : String) : Store.documentKey dataset key =
    (documentFault? dataset key).elim (.ok (dataset ++ "/" ++ key)) .error := by
  unfold Store.documentKey documentFault? datasetFault?
  by_cases bad : dataset = "" ∨ '/' ∈ dataset.toList
  · rw [if_pos bad, if_pos (by simpa using bad)]
    rfl
  · rw [if_neg bad, if_neg (by simpa using bad), Option.none_or]
    by_cases empty : key = ""
    · rw [if_pos empty, if_pos (by simpa using empty)]
      rfl
    · rw [if_neg empty, if_neg (by simpa using empty)]
      rfl

theorem Store.documentKey_of_none {dataset key : String}
    (fine : documentFault? dataset key = none) :
    Store.documentKey dataset key = .ok (dataset ++ "/" ++ key) := by
  rw [documentKey_eq_elim, fine]
  rfl

/-- Documents are laid out as rows unless one of them cannot be there. -/
theorem Store.documentRows_eq_elim (d : Datasets) : ∃ rows, Store.documentRows d =
    (DocumentCall.replace d).fault?.elim (.ok rows) .error := by
  have row (e : String × String × Json) : (·, e.2.2) <$> Store.documentKey e.1 e.2.1 =
      (documentFault? e.1 e.2.1).elim (.ok (e.1 ++ "/" ++ e.2.1, e.2.2)) .error := by
    rw [Store.documentKey_eq_elim]
    cases documentFault? e.1 e.2.1 <;> rfl
  let documents := d.entries.flatMap fun e => e.2.entries.map fun document => (e.1, document)
  have names : d.names = documents.map fun e => (e.1, e.2.1) := by
    simp [documents, Datasets.names, SortedMap.keys, List.map_flatMap, Function.comp_def]
  refine ⟨documents.map fun e => (e.1 ++ "/" ++ e.2.1, e.2.2),
    (mapM_eq_elim row documents).trans ?_⟩
  rw [DocumentCall.fault?, DocumentCall.names, names, List.findSome?_map]
  rfl

theorem Datasets.mem_names {d : Datasets} {dataset key : String} :
    (dataset, key) ∈ d.names ↔ ∃ j, d.document? dataset key = some j := by
  unfold names
  rw [List.mem_flatMap]
  constructor
  · rintro ⟨⟨dataset', documents⟩, held, mem⟩
    obtain ⟨key', mem, same⟩ := List.mem_map.1 mem
    cases same
    obtain ⟨j, found⟩ := SortedMap.mem_keys.1 mem
    exact ⟨j, by rw [document?, SortedMap.mem_entries.1 held]; exact found⟩
  · rintro ⟨j, found⟩
    obtain ⟨documents, held, found⟩ := Option.bind_eq_some_iff.1 found
    exact ⟨(dataset, documents), SortedMap.mem_entries.2 held,
      List.mem_map_of_mem (SortedMap.mem_keys.2 ⟨j, found⟩)⟩

theorem Datasets.Readable.insertDocument {d : Datasets} (h : d.Readable) (dataset key : String)
    {document : Json} (readable : document.Readable) :
    (d.insertDocument dataset key document).Readable := by
  intro dataset' key' j found
  rw [document?_insertDocument] at found
  split at found
  · cases found
    exact readable
  · exact h dataset' key' j found

theorem Datasets.Readable.eraseDocument {d : Datasets} (h : d.Readable) (dataset key : String) :
    (d.eraseDocument dataset key).Readable :=
  fun dataset' key' j found => h dataset' key' j (document?_of_eraseDocument found)

namespace DocumentCall

variable {call : DocumentCall}

theorem fault?_put (dataset key : String) (document : Json) :
    (put dataset key document).fault? = documentFault? dataset key := List.findSome?_singleton

theorem fault?_delete (dataset key : String) :
    (delete dataset key).fault? = documentFault? dataset key := List.findSome?_singleton

/-- Only a dataset without documents can have a bad name where no document has one. -/
theorem hollow_iff : call.Hollow ↔
    call.fault? = none ∧ ∃ dataset ∈ call.datasets, datasetFault? dataset ≠ none := by
  refine and_congr_right fun fine => ⟨?_, ?_⟩
  · rintro ⟨d, dataset, documents, rfl, held, -, bad⟩
    exact ⟨dataset, SortedMap.mem_keys.2 ⟨documents, held⟩, bad⟩
  · rintro ⟨dataset, mem, bad⟩
    have named {key : String} (mem : (dataset, key) ∈ call.names) : False :=
      bad (Option.or_eq_none_iff.1 (List.findSome?_eq_none_iff.1 fine _ mem)).1
    cases call with
    | put dataset' key document =>
      cases List.mem_singleton.1 mem
      exact (named (List.mem_singleton_self _)).elim
    | delete dataset' key =>
      cases List.mem_singleton.1 mem
      exact (named (List.mem_singleton_self _)).elim
    | replace d =>
      obtain ⟨documents, held⟩ := SortedMap.mem_keys.1 mem
      refine ⟨d, dataset, documents, rfl, held, SortedMap.isEmpty_iff.2 fun key => ?_, bad⟩
      refine Option.eq_none_iff_forall_ne_some.2 fun j found => ?_
      have there : d.document? dataset key = some j := by
        rw [Datasets.document?, held]
        exact found
      exact named (Datasets.mem_names.2 ⟨j, there⟩)

/-- Where a call is not hollow, the names of its documents tell all that is wrong. -/
theorem anyFault?_eq_fault? (solid : ¬ call.Hollow) : call.anyFault? = call.fault? := by
  rw [hollow_iff] at solid
  unfold anyFault?
  cases fault : call.fault? with
  | some e => rfl
  | none => simpa [fault] using solid

theorem Hollow.exists_anyFault? (hollow : call.Hollow) : ∃ e, call.anyFault? = some e := by
  obtain ⟨fine, dataset, mem, bad⟩ := hollow_iff.1 hollow
  rw [anyFault?, fine, Option.none_or, ← Option.isSome_iff_exists, List.findSome?_isSome_iff]
  exact ⟨dataset, mem, Option.isSome_iff_ne_none.2 bad⟩

end DocumentCall

/-! ### What a store holds -/

/-- The table of a store holds the documents of these datasets, and all of them can be read. -/
structure Store.Holds (s : Store) (d : Datasets) : Prop where
  storable : d.Storable
  readable : d.Readable
  rows : ∃ table, s.documents = .of .json table ∧ d.Laid table

namespace Store.Holds

variable {s : Store} {d : Datasets} {dataset key : String}

theorem of_empty (empty : s.documents = .empty) : s.Holds .empty where
  storable := Datasets.storable_empty
  readable _ _ _ found := nomatch found
  rows := ⟨.empty, empty, Datasets.laid_empty⟩

/-- **What is read of a store is what it holds.** -/
theorem shows (h : s.Holds d) : s.Shows d.document? := by
  obtain ⟨table, documents, laid⟩ := h.rows
  have reads {k : String} {j : Json} (found : table.find? k = some j) :
      Json.Codec.json.read (Json.Codec.json.encode j).bytes = .ok j := by
    rw [laid, h.storable.row?_eq_some] at found
    obtain ⟨dataset, key, held, -⟩ := found
    have readable := h.readable dataset key j held
    exact (Json.Codec.json_reads readable.canonical).read_bytes readable.depth
  constructor
  case one =>
    intro dataset key
    rw [Store.document?, Store.documentKey_eq_elim]
    cases fault : documentFault? dataset key with
    | some e => rfl
    | none =>
      have row := laid (dataset ++ "/" ++ key)
      rw [Datasets.row?_eq d (documentKey_of_none fault)] at row
      show s.documents.get? .json (dataset ++ "/" ++ key) = _
      rw [documents, Rows.get?, Rows.of, SortedMap.find?_map, ← row]
      cases found : table.find? (dataset ++ "/" ++ key) with
      | none => rfl
      | some j =>
        show some <$> Rows.readRow .json (Json.Codec.json.encode j).bytes = _
        rw [Rows.readRow, reads found]
        rfl
  case all =>
    refine ⟨d.trim, ?_, Datasets.tidy_trim d, Datasets.document?_trim d⟩
    rw [Store.datasets, documents, Rows.all?_of fun _ _ => reads, ← laid.gather_eq h.storable]
    rfl

/-! ### Calls -/

theorem put (h : s.Holds d) (fault : documentFault? dataset key = none) {document : Json}
    (readable : document.Readable) : ∃ t, s.putDocument dataset key document = .ok t ∧
      t.Holds (d.insertDocument dataset key document) := by
  obtain ⟨table, documents, laid⟩ := h.rows
  have named := documentKey_of_none fault
  refine ⟨{ s with documents := .of .json (table.insert (dataset ++ "/" ++ key) document) }, ?_, ?_⟩
  · rw [Store.putDocument, named, documents, ← Rows.put_of]
    rfl
  · exact {
      storable := h.storable.insertDocument named document
      readable := h.readable.insertDocument dataset key readable
      rows := ⟨_, rfl, laid.insertDocument named document⟩ }

theorem delete (h : s.Holds d) (fault : documentFault? dataset key = none) :
    ∃ t, s.deleteDocument dataset key = .ok ((d.document? dataset key).isSome, t) ∧
      t.Holds (d.eraseDocument dataset key) := by
  obtain ⟨table, documents, laid⟩ := h.rows
  have named := documentKey_of_none fault
  have there : s.documents.contains (dataset ++ "/" ++ key) =
      (d.document? dataset key).isSome := by
    rw [documents, SortedMap.contains, Rows.of, SortedMap.find?_map, Option.isSome_map, laid,
      Datasets.row?_eq d named]
  refine ⟨{ s with documents := .of .json (table.erase (dataset ++ "/" ++ key)) }, ?_, ?_⟩
  · rw [Store.deleteDocument, named, ← there, ← Rows.erase_of, ← documents]
    rfl
  · exact {
      storable := h.storable.eraseDocument dataset key
      readable := h.readable.eraseDocument dataset key
      rows := ⟨_, rfl, laid.eraseDocument named⟩ }

theorem replace (fault : (DocumentCall.replace d).fault? = none) (readable : d.Readable) :
    ∃ t, s.replaceDatasets d = .ok t ∧ t.Holds d := by
  obtain ⟨rows, listed⟩ := Store.documentRows_eq_elim d
  rw [fault, Option.elim_none] at listed
  refine ⟨{ s with documents := .of .json (.ofList rows) }, ?_, ?_⟩
  · rw [Store.replaceDatasets, listed, ← Rows.ofValues_eq]
    rfl
  · exact {
      storable := Datasets.exists_documentRows_iff.1 ⟨rows, listed⟩
      readable
      rows := ⟨_, rfl, Datasets.laid_documentRows listed⟩ }

end Store.Holds

open DocumentCall (run fault? anyFault?)

namespace Store

variable {s : Store} {call : DocumentCall}

/-- A call on a document that cannot be there is refused, and changes nothing. -/
theorem call_of_fault {e : StoreError} (fault : call.fault? = some e) :
    s.call call = (.error e, s) := by
  cases call with
  | put dataset key document =>
    rw [DocumentCall.fault?_put] at fault
    rw [Store.call, Store.putDocument, Store.documentKey_eq_elim, fault]
    rfl
  | delete dataset key =>
    rw [DocumentCall.fault?_delete] at fault
    rw [Store.call, Store.deleteDocument, Store.documentKey_eq_elim, fault]
    rfl
  | replace d =>
    obtain ⟨rows, listed⟩ := Store.documentRows_eq_elim d
    rw [Store.call, Store.replaceDatasets, listed, fault]
    rfl

variable {d : Datasets}

theorem Holds.step_of_none (h : s.Holds d) (readable : call.Readable) (fault : call.fault? = none) :
    ∃ e, (s.call call).1 = .ok (Catalog.perform d.document? call).1 ∧ (s.call call).2.Holds e ∧
      e.document? = (Catalog.perform d.document? call).2 := by
  cases call with
  | put dataset key document =>
    rw [DocumentCall.fault?_put] at fault
    obtain ⟨t, stored, holds⟩ := h.put fault readable
    refine ⟨d.insertDocument dataset key document, ?_⟩
    rw [Store.call, stored]
    exact ⟨rfl, holds, funext₂ (Datasets.document?_insertDocument d dataset key document)⟩
  | delete dataset key =>
    rw [DocumentCall.fault?_delete] at fault
    obtain ⟨t, removed, holds⟩ := h.delete fault
    refine ⟨d.eraseDocument dataset key, ?_⟩
    rw [Store.call, removed]
    exact ⟨rfl, holds, funext₂ (Datasets.document?_eraseDocument d dataset key)⟩
  | replace d' =>
    obtain ⟨t, replaced, holds⟩ := Holds.replace (s := s) fault readable
    refine ⟨d', ?_⟩
    rw [Store.call, replaced]
    exact ⟨rfl, holds, rfl⟩

/-- **A call on a store is one on the map of its documents.** -/
theorem Holds.step (h : s.Holds d) (readable : call.Readable) : ∃ e,
    (s.call call).1 = (Catalog.call fault? d.document? call).1 ∧ (s.call call).2.Holds e ∧
      e.document? = (Catalog.call fault? d.document? call).2 := by
  unfold Catalog.call
  cases fault : call.fault? with
  | some e =>
    rw [call_of_fault fault]
    exact ⟨d, rfl, h, rfl⟩
  | none => exact h.step_of_none readable fault

/-- The same of calls one after the other. -/
theorem Holds.run (h : s.Holds d) {calls : List DocumentCall}
    (readable : ∀ call ∈ calls, call.Readable) : ∃ e,
    (run Store.call s calls).1 = (run (Catalog.call fault?) d.document? calls).1 ∧
      (run Store.call s calls).2.Holds e ∧
      e.document? = (run (Catalog.call fault?) d.document? calls).2 := by
  induction calls generalizing s d with
  | nil => exact ⟨d, rfl, h, rfl⟩
  | cons call calls ih =>
    obtain ⟨first, rest⟩ := List.forall_mem_cons.1 readable
    obtain ⟨e, answer, holds, same⟩ := h.step first
    obtain ⟨u, answers, holds, last⟩ := ih holds rest
    rw [same] at answers last
    exact ⟨u, congrArg₂ List.cons answer answers, holds, last⟩

end Store

namespace Catalog

variable {c : Catalog} {calls : List DocumentCall}

/-- It makes no difference what else is refused as long as no call is hollow. -/
theorem call_anyFault? {first : DocumentCall} (solid : ¬ first.Hollow) :
    c.call anyFault? first = c.call fault? first := by
  rw [call, call, DocumentCall.anyFault?_eq_fault? solid]

theorem run_anyFault? (solid : ∀ call ∈ calls, ¬ call.Hollow) :
    run (call anyFault?) c calls = run (call fault?) c calls := by
  induction calls generalizing c with
  | nil => rfl
  | cons first calls ih =>
    obtain ⟨first, rest⟩ := List.forall_mem_cons.1 solid
    simp only [run, call_anyFault? first, ih rest]

/-- The answer to a hollow call is another one. -/
theorem run_anyFault?_iff :
    (run (call fault?) c calls).1 = (run (call anyFault?) c calls).1 ↔
      ∀ call ∈ calls, ¬ call.Hollow := by
  refine ⟨fun same => ?_, fun solid => by rw [run_anyFault? solid]⟩
  induction calls generalizing c with
  | nil => exact fun _ mem => nomatch mem
  | cons first calls ih =>
    obtain ⟨answer, answers⟩ := List.cons.inj same
    have solid : ¬ first.Hollow := by
      intro hollow
      obtain ⟨e, fault⟩ := hollow.exists_anyFault?
      simp only [hollow.1, fault] at answer
      cases answer
    rw [DocumentCall.anyFault?_eq_fault? solid] at answers
    exact List.forall_mem_cons.2 ⟨solid, ih answers⟩

end Catalog

/-- **The documents of a store are a map** from the names of datasets and keys: calls on it are
answered as calls on the map are, and what is read is what the map holds. A call is refused because
of a document that cannot be there. The name of a dataset without documents is not looked at, so
that the answers are those of a map in which no dataset has a bad name exactly if there is no hollow
call. -/
theorem refines_catalog {s : Store} (empty : s.documents = .empty) {calls : List DocumentCall}
    (readable : ∀ call ∈ calls, call.Readable) :
    (run Store.call s calls).1 = (run (Catalog.call fault?) .nothing calls).1 ∧
      (run Store.call s calls).2.Shows (run (Catalog.call fault?) .nothing calls).2 ∧
      ((run Store.call s calls).1 = (run (Catalog.call anyFault?) .nothing calls).1 ↔
        ∀ call ∈ calls, ¬ call.Hollow) ∧
      ((∀ call ∈ calls, ¬ call.Hollow) →
        (run Store.call s calls).2.Shows (run (Catalog.call anyFault?) .nothing calls).2) := by
  obtain ⟨d, answers, holds, same⟩ := (Store.Holds.of_empty empty).run readable
  have shows := holds.shows
  rw [same] at shows
  refine ⟨answers, shows, ?_, fun solid => ?_⟩
  · rw [answers]
    exact Catalog.run_anyFault?_iff
  · rw [Catalog.run_anyFault? solid]
    exact shows

/-! ### Small runs -/

/-- Two documents whose names would look the same if a dataset could have any name. -/
def lookalikes : List DocumentCall :=
  [.put "maps" "old/arena" (.string "open"), .put "maps/old" "arena" (.string "closed"),
    .put "maps" "arena" .null, .delete "maps" "arena", .delete "maps" "arena"]

/-- Only one of them is stored. -/
theorem refines_lookalikes : ({} : Store).documents = .empty ∧
    (∀ call ∈ lookalikes, call.Readable) ∧ (∀ call ∈ lookalikes, ¬ call.Hollow) ∧
    (run Store.call {} lookalikes).1 = (run (Catalog.call anyFault?) .nothing lookalikes).1 ∧
    (run Store.call {} lookalikes).1 =
      [.ok true, .error (.datasetName "maps/old"), .ok true, .ok true, .ok false] ∧
    (run Store.call {} lookalikes).2.document? "maps" "old/arena" =
      .ok (some (.string "open")) := by
  have readable : ∀ call ∈ lookalikes, call.Readable := by
    simp only [lookalikes, List.forall_mem_cons]
    exact ⟨⟨trivial, Nat.zero_le _⟩, ⟨trivial, Nat.zero_le _⟩, ⟨trivial, Nat.zero_le _⟩, trivial,
      trivial, fun _ mem => nomatch mem⟩
  have solid : ∀ call ∈ lookalikes, ¬ call.Hollow := by
    rintro call mem ⟨-, d, -, -, rfl, -⟩
    simp [lookalikes] at mem
  obtain ⟨answers, shows, iff, -⟩ := refines_catalog (s := {}) rfl readable
  refine ⟨rfl, readable, solid, iff.2 solid, answers.trans rfl, ?_⟩
  exact (shows.one "maps" "old/arena").trans rfl

/-- A document, and then a dataset without documents that has a bad name. -/
def wiped : List DocumentCall :=
  [.put "maps" "arena" (.string "open"), .replace (.ofList [("old/maps", .empty)])]

/-- **The bad name is not refused**, and the document is gone. -/
theorem wiped_not_refused : (run Store.call {} wiped).1 = [.ok true, .ok true] ∧
    (run Store.call {} wiped).2.document? "maps" "arena" = .ok none ∧
    (run (Catalog.call anyFault?) .nothing wiped).1 =
      [.ok true, .error (.datasetName "old/maps")] ∧
    ¬ ∀ calls : List DocumentCall, (∀ call ∈ calls, call.Readable) →
      (run Store.call {} calls).1 = (run (Catalog.call anyFault?) .nothing calls).1 := by
  have answered : (run Store.call {} wiped).1 = [.ok true, .ok true] := rfl
  have refused : (run (Catalog.call anyFault?) .nothing wiped).1 =
      [.ok true, .error (.datasetName "old/maps")] := rfl
  refine ⟨answered, rfl, refused, fun same => ?_⟩
  have readable : ∀ call ∈ wiped, call.Readable := by
    simp only [wiped, List.forall_mem_cons]
    refine ⟨⟨trivial, Nat.zero_le _⟩, fun dataset key j found => ?_, fun _ mem => nomatch mem⟩
    obtain ⟨documents, held, found⟩ := Option.bind_eq_some_iff.1 found
    have mem : (dataset, documents) ∈ [("old/maps", .empty)] := SortedMap.mem_entries.2 held
    cases List.mem_singleton.1 mem
    cases found
  have differ := same wiped readable
  rw [answered, refused] at differ
  cases differ

end WorkerCluster
