import WorkerCluster.Proofs.Store

/-!
# Replicas that are opened again

* `Datasets.Laid` says that a table holds the documents of datasets under the keys of their rows;
  `Datasets.Tidy` that no dataset is empty. `Datasets.trim` leaves the empty ones out.
* `Replica.Input` is what may happen to a replica, `Replica.live` lets it happen.
* `Replica.Kept` says that the store holds what the replica holds. It holds from the beginning on
  (`Kept.live`).
* `open_live` is the main statement: a replica that is opened again holds what it held, without the
  empty datasets.
-/

namespace WorkerCluster

/-! ### Documents -/

namespace Datasets

variable {d e : Datasets} {dataset key : String}

theorem document?_eraseDocument (d : Datasets) (dataset key dataset' key' : String) :
    (d.eraseDocument dataset key).document? dataset' key' =
      if dataset' = dataset ∧ key' = key then none else d.document? dataset' key' := by
  unfold eraseDocument document?
  cases held : d.find? dataset with
  | none =>
    dsimp only
    split
    · next same => rw [same.1, held, Option.bind_none]
    · rfl
  | some documents =>
    dsimp only
    -- an empty rest is left out, so that nothing is found there either
    have found : ((if (documents.erase key).isEmpty = true then d.erase dataset
        else d.insert dataset (documents.erase key)).find? dataset').bind (·.find? key') =
        if dataset' = dataset then (documents.erase key).find? key'
        else (d.find? dataset').bind (·.find? key') := by
      split
      · next empty =>
        rw [SortedMap.find?_erase]
        split
        · exact (SortedMap.isEmpty_iff.1 empty key').symm
        · rfl
      · rw [SortedMap.find?_insert]
        split <;> rfl
    rw [found]
    by_cases other : dataset' = dataset
    · subst other
      by_cases same : key' = key <;> simp [same, held]
    · simp [other]

/-- No dataset is empty. -/
def Tidy (d : Datasets) : Prop :=
  ∀ dataset documents, d.find? dataset = some documents → documents.isEmpty = false

/-- The datasets that are not empty. -/
def trim (d : Datasets) : Datasets := d.filter fun _ documents => !documents.isEmpty

theorem tidy_empty : Tidy .empty := fun _ _ found => nomatch found

theorem Tidy.insertDocument (h : d.Tidy) (dataset key : String) (document : Json) :
    (d.insertDocument dataset key document).Tidy := by
  intro dataset' documents found
  unfold Datasets.insertDocument at found
  rw [SortedMap.find?_insert] at found
  split at found
  · cases found
    refine Bool.eq_false_iff.2 fun empty => ?_
    have none := SortedMap.isEmpty_iff.1 empty key
    simp at none
  · exact h dataset' documents found

theorem Tidy.eraseDocument (h : d.Tidy) (dataset key : String) :
    (d.eraseDocument dataset key).Tidy := by
  unfold Datasets.eraseDocument
  split
  · exact h
  · dsimp only
    split
    · intro dataset' documents found
      rw [SortedMap.find?_erase] at found
      split at found
      · cases found
      · exact h dataset' documents found
    · next held =>
      intro dataset' documents found
      rw [SortedMap.find?_insert] at found
      split at found
      · cases found
        exact Bool.eq_false_iff.2 held
      · exact h dataset' documents found

theorem tidy_trim (d : Datasets) : d.trim.Tidy := by
  intro dataset documents found
  rw [trim, SortedMap.find?_filter, Option.filter_eq_some_iff] at found
  simpa using found.2

theorem document?_trim (d : Datasets) (dataset key : String) :
    d.trim.document? dataset key = d.document? dataset key := by
  unfold document? trim
  rw [SortedMap.find?_filter]
  cases d.find? dataset with
  | none => rfl
  | some documents =>
    cases empty : documents.isEmpty with
    | false => simp [Option.filter, empty]
    | true => simp [Option.filter, empty, SortedMap.isEmpty_iff.1 empty key]

/-- A dataset that is not empty has a document. -/
theorem Tidy.exists_document (h : d.Tidy) {documents : SortedMap String Json}
    (found : d.find? dataset = some documents) : ∃ key j, d.document? dataset key = some j := by
  by_contra none
  have empty : documents.isEmpty = true := by
    refine SortedMap.isEmpty_iff.2 fun key => Option.eq_none_iff_forall_ne_some.2 fun j held => ?_
    exact none ⟨key, j, by rw [document?, found]; exact held⟩
  rw [h dataset documents found] at empty
  cases empty

/-- Datasets that are not empty are known by their documents. -/
theorem Tidy.ext (hd : d.Tidy) (he : e.Tidy)
    (same : ∀ dataset key, d.document? dataset key = e.document? dataset key) : d = e := by
  apply SortedMap.ext
  intro dataset
  cases left : d.find? dataset with
  | none =>
    cases right : e.find? dataset with
    | none => rfl
    | some documents =>
      obtain ⟨key, j, found⟩ := he.exists_document right
      rw [← same, document?, left] at found
      cases found
  | some documents =>
    cases right : e.find? dataset with
    | none =>
      obtain ⟨key, j, found⟩ := hd.exists_document left
      rw [same, document?, right] at found
      cases found
    | some documents' =>
      congr 1
      apply SortedMap.ext
      intro key
      have := same dataset key
      rwa [document?, document?, left, right] at this

theorem Tidy.trim_eq (h : d.Tidy) : d.trim = d := (tidy_trim d).ext h (document?_trim d)

/-! ### Rows of documents -/

/-- The document that a row stands for. -/
def row? (d : Datasets) (joined : String) : Option Json :=
  (Store.splitKey joined).bind fun parts => d.document? parts.1 parts.2

/-- A table holds the documents under the keys of their rows. -/
def Laid (d : Datasets) (table : SortedMap String Json) : Prop :=
  ∀ joined, table.find? joined = d.row? joined

variable {table : SortedMap String Json} {k : String}

/-- The key of its row tells the dataset of a document and its key. -/
theorem splitKey_eq_iff (stored : Store.documentKey dataset key = .ok k) {joined : String} :
    Store.splitKey joined = some (dataset, key) ↔ joined = k := by
  obtain ⟨-, plain, -, rfl⟩ := Store.documentKey_eq_ok.1 stored
  rw [Store.splitKey_eq_some]
  exact and_iff_right plain

theorem row?_eq (d : Datasets) (stored : Store.documentKey dataset key = .ok k) :
    d.row? k = d.document? dataset key := by
  rw [row?, (splitKey_eq_iff stored).2 rfl]
  rfl

/-- A row stands for a document that can be stored, and under no other key. -/
theorem Storable.row?_eq_some (h : d.Storable) {joined : String} {j : Json} :
    d.row? joined = some j ↔ ∃ dataset key,
      d.document? dataset key = some j ∧ Store.documentKey dataset key = .ok joined := by
  constructor
  · intro found
    obtain ⟨⟨dataset, key⟩, split, held⟩ := Option.bind_eq_some_iff.1 found
    obtain ⟨k, stored⟩ := h dataset key j held
    obtain rfl := (splitKey_eq_iff stored).1 split
    exact ⟨dataset, key, held, stored⟩
  · rintro ⟨dataset, key, held, stored⟩
    rw [row?_eq d stored, held]

theorem laid_empty : Laid .empty .empty := by
  intro joined
  rw [row?]
  cases Store.splitKey joined <;> rfl

/-- One document is another one, or gone, and so is its row. -/
theorem Laid.update (h : d.Laid table) (stored : Store.documentKey dataset key = .ok k)
    {table' : SortedMap String Json} {v : Option Json}
    (document : ∀ dataset' key', e.document? dataset' key' =
      if dataset' = dataset ∧ key' = key then v else d.document? dataset' key')
    (row : ∀ joined, table'.find? joined = if joined = k then v else table.find? joined) :
    e.Laid table' := by
  intro joined
  rw [row, h]
  by_cases same : joined = k
  · rw [if_pos same, same, row?_eq e stored, document, if_pos ⟨rfl, rfl⟩]
  · rw [if_neg same, row?, row?]
    cases split : Store.splitKey joined with
    | none => rfl
    | some parts =>
      rw [Option.bind_some, Option.bind_some, document, if_neg]
      rintro ⟨rfl, rfl⟩
      exact same ((splitKey_eq_iff stored).1 split)

theorem Laid.insertDocument (h : d.Laid table) (stored : Store.documentKey dataset key = .ok k)
    (document : Json) : (d.insertDocument dataset key document).Laid (table.insert k document) :=
  h.update stored (document?_insertDocument d dataset key document)
    fun joined => SortedMap.find?_insert table k joined document

theorem Laid.eraseDocument (h : d.Laid table) (stored : Store.documentKey dataset key = .ok k) :
    (d.eraseDocument dataset key).Laid (table.erase k) :=
  h.update stored (document?_eraseDocument d dataset key)
    fun joined => SortedMap.find?_erase table k joined

theorem Laid.trim (h : d.Laid table) : d.trim.Laid table := by
  intro joined
  rw [h, row?, row?]
  cases Store.splitKey joined with
  | none => rfl
  | some parts => exact (document?_trim d parts.1 parts.2).symm

/-- The rows of datasets are their documents, each under its key. -/
theorem mem_documentRows {rows : List (String × Json)} (h : Store.documentRows d = .ok rows)
    {j : Json} : (k, j) ∈ rows ↔ ∃ dataset key, d.document? dataset key = some j ∧
      Store.documentKey dataset key = .ok k := by
  rw [Json.mem_mapM_ok h]
  constructor
  · rintro ⟨⟨dataset, key, document⟩, mem, row⟩
    obtain ⟨⟨_, documents⟩, hd, mem⟩ := List.mem_flatMap.1 mem
    obtain ⟨⟨_, _⟩, hk, same⟩ := List.mem_map.1 mem
    cases same
    cases stored : Store.documentKey dataset key with
    | error e =>
      simp only [stored] at row
      cases row
    | ok k' =>
      simp only [stored] at row
      cases row
      refine ⟨dataset, key, ?_, stored⟩
      rw [document?, SortedMap.mem_entries.1 hd]
      exact SortedMap.mem_entries.1 hk
  · rintro ⟨dataset, key, found, stored⟩
    obtain ⟨documents, hd, hk⟩ := Option.bind_eq_some_iff.1 found
    refine ⟨(dataset, key, j), List.mem_flatMap.2 ⟨(dataset, documents),
      SortedMap.mem_entries.2 hd, List.mem_map.2 ⟨(key, j), SortedMap.mem_entries.2 hk, rfl⟩⟩, ?_⟩
    simp only [stored]
    rfl

theorem laid_documentRows {rows : List (String × Json)} (h : Store.documentRows d = .ok rows) :
    d.Laid (.ofList rows) := by
  have row {joined : String} {j : Json} : (joined, j) ∈ rows ↔ d.row? joined = some j :=
    (mem_documentRows h).trans (exists_documentRows_iff.1 ⟨rows, h⟩).row?_eq_some.symm
  intro joined
  rw [SortedMap.find?_ofList]
  cases last : (rows.filter (·.1 = joined)).getLast? with
  | none =>
    have none := List.filter_eq_nil_iff.1 (List.getLast?_eq_none_iff.1 last)
    refine (Option.eq_none_iff_forall_ne_some.2 fun j found => ?_).symm
    simpa using none (joined, j) (row.2 found)
  | some entry =>
    obtain ⟨mem, same⟩ := List.mem_filter.1 (List.mem_of_getLast? last)
    obtain rfl : entry.1 = joined := of_decide_eq_true same
    exact (row.1 mem).symm

/-- The last row counts, unless it is none of a document. -/
theorem gather_concat (rows : List (String × Json)) (row : String × Json) :
    Store.gather (rows ++ [row]) = (Store.splitKey row.1).elim (Store.gather rows)
      fun parts => (Store.gather rows).insertDocument parts.1 parts.2 row.2 := by
  unfold Store.gather
  rw [List.foldl_append]
  obtain ⟨joined, document⟩ := row
  cases split : Store.splitKey joined <;> simp [split]

/-- What is gathered is the last document of every key. -/
theorem document?_gather (rows : List (String × Json)) (dataset key : String) :
    (Store.gather rows).document? dataset key =
      ((rows.filter (Store.splitKey ·.1 = some (dataset, key))).getLast?).map (·.2) := by
  -- from the end, since it is the last that counts
  induction rows using List.reverseRecOn with
  | nil => rfl
  | append_singleton rows row ih =>
    rw [gather_concat, List.filter_append]
    by_cases split : Store.splitKey row.1 = some (dataset, key)
    · rw [split, List.filter_cons_of_pos (by simp [split]), List.filter_nil, List.getLast?_concat,
        Option.elim_some, document?_insertDocument, if_pos ⟨rfl, rfl⟩]
      rfl
    · rw [List.filter_cons_of_neg (by simp [split]), List.filter_nil, List.append_nil, ← ih]
      cases other : Store.splitKey row.1 with
      | none => rfl
      | some parts =>
        rw [Option.elim_some, document?_insertDocument, if_neg]
        rintro ⟨rfl, rfl⟩
        exact split other

theorem tidy_gather (rows : List (String × Json)) : (Store.gather rows).Tidy := by
  induction rows using List.reverseRecOn with
  | nil => exact tidy_empty
  | append_singleton rows row ih =>
    rw [gather_concat]
    cases Store.splitKey row.1 with
    | none => exact ih
    | some parts => exact ih.insertDocument _ _ _

/-- **The rows of datasets are read back as the datasets that are not empty.** -/
theorem Laid.gather_eq (h : d.Laid table) (storable : d.Storable) :
    Store.gather table.entries = d.trim := by
  refine (tidy_gather _).ext (tidy_trim d) fun dataset key => ?_
  rw [document?_trim, document?_gather]
  by_cases plain : '/' ∈ dataset.toList
  · -- there is no row for such a dataset, and no document
    rw [List.filter_eq_nil_iff.2]
    · refine (Option.eq_none_iff_forall_ne_some.2 fun j found => ?_).symm
      obtain ⟨k, stored⟩ := storable dataset key j found
      exact (Store.documentKey_eq_ok.1 stored).2.1 plain
    · intro e _
      simp [Store.splitKey_eq_some, plain]
  · have split : ∀ e ∈ table.entries, decide (Store.splitKey e.1 = some (dataset, key)) =
        decide (e.1 = dataset ++ "/" ++ key) := by
      intro e _
      simp [Store.splitKey_eq_some, plain]
    rw [List.filter_congr split, ← SortedMap.find?_ofList, SortedMap.ofList_entries, h, row?,
      Store.splitKey_eq_some.2 ⟨plain, rfl⟩]
    rfl

end Datasets

/-! ### What can be read back -/

/-- A value whose text can be read. -/
structure Json.Readable (j : Json) : Prop where
  canonical : j.Canonical
  depth : j.depth ≤ Json.Reading.nestingLimit

/-- Permissions whose text can be read. -/
structure Permissions.Readable (p : Permissions) : Prop where
  canonical : p.Canonical
  depth : (Permissions.codec.encode p).depth ≤ Json.Reading.nestingLimit

/-- Every document can be read. -/
def Datasets.Readable (d : Datasets) : Prop :=
  ∀ dataset key j, d.document? dataset key = some j → j.Readable

theorem Datasets.Readable.trim {d : Datasets} (h : d.Readable) : d.trim.Readable := by
  intro dataset key j found
  rw [document?_trim] at found
  exact h dataset key j found

namespace Replica

/-- Something that may happen to a replica. -/
inductive Input
  | change (c : Change)
  | apply (m : ClusterMessage)
  /-- Its node stops and is started again. -/
  | reopen

/-- Let it happen. -/
def take (r : Replica) : Input → Replica
  | .change c => r.change c
  | .apply m => (r.apply m).2
  | .reopen =>
    match Replica.open r.store with
    | .ok t => t
    | .error _ => r

/-- Let things happen one after the other. -/
def live (r : Replica) (inputs : List Input) : Replica := inputs.foldl take r

/-- The values that it brings can be read once they are written. -/
def Input.Readable : Input → Prop
  | .change (.setPermissions p) | .apply (.permissions p) => p.Readable
  | .change (.putDocument _ _ document) => document.Readable
  | .apply (.datasets d) => d.Readable
  | _ => True

/-- It brings no empty dataset. -/
def Input.Tidy : Input → Prop
  | .apply (.datasets d) => d.Tidy
  | _ => True

/-! ### What the store holds -/

/-- The store holds what the replica holds, and all of it can be read. -/
structure Kept (r : Replica) : Prop extends r.Sound where
  readable : r.datasets.Readable
  taskRows : r.store.tasks = .of TaskSpec.codec r.tasks
  groupRows : r.store.groups = .of GroupSpec.codec r.groups
  permissionRow : r.store.getPermissions = .ok r.permissions
  documentRows : ∃ table, r.store.documents = .of .json table ∧ r.datasets.Laid table

namespace Kept

variable {r : Replica}

/-- Tasks are replaced, in the replica and in its store. -/
theorem withTasks (h : r.Kept) {tasks : SortedMap String TaskSpec}
    (keyed : tasks.KeyedBy (·.name)) :
    Kept { r with store := { r.store with tasks := .of TaskSpec.codec tasks }, tasks } :=
  { h with tasks := keyed, taskRows := rfl }

theorem withGroups (h : r.Kept) {groups : SortedMap String GroupSpec}
    (keyed : groups.KeyedBy (·.name)) :
    Kept { r with store := { r.store with groups := .of GroupSpec.codec groups }, groups } :=
  { h with groups := keyed, groupRows := rfl }

theorem withPermissions (h : r.Kept) {p : Permissions} (readable : p.Readable) :
    Kept { r with store := r.store.putPermissions p, permissions := p } where
  toSound := ⟨h.tasks, h.groups, h.datasets⟩
  readable := h.readable
  taskRows := h.taskRows
  groupRows := h.groupRows
  permissionRow := by
    have read : Permissions.codec.read (Permissions.codec.encode p).bytes = .ok p :=
      (Permissions.codec_reads readable.canonical).read_bytes readable.depth
    simp [Store.getPermissions, Store.putPermissions, Rows.put, Rows.get?, Rows.readRow, read]
  documentRows := h.documentRows

theorem withDatasets (h : r.Kept) {d : Datasets} {table : SortedMap String Json}
    (storable : d.Storable) (readable : d.Readable) (laid : d.Laid table) :
    Kept { r with store := { r.store with documents := .of .json table }, datasets := d } :=
  { h with datasets := storable, readable, documentRows := ⟨table, rfl, laid⟩ }

theorem publish (h : r.Kept) (m : ClusterMessage) : (r.publish m).Kept := { h with }

/-! ### What happens to a replica -/

theorem addTask (h : r.Kept) (t : TaskSpec) : (r.addTask t).2.Kept := by
  have rows : r.store.putTask t =
      { r.store with tasks := .of TaskSpec.codec (r.tasks.insert t.name t) } := by
    rw [Store.putTask, h.taskRows, Rows.put_of]
  unfold Replica.addTask
  rw [rows]
  split
  · exact (h.withTasks (h.tasks.insert t)).publish _
  · exact h

theorem removeTask (h : r.Kept) (name : String) : (r.removeTask name).2.Kept := by
  have rows : (r.store.deleteTask name).2 =
      { r.store with tasks := .of TaskSpec.codec (r.tasks.erase name) } := by
    rw [Store.deleteTask, h.taskRows, Rows.erase_of]
  unfold Replica.removeTask
  rw [rows]
  split
  · exact (h.withTasks (h.tasks.erase name)).publish _
  · exact h

theorem addGroup (h : r.Kept) (g : GroupSpec) : (r.addGroup g).2.Kept := by
  have rows : r.store.putGroup g =
      { r.store with groups := .of GroupSpec.codec (r.groups.insert g.name g) } := by
    rw [Store.putGroup, h.groupRows, Rows.put_of]
  unfold Replica.addGroup
  rw [rows]
  split
  · exact (h.withGroups (h.groups.insert g)).publish _
  · exact h

theorem removeGroup (h : r.Kept) (name : String) : (r.removeGroup name).2.Kept := by
  have rows : (r.store.deleteGroup name).2 =
      { r.store with groups := .of GroupSpec.codec (r.groups.erase name) } := by
    rw [Store.deleteGroup, h.groupRows, Rows.erase_of]
  unfold Replica.removeGroup
  rw [rows]
  split
  · exact (h.withGroups (h.groups.erase name)).publish _
  · exact h

theorem putDocument (h : r.Kept) (dataset key : String) {document : Json}
    (readable : document.Readable) : (r.putDocument dataset key document).2.Kept := by
  obtain ⟨table, documents, laid⟩ := h.documentRows
  cases stored : Store.documentKey dataset key with
  | error e =>
    have rows : r.store.putDocument dataset key document = .error e := by
      rw [Store.putDocument, stored]
      rfl
    rw [Replica.putDocument, rows]
    exact h
  | ok k =>
    have rows : r.store.putDocument dataset key document =
        .ok { r.store with documents := .of .json (table.insert k document) } := by
      rw [Store.putDocument, stored, documents, ← Rows.put_of]
      rfl
    rw [Replica.putDocument, rows]
    refine (h.withDatasets (h.datasets.insertDocument stored document) ?_
      (laid.insertDocument stored document)).publish _
    intro dataset' key' j found
    rw [Datasets.document?_insertDocument] at found
    split at found
    · cases found
      exact readable
    · exact h.readable dataset' key' j found

theorem removeDocument (h : r.Kept) (dataset key : String) :
    (r.removeDocument dataset key).2.Kept := by
  obtain ⟨table, documents, laid⟩ := h.documentRows
  unfold Replica.removeDocument
  split
  · exact h
  · cases stored : Store.documentKey dataset key with
    | error e =>
      have rows : r.store.deleteDocument dataset key = .error e := by
        rw [Store.deleteDocument, stored]
        rfl
      rw [rows]
      exact h
    | ok k =>
      have rows : r.store.deleteDocument dataset key = .ok (r.store.documents.contains k,
          { r.store with documents := .of .json (table.erase k) }) := by
        rw [Store.deleteDocument, stored, ← Rows.erase_of, ← documents]
        rfl
      rw [rows]
      refine (h.withDatasets (h.datasets.eraseDocument dataset key) ?_
        (laid.eraseDocument stored)).publish _
      exact fun dataset' key' j found =>
        h.readable dataset' key' j (Datasets.document?_of_eraseDocument found)

theorem applyTasks (h : r.Kept) (l : List TaskSpec) : (r.apply (.tasks l)).2.Kept := by
  have rows : r.store.replaceTasks l =
      { r.store with tasks := .of TaskSpec.codec (byName l) } := by
    rw [Store.replaceTasks, Rows.ofValues_eq, byName]
  rw [Replica.apply, rows]
  exact h.withTasks (SortedMap.keyedBy_ofList _ l)

theorem applyGroups (h : r.Kept) (l : List GroupSpec) : (r.apply (.groups l)).2.Kept := by
  have rows : r.store.replaceGroups l =
      { r.store with groups := .of GroupSpec.codec (groupsByName l) } := by
    rw [Store.replaceGroups, Rows.ofValues_eq, groupsByName]
  rw [Replica.apply, rows]
  exact h.withGroups (SortedMap.keyedBy_ofList _ l)

theorem applyDatasets (h : r.Kept) {d : Datasets} (readable : d.Readable) :
    (r.apply (.datasets d)).2.Kept := by
  cases stored : Store.documentRows d with
  | error e =>
    have rows : r.store.replaceDatasets d = .error e := by
      rw [Store.replaceDatasets, stored]
      rfl
    rw [Replica.apply, rows]
    exact h
  | ok l =>
    have rows : r.store.replaceDatasets d =
        .ok { r.store with documents := .of .json (.ofList l) } := by
      rw [Store.replaceDatasets, stored, ← Rows.ofValues_eq]
      rfl
    rw [Replica.apply, rows]
    exact h.withDatasets (Datasets.exists_documentRows_iff.1 ⟨l, stored⟩) readable
      (Datasets.laid_documentRows stored)

/-- **What a store holds is read back**, without the empty datasets. -/
theorem open_eq (h : r.Kept) :
    Replica.open r.store = .ok { r with datasets := r.datasets.trim, outbox := [] } := by
  obtain ⟨table, documents, laid⟩ := h.documentRows
  have tasks : r.store.allTasks = .ok r.tasks.values := by
    rw [Store.allTasks, h.taskRows,
      Rows.all?_of fun _ t _ => t.codec_reads.read_bytes (TaskSpec.codec_nests t)]
    rfl
  have groups : r.store.allGroups = .ok r.groups.values := by
    rw [Store.allGroups, h.groupRows,
      Rows.all?_of fun _ g _ => g.codec_reads.read_bytes (GroupSpec.codec_nests g)]
    rfl
  have datasets : r.store.datasets = .ok r.datasets.trim := by
    rw [Store.datasets, documents, Rows.all?_of, ← laid.gather_eq h.datasets]
    · rfl
    · intro joined j found
      rw [laid, h.datasets.row?_eq_some] at found
      obtain ⟨dataset, key, held, -⟩ := found
      have readable := h.readable dataset key j held
      exact (Json.Codec.json_reads readable.canonical).read_bytes readable.depth
  unfold Replica.open
  rw [tasks, groups, h.permissionRow, datasets]
  show Except.ok { r with
    tasks := byName r.tasks.values
    groups := groupsByName r.groups.values
    datasets := r.datasets.trim
    outbox := [] } = _
  rw [byName, h.tasks.ofList_values, groupsByName, h.groups.ofList_values]

theorem take (h : r.Kept) {i : Input} (readable : i.Readable) : (r.take i).Kept := by
  cases i with
  | change c =>
    cases c with
    | addTask t => exact h.addTask t
    | removeTask name => exact h.removeTask name
    | addGroup g => exact h.addGroup g
    | removeGroup name => exact h.removeGroup name
    | setPermissions p => exact (h.withPermissions readable).publish _
    | putDocument dataset key document => exact h.putDocument dataset key readable
    | removeDocument dataset key => exact h.removeDocument dataset key
  | apply m =>
    cases m with
    | status s => exact h
    | workers l => exact h
    | tasks l => exact h.applyTasks l
    | groups l => exact h.applyGroups l
    | permissions p => exact h.withPermissions readable
    | datasets d => exact h.applyDatasets readable
  | reopen =>
    obtain ⟨table, documents, laid⟩ := h.documentRows
    rw [Replica.take, h.open_eq]
    exact { h with
      datasets := fun dataset key j found =>
        h.datasets dataset key j (Datasets.document?_trim .. ▸ found)
      readable := h.readable.trim
      documentRows := ⟨table, documents, laid.trim⟩ }

theorem live (h : r.Kept) {inputs : List Input} (readable : ∀ i ∈ inputs, i.Readable) :
    (r.live inputs).Kept := by
  induction inputs generalizing r with
  | nil => exact h
  | cons i inputs ih =>
    obtain ⟨first, rest⟩ := List.forall_mem_cons.1 readable
    exact ih (h.take first) rest

end Kept

theorem kept_fresh : fresh.Kept where
  tasks _ _ found := nomatch found
  groups _ _ found := nomatch found
  datasets := Datasets.storable_empty
  readable _ _ _ found := nomatch found
  taskRows := rfl
  groupRows := rfl
  permissionRow := rfl
  documentRows := ⟨.empty, rfl, Datasets.laid_empty⟩

/-! ### Empty datasets -/

/-- Only a change of datasets changes them. -/
theorem change_datasets {r : Replica} (h : r.Sound) {c : Change}
    (other : c.collection ≠ .datasets) : (r.change c).datasets = r.datasets := by
  rcases announced_change h c with same | ⟨t, differs, told⟩
  · rw [same]
  · rw [told]
    exact ClusterMessage.datasets.inj (differs.others .datasets other.symm)

theorem tidy_change {r : Replica} (h : r.Sound) (tidy : r.datasets.Tidy) (c : Change) :
    (r.change c).datasets.Tidy := by
  cases c with
  | putDocument dataset key document =>
    show (r.putDocument dataset key document).2.datasets.Tidy
    unfold putDocument
    split
    · exact tidy
    · exact tidy.insertDocument dataset key document
  | removeDocument dataset key =>
    show (r.removeDocument dataset key).2.datasets.Tidy
    unfold removeDocument
    split
    · exact tidy
    · split
      · exact tidy
      · exact tidy.eraseDocument dataset key
  | _ =>
    rw [change_datasets h (by rintro ⟨⟩)]
    exact tidy

/-- Only a message brings an empty dataset. -/
theorem Kept.tidy_take {r : Replica} (h : r.Kept) (before : r.datasets.Tidy) {i : Input}
    (tidy : i.Tidy) : (r.take i).datasets.Tidy := by
  cases i with
  | change c => exact tidy_change h.toSound before c
  | apply m =>
    cases m with
    | datasets d =>
      show (r.apply (.datasets d)).2.datasets.Tidy
      unfold Replica.apply
      dsimp only
      split
      · exact before
      · exact tidy
    | _ => exact before
  | reopen =>
    rw [Replica.take, h.open_eq]
    exact Datasets.tidy_trim _

theorem Kept.tidy_live {r : Replica} (h : r.Kept) (before : r.datasets.Tidy) {inputs : List Input}
    (readable : ∀ i ∈ inputs, i.Readable) (tidy : ∀ i ∈ inputs, i.Tidy) :
    (r.live inputs).datasets.Tidy := by
  induction inputs generalizing r with
  | nil => exact before
  | cons i inputs ih =>
    rw [List.forall_mem_cons] at readable tidy
    exact ih (h.take readable.1) (h.tidy_take before tidy.1) readable.2 tidy.2

/-- **A replica that is opened again holds what it held**, whatever has happened to it, without the
datasets in which there is no document. So it holds the same exactly if there is no such dataset,
and there is none as long as no message brings one. -/
theorem open_live {r : Replica} (opened : Replica.open {} = .ok r) (inputs : List Input)
    (readable : ∀ i ∈ inputs, i.Readable) :
    ∃ t, Replica.open (r.live inputs).store = .ok t ∧
      t.tasks = (r.live inputs).tasks ∧ t.groups = (r.live inputs).groups ∧
      t.permissions = (r.live inputs).permissions ∧
      t.datasets = (r.live inputs).datasets.trim ∧
      ((∀ k, t.Agrees (r.live inputs) k) ↔ (r.live inputs).datasets.Tidy) ∧
      ((∀ i ∈ inputs, i.Tidy) → (r.live inputs).datasets.Tidy) := by
  obtain rfl : fresh = r := Except.ok.inj (open_empty.symm.trans opened)
  have kept := kept_fresh.live readable
  refine ⟨_, kept.open_eq, rfl, rfl, rfl, rfl, ?_,
    kept_fresh.tidy_live Datasets.tidy_empty readable⟩
  constructor
  · intro agrees
    rw [← show _ = _ from agrees .datasets]
    exact Datasets.tidy_trim _
  · rintro tidy (_ | _ | _ | _)
    · rfl
    · rfl
    · rfl
    · exact tidy.trim_eq

/-! ### A small run -/

/-- A document of one dataset. -/
def arena : Input := .change (.putDocument "maps" "arena" (.string "open"))

/-- A dataset without documents that another node sends. -/
def hollow : Input := .apply (.datasets (.ofList [("maps", .empty)]))

/-- A document is there again, also when the replica has been opened twice. -/
theorem open_live_arena : Replica.open {} = .ok fresh ∧ (∀ i ∈ [arena, .reopen], i.Readable) ∧
    ∃ t, Replica.open (fresh.live [arena, .reopen]).store = .ok t ∧
      ∀ k, t.Agrees (fresh.live [arena, .reopen]) k := by
  have readable : ∀ i ∈ [arena, .reopen], i.Readable := by
    rw [List.forall_mem_cons, List.forall_mem_singleton]
    exact ⟨⟨trivial, Nat.zero_le _⟩, trivial⟩
  have tidy : ∀ i ∈ [arena, .reopen], i.Tidy := by
    rw [List.forall_mem_cons, List.forall_mem_singleton]
    exact ⟨trivial, trivial⟩
  obtain ⟨t, again, -, -, -, -, iff, never⟩ := open_live open_empty [arena, .reopen] readable
  exact ⟨open_empty, readable, t, again, iff.2 (never tidy)⟩

/-- **An empty dataset is gone** once the replica is opened again. -/
theorem hollow_gone : Replica.open {} = .ok fresh ∧ (∀ i ∈ [hollow], i.Readable) ∧
    (fresh.live [hollow]).datasets.keys = ["maps"] ∧
    ∃ t, Replica.open (fresh.live [hollow]).store = .ok t ∧ t.datasets = .empty ∧
      ¬ t.Agrees (fresh.live [hollow]) .datasets := by
  refine ⟨rfl, ?_, by decide, _, rfl, rfl, fun agrees => ?_⟩
  · rw [List.forall_mem_singleton]
    intro dataset key j found
    obtain ⟨documents, held, found⟩ := Option.bind_eq_some_iff.1 found
    have mem : (dataset, documents) ∈ [("maps", .empty)] := SortedMap.mem_entries.2 held
    cases List.mem_singleton.1 mem
    cases found
  · have keys := congrArg SortedMap.keys agrees
    exact absurd keys (by decide)

end Replica

end WorkerCluster
