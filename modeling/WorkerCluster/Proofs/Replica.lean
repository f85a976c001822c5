import WorkerCluster.Proofs.Json.Codec
import WorkerCluster.Replica

/-!
# What replicas hold

* `Collection` names the four parts of a replica, `Replica.message` is the message of one.
* `Replica.Sound` says how the parts of a replica fit together: everything that changes a replica
  keeps that.
* `Replica.announced_change` says what a change does: it tells everybody about one part, or does
  nothing.
* `Replica.apply_cases` says what comes of a message that has arrived.
* `keyed_tasks_open`, `keyed_tasks_change` and `keyed_tasks_apply` say that tasks stand under their
  names, be the replica sound or not.
-/

namespace WorkerCluster

/-! ### Documents that can be stored -/

namespace Datasets

/-- Every document can be stored under its key. -/
def Storable (d : Datasets) : Prop :=
  ∀ (dataset key : String) (document : Json), d.document? dataset key = some document →
    ∃ k, Store.documentKey dataset key = .ok k

variable {d : Datasets} {dataset key : String}

theorem storable_empty : Storable .empty := fun _ _ _ found => nomatch found

theorem document?_insertDocument (d : Datasets) (dataset key : String) (document : Json)
    (dataset' key' : String) :
    (d.insertDocument dataset key document).document? dataset' key' =
      if dataset' = dataset ∧ key' = key then some document else d.document? dataset' key' := by
  unfold insertDocument document?
  rw [SortedMap.find?_insert]
  by_cases hd : dataset' = dataset
  · subst hd
    by_cases hk : key' = key
    · simp [hk]
    · cases d.find? dataset' <;> simp [hk]
  · simp [hd]

theorem Storable.insertDocument (h : d.Storable) {k : String}
    (stored : Store.documentKey dataset key = .ok k) (document : Json) :
    (d.insertDocument dataset key document).Storable := by
  intro dataset' key' document' found
  rw [document?_insertDocument] at found
  split at found
  · rename_i e
    obtain ⟨rfl, rfl⟩ := e
    exact ⟨k, stored⟩
  · exact h _ _ _ found

/-- What is left has been there. -/
theorem document?_of_eraseDocument {dataset' key' : String} {document : Json}
    (found : (d.eraseDocument dataset key).document? dataset' key' = some document) :
    d.document? dataset' key' = some document := by
  unfold eraseDocument at found
  split at found
  · exact found
  · rename_i documents held
    unfold document? at found ⊢
    dsimp only at found
    split at found
    · rw [SortedMap.find?_erase] at found
      split at found
      · cases found
      · exact found
    · rw [SortedMap.find?_insert] at found
      split at found
      · rename_i e
        subst e
        rw [Option.bind_some, SortedMap.find?_erase] at found
        rw [held, Option.bind_some]
        split at found
        · cases found
        · exact found
      · exact found

theorem Storable.eraseDocument (h : d.Storable) (dataset key : String) :
    (d.eraseDocument dataset key).Storable := fun _ _ _ found =>
  h _ _ _ (document?_of_eraseDocument found)

/-- Exactly datasets of such documents can be stored. -/
theorem exists_documentRows_iff : (∃ rows, Store.documentRows d = .ok rows) ↔ d.Storable := by
  rw [Store.documentRows, Json.exists_mapM_ok_iff]
  constructor
  · intro h dataset key document found
    obtain ⟨documents, hd, hk⟩ := Option.bind_eq_some_iff.1 found
    obtain ⟨row, hrow⟩ := h (dataset, key, document) (List.mem_flatMap.2
      ⟨(dataset, documents), SortedMap.mem_entries.2 hd,
        List.mem_map.2 ⟨(key, document), SortedMap.mem_entries.2 hk, rfl⟩⟩)
    dsimp only at hrow
    cases stored : Store.documentKey dataset key with
    | error e =>
      rw [stored] at hrow
      cases hrow
    | ok k => exact ⟨k, rfl⟩
  · intro h e he
    obtain ⟨⟨dataset, documents⟩, hd, he⟩ := List.mem_flatMap.1 he
    obtain ⟨⟨key, document⟩, hk, rfl⟩ := List.mem_map.1 he
    have found : d.document? dataset key = some document := by
      rw [document?, SortedMap.mem_entries.1 hd]
      exact SortedMap.mem_entries.1 hk
    obtain ⟨k, hk⟩ := h dataset key document found
    refine ⟨(k, document), ?_⟩
    show (·, document) <$> Store.documentKey dataset key = _
    rw [hk]
    rfl

end Datasets

/-! ### Parts -/

/-- The parts of a replica. -/
inductive Collection
  | tasks
  | groups
  | permissions
  | datasets
  deriving DecidableEq

/-- The part that a message replaces. -/
def ClusterMessage.collection? : ClusterMessage → Option Collection
  | .tasks _ => some .tasks
  | .groups _ => some .groups
  | .permissions _ => some .permissions
  | .datasets _ => some .datasets
  | .status _ | .workers _ => none

namespace Replica

/-- The message of a part. -/
def message (r : Replica) : Collection → ClusterMessage
  | .tasks => r.taskMessage
  | .groups => r.groupMessage
  | .permissions => .permissions r.permissions
  | .datasets => .datasets r.datasets

/-- Two replicas hold the same. -/
def Agrees (r t : Replica) : Collection → Prop
  | .tasks => r.tasks = t.tasks
  | .groups => r.groups = t.groups
  | .permissions => r.permissions = t.permissions
  | .datasets => r.datasets = t.datasets

/-- How the parts of a replica fit together. -/
structure Sound (r : Replica) : Prop where
  /-- Every task stands under its name. -/
  tasks : r.tasks.KeyedBy (·.name)
  /-- Every group stands under its name. -/
  groups : r.groups.KeyedBy (·.name)
  /-- Every document can be stored. -/
  datasets : r.datasets.Storable

variable {r t : Replica}

@[simp] theorem collection?_message (r : Replica) (k : Collection) :
    (r.message k).collection? = some k := by cases k <;> rfl

/-- The message of a part says all about it. -/
theorem message_eq_iff (hr : r.Sound) (ht : t.Sound) (k : Collection) :
    r.message k = t.message k ↔ r.Agrees t k := by
  cases k with
  | tasks =>
    constructor
    · intro h
      have values := ClusterMessage.tasks.inj h
      show r.tasks = t.tasks
      rw [← hr.tasks.ofList_values, values, ht.tasks.ofList_values]
    · intro h
      exact congrArg (fun m : SortedMap String TaskSpec => ClusterMessage.tasks m.values) h
  | groups =>
    constructor
    · intro h
      have values := ClusterMessage.groups.inj h
      show r.groups = t.groups
      rw [← hr.groups.ofList_values, values, ht.groups.ofList_values]
    · intro h
      exact congrArg (fun m : SortedMap String GroupSpec => ClusterMessage.groups m.values) h
  | permissions => exact ClusterMessage.permissions.injEq .. ▸ Iff.rfl
  | datasets => exact ClusterMessage.datasets.injEq .. ▸ Iff.rfl

/-! ### Changes -/

/-- A change that a client may make. -/
inductive Change
  | addTask (task : TaskSpec)
  | removeTask (name : String)
  | addGroup (group : GroupSpec)
  | removeGroup (name : String)
  | setPermissions (permissions : Permissions)
  | putDocument (dataset key : String) (document : Json)
  | removeDocument (dataset key : String)

/-- The part that a change is about. -/
def Change.collection : Change → Collection
  | .addTask _ | .removeTask _ => .tasks
  | .addGroup _ | .removeGroup _ => .groups
  | .setPermissions _ => .permissions
  | .putDocument .. | .removeDocument .. => .datasets

/-- Make a change. -/
def change (r : Replica) : Change → Replica
  | .addTask t => (r.addTask t).2
  | .removeTask name => (r.removeTask name).2
  | .addGroup g => (r.addGroup g).2
  | .removeGroup name => (r.removeGroup name).2
  | .setPermissions p => r.setPermissions p
  | .putDocument dataset key document => (r.putDocument dataset key document).2
  | .removeDocument dataset key => (r.removeDocument dataset key).2

/-- A replica that differs from another one in one part at most. -/
structure Differs (k : Collection) (r t : Replica) : Prop where
  sound : t.Sound
  outbox : t.outbox = r.outbox
  others : ∀ l, l ≠ k → t.message l = r.message l

theorem differs_tasks {store : Store} {tasks : SortedMap String TaskSpec} (h : r.Sound)
    (keyed : tasks.KeyedBy (·.name)) : Differs .tasks r { r with store, tasks } where
  sound := ⟨keyed, h.groups, h.datasets⟩
  outbox := rfl
  others l hl := by cases l <;> first | rfl | exact absurd rfl hl

theorem differs_groups {store : Store} {groups : SortedMap String GroupSpec} (h : r.Sound)
    (keyed : groups.KeyedBy (·.name)) : Differs .groups r { r with store, groups } where
  sound := ⟨h.tasks, keyed, h.datasets⟩
  outbox := rfl
  others l hl := by cases l <;> first | rfl | exact absurd rfl hl

theorem differs_permissions (store : Store) (permissions : Permissions) (h : r.Sound) :
    Differs .permissions r { r with store, permissions } where
  sound := ⟨h.tasks, h.groups, h.datasets⟩
  outbox := rfl
  others l hl := by cases l <;> first | rfl | exact absurd rfl hl

theorem differs_datasets {store : Store} {datasets : Datasets} (h : r.Sound)
    (storable : datasets.Storable) : Differs .datasets r { r with store, datasets } where
  sound := ⟨h.tasks, h.groups, storable⟩
  outbox := rfl
  others l hl := by cases l <;> first | rfl | exact absurd rfl hl

/-- Nothing has happened, or one part is another one and everybody has been told. -/
def Announced (k : Collection) (r t : Replica) : Prop :=
  t = r ∨ ∃ u, Differs k r u ∧ t = u.publish (u.message k)

theorem announced_addTask (h : r.Sound) (t : TaskSpec) : Announced .tasks r (r.addTask t).2 := by
  unfold addTask
  split
  · exact .inr ⟨_, differs_tasks h (h.tasks.insert t), rfl⟩
  · exact .inl rfl

theorem announced_removeTask (h : r.Sound) (name : String) :
    Announced .tasks r (r.removeTask name).2 := by
  unfold removeTask
  split
  · exact .inr ⟨_, differs_tasks h (h.tasks.erase name), rfl⟩
  · exact .inl rfl

theorem announced_addGroup (h : r.Sound) (g : GroupSpec) :
    Announced .groups r (r.addGroup g).2 := by
  unfold addGroup
  split
  · exact .inr ⟨_, differs_groups h (h.groups.insert g), rfl⟩
  · exact .inl rfl

theorem announced_removeGroup (h : r.Sound) (name : String) :
    Announced .groups r (r.removeGroup name).2 := by
  unfold removeGroup
  split
  · exact .inr ⟨_, differs_groups h (h.groups.erase name), rfl⟩
  · exact .inl rfl

theorem announced_putDocument (h : r.Sound) (dataset key : String) (document : Json) :
    Announced .datasets r (r.putDocument dataset key document).2 := by
  unfold putDocument
  split
  · exact .inl rfl
  · rename_i store stored
    refine .inr ⟨_, differs_datasets h ?_, rfl⟩
    -- the store has taken the document, so it has a key
    cases hk : Store.documentKey dataset key with
    | error e =>
      rw [Store.putDocument, hk] at stored
      cases stored
    | ok k => exact h.datasets.insertDocument hk document

theorem announced_removeDocument (h : r.Sound) (dataset key : String) :
    Announced .datasets r (r.removeDocument dataset key).2 := by
  unfold removeDocument
  split
  · exact .inl rfl
  · split
    · exact .inl rfl
    · exact .inr ⟨_, differs_datasets h (h.datasets.eraseDocument dataset key), rfl⟩

/-- **A change does nothing, or it changes one part and tells everybody about it.** -/
theorem announced_change (h : r.Sound) (c : Change) : Announced c.collection r (r.change c) := by
  cases c with
  | addTask t => exact announced_addTask h t
  | removeTask name => exact announced_removeTask h name
  | addGroup g => exact announced_addGroup h g
  | removeGroup name => exact announced_removeGroup h name
  | setPermissions p => exact .inr ⟨_, differs_permissions _ p h, rfl⟩
  | putDocument dataset key document => exact announced_putDocument h dataset key document
  | removeDocument dataset key => exact announced_removeDocument h dataset key

end Replica

/-! ### Messages -/

/-- A message that some replica sends of one of its parts, or of no part. -/
def ClusterMessage.Whole (m : ClusterMessage) : Prop :=
  ∀ k, m.collection? = some k → ∃ r : Replica, r.Sound ∧ r.message k = m

namespace Replica

variable {r : Replica}

/-- **A message that has arrived replaces the part that it is about**, and nothing else. -/
theorem apply_cases (h : r.Sound) {m : ClusterMessage} (whole : m.Whole) :
    (m.collection? = none ∧ (r.apply m).2 = r) ∨
      ∃ k, m.collection? = some k ∧ Differs k r (r.apply m).2 ∧ (r.apply m).2.message k = m := by
  cases m with
  | status s => exact .inl ⟨rfl, rfl⟩
  | workers l => exact .inl ⟨rfl, rfl⟩
  | tasks l =>
    obtain ⟨t, ht, hm⟩ := whole .tasks rfl
    refine .inr ⟨.tasks, rfl, differs_tasks h (SortedMap.keyedBy_ofList _ l), ?_⟩
    show ClusterMessage.tasks (byName l).values = .tasks l
    rw [← ClusterMessage.tasks.inj hm, byName, ht.tasks.ofList_values]
  | groups l =>
    obtain ⟨t, ht, hm⟩ := whole .groups rfl
    refine .inr ⟨.groups, rfl, differs_groups h (SortedMap.keyedBy_ofList _ l), ?_⟩
    show ClusterMessage.groups (groupsByName l).values = .groups l
    rw [← ClusterMessage.groups.inj hm, groupsByName, ht.groups.ofList_values]
  | permissions p => exact .inr ⟨.permissions, rfl, differs_permissions _ p h, rfl⟩
  | datasets d =>
    obtain ⟨t, ht, hm⟩ := whole .datasets rfl
    have storable : d.Storable := ClusterMessage.datasets.inj hm ▸ ht.datasets
    obtain ⟨rows, hrows⟩ := Datasets.exists_documentRows_iff.2 storable
    have stored : (r.apply (.datasets d)).2 =
        { r with store := { r.store with documents := .ofValues .json rows }, datasets := d } := by
      rw [apply, Store.replaceDatasets, hrows]
      rfl
    rw [stored]
    exact .inr ⟨.datasets, rfl, differs_datasets h storable, rfl⟩

/-- Nothing is sent on. -/
theorem apply_outbox (r : Replica) (m : ClusterMessage) : (r.apply m).2.outbox = r.outbox := by
  cases m with
  | datasets d =>
    unfold apply
    dsimp only
    split <;> rfl
  | _ => rfl

/-! ### Tasks

A replica that has been loaded need not be sound, for documents can be stored that could not have
been put. Its tasks stand under their names. -/

theorem keyed_tasks_open {s : Store} (opened : Replica.open s = .ok r) :
    r.tasks.KeyedBy (·.name) := by
  obtain ⟨tasks, -, opened⟩ := Json.bind_eq_ok opened
  obtain ⟨groups, -, opened⟩ := Json.bind_eq_ok opened
  obtain ⟨permissions, -, opened⟩ := Json.bind_eq_ok opened
  obtain ⟨datasets, -, opened⟩ := Json.bind_eq_ok opened
  obtain rfl := Except.ok.inj opened
  exact SortedMap.keyedBy_ofList _ tasks

theorem keyed_tasks_change (h : r.tasks.KeyedBy (·.name)) (c : Change) :
    (r.change c).tasks.KeyedBy (·.name) := by
  cases c with
  | addTask t =>
    rw [change, addTask]
    split
    · exact h.insert t
    · exact h
  | removeTask name =>
    rw [change, removeTask]
    split
    · exact h.erase name
    · exact h
  | addGroup g =>
    rw [change, addGroup]
    split <;> exact h
  | removeGroup name =>
    rw [change, removeGroup]
    split <;> exact h
  | setPermissions p => exact h
  | putDocument dataset key document =>
    rw [change, putDocument]
    split <;> exact h
  | removeDocument dataset key =>
    rw [change, removeDocument]
    split
    · exact h
    · split <;> exact h

theorem keyed_tasks_apply (h : r.tasks.KeyedBy (·.name)) (m : ClusterMessage) :
    (r.apply m).2.tasks.KeyedBy (·.name) := by
  cases m with
  | tasks l => exact SortedMap.keyedBy_ofList _ l
  | datasets d =>
    unfold apply
    dsimp only
    split <;> exact h
  | groups | permissions | status | workers => exact h

/-! ### Every replica is sound -/

theorem Sound.change (h : r.Sound) (c : Change) : (r.change c).Sound := by
  rcases announced_change h c with hc | ⟨t, ht, hc⟩
  · rw [hc]
    exact h
  · rw [hc]
    exact ⟨ht.sound.tasks, ht.sound.groups, ht.sound.datasets⟩

/-- Whatever arrives, the replica stays sound. -/
theorem Sound.apply (h : r.Sound) (m : ClusterMessage) : (r.apply m).2.Sound := by
  cases m with
  | status s => exact h
  | workers l => exact h
  | tasks l => exact (differs_tasks h (SortedMap.keyedBy_ofList _ l)).sound
  | groups l => exact (differs_groups h (SortedMap.keyedBy_ofList _ l)).sound
  | permissions p => exact (differs_permissions _ p h).sound
  | datasets d =>
    unfold Replica.apply
    dsimp only
    split
    · exact h
    · rename_i store stored
      refine (differs_datasets h (Datasets.exists_documentRows_iff.1 ?_)).sound
      cases hrows : Store.documentRows d with
      | error e =>
        rw [Store.replaceDatasets, hrows] at stored
        cases stored
      | ok rows => exact ⟨rows, rfl⟩

/-- The replica of an empty store. -/
def fresh : Replica :=
  { store := {}, tasks := .empty, groups := .empty, permissions := {}, datasets := .empty }

theorem open_empty : Replica.open {} = .ok fresh := rfl

/-- The replicas to which changes and messages lead from that of an empty store. -/
inductive Reachable : Replica → Prop
  | start {r : Replica} (opened : Replica.open {} = .ok r) : Reachable r
  | change {r : Replica} (before : Reachable r) (c : Change) : Reachable (r.change c)
  | apply {r : Replica} (before : Reachable r) (m : ClusterMessage) : Reachable (r.apply m).2
  /-- What is to be sent is taken. -/
  | collect {r : Replica} (before : Reachable r) : Reachable { r with outbox := [] }

theorem Reachable.sound (h : Reachable r) : r.Sound := by
  induction h with
  | start opened =>
    cases opened
    exact ⟨fun _ _ found => (nomatch found), fun _ _ found => (nomatch found),
      Datasets.storable_empty⟩
  | change _ c ih => exact ih.change c
  | apply _ m ih => exact ih.apply m
  | collect _ ih => exact ⟨ih.tasks, ih.groups, ih.datasets⟩

end Replica

end WorkerCluster
