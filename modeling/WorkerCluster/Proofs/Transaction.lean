import WorkerCluster.Proofs.Replica

/-!
# Changes on a database that may fail

What a replica keeps stands in a database. An operation is one transaction at most, and the database
may fail it at any time, but only as a whole.

* `Database` carries out the writes of a transaction, or fails; `Database.Atomic` says that it does
  not leave some of them behind.
* `Replica.attempt` is an operation on a replica whose store is in a database: first the checks,
  then the transaction, then what is held, then what is told.
* `Replica.attempt_reliable` says that on a database that never fails these are the operations of a
  replica, `Replica.attempt_cases` that a failure is all that may come in between.
* `all_or_nothing` is the main statement: an operation that is not done leaves everything as it was.
-/

namespace WorkerCluster

/-! ### Transactions -/

/-- The tables of a store. -/
inductive Table
  | tasks
  | groups
  | permissions
  | documents

/-- Something that a transaction does to a table. -/
inductive Write
  /-- A row is written. -/
  | put (key : String) (text : List UInt8)
  /-- A row is removed, if it is there. -/
  | remove (key : String)

namespace Rows

/-- Carry out a write. -/
def write (rows : Rows) : Write → Rows
  | .put key text => rows.insert key text
  | .remove key => rows.erase key

/-- Carry out writes one after the other. -/
def writeAll (rows : Rows) (writes : List Write) : Rows := writes.foldl write rows

/-- The writes that leave these rows and no others: what is there is removed, then each row is
written. -/
def replacing (rows : Rows) {α : Type} (c : Json.Codec α) (values : List (String × α)) :
    List Write :=
  rows.keys.map .remove ++ values.map fun (key, a) => .put key (c.encode a).bytes

theorem find?_writeAll_remove (rows : Rows) (keys : List String) (key : String) :
    (rows.writeAll (keys.map .remove)).find? key =
      if key ∈ keys then none else rows.find? key := by
  induction keys generalizing rows with
  | nil => simp [writeAll]
  | cons k keys ih =>
    have first : rows.writeAll ((k :: keys).map .remove) =
        Rows.writeAll (rows.erase k) (keys.map .remove) := rfl
    rw [first, ih, SortedMap.find?_erase]
    by_cases same : key = k
    · simp [same]
    · simp [same]

/-- No row is left when all have been removed. -/
theorem writeAll_remove_keys (rows : Rows) : rows.writeAll (rows.keys.map .remove) = .empty := by
  apply SortedMap.ext
  intro key
  rw [find?_writeAll_remove, SortedMap.find?_empty]
  split
  · rfl
  · next unknown =>
    refine Option.eq_none_iff_forall_ne_some.2 fun text found => unknown ?_
    exact SortedMap.mem_keys.2 ⟨text, found⟩

/-- **To replace all rows is to remove those that are there and to write the others.** -/
theorem writeAll_replacing {α : Type} (rows : Rows) (c : Json.Codec α)
    (values : List (String × α)) : rows.writeAll (rows.replacing c values) = ofValues c values := by
  have written : writeAll .empty (values.map fun (key, a) => .put key (c.encode a).bytes) =
      ofValues c values := by
    unfold writeAll ofValues SortedMap.ofList
    rw [List.foldl_map, List.foldl_map]
    rfl
  unfold replacing writeAll
  rw [List.foldl_append]
  exact (congrArg (List.foldl write · _) rows.writeAll_remove_keys).trans written

end Rows

namespace Store

/-- The rows of a table. -/
def rows (s : Store) : Table → Rows
  | .tasks => s.tasks
  | .groups => s.groups
  | .permissions => s.permissions
  | .documents => s.documents

/-- The store when all writes to a table have been carried out. -/
def written (s : Store) (writes : List Write) : Table → Store
  | .tasks => { s with tasks := s.tasks.writeAll writes }
  | .groups => { s with groups := s.groups.writeAll writes }
  | .permissions => { s with permissions := s.permissions.writeAll writes }
  | .documents => { s with documents := s.documents.writeAll writes }

end Store

/-- Carries out a transaction on a table of a store, or fails. The result says which, and what is
stored then. -/
abbrev Database (ε : Type) := Store → Table → List Write → Except ε Unit × Store

/-- A transaction that fails leaves nothing behind. -/
def Database.Atomic {ε : Type} (db : Database ε) : Prop := ∀ store table writes,
  db store table writes = (.ok (), store.written writes table) ∨
    ∃ e, db store table writes = (.error e, store)

/-- A database that never fails. -/
def Database.reliable {ε : Type} : Database ε := fun store table writes =>
  (.ok (), store.written writes table)

/-- Why an operation fails. -/
inductive Failure (ε : Type)
  /-- The store refuses what it is asked for. -/
  | refused (e : StoreError)
  /-- The database has failed. -/
  | failed (e : ε)

namespace Replica

variable {ε : Type} {db : Database ε} {r : Replica}

/-! ### Operations -/

/-- An operation on a replica. -/
inductive Operation
  /-- A change of this node. -/
  | change (c : Change)
  /-- A message that has arrived. -/
  | apply (m : ClusterMessage)

/-- Do an operation. The result of a change that yields nothing else is that it is done. -/
def perform (r : Replica) : Operation → Except (Failure ε) Bool × Replica
  | .change (.addTask t) => (r.addTask t).map .ok id
  | .change (.removeTask name) => (r.removeTask name).map .ok id
  | .change (.addGroup g) => (r.addGroup g).map .ok id
  | .change (.removeGroup name) => (r.removeGroup name).map .ok id
  | .change (.setPermissions p) => (.ok true, r.setPermissions p)
  | .change (.putDocument dataset key document) =>
    (r.putDocument dataset key document).map (fun e => (e.map fun _ => true).mapError .refused) id
  | .change (.removeDocument dataset key) =>
    (r.removeDocument dataset key).map (·.mapError .refused) id
  | .apply m => (r.apply m).map (·.mapError .refused) id

/-- Carry out a transaction. Only if it has not failed, go on. -/
def transact (db : Database ε) (r : Replica) (table : Table) (writes : List Write)
    (next : Replica → Replica) : Except (Failure ε) Bool × Replica :=
  match db r.store table writes with
  | (.error e, store) => (.error (.failed e), { r with store })
  | (.ok (), store) => (.ok true, next { r with store })

/-- Make a change. Everybody is told last. -/
def attemptChange (db : Database ε) (r : Replica) : Change → Except (Failure ε) Bool × Replica
  | .addTask t =>
    if isValidName t.name then
      r.transact db .tasks [.put t.name (TaskSpec.codec.encode t).bytes] fun r =>
        let r := { r with tasks := r.tasks.insert t.name t }
        r.publish r.taskMessage
    else (.ok false, r)
  | .removeTask name =>
    if r.tasks.contains name then
      r.transact db .tasks [.remove name] fun r =>
        let r := { r with tasks := r.tasks.erase name }
        r.publish r.taskMessage
    else (.ok false, r)
  | .addGroup g =>
    if isValidName g.name then
      r.transact db .groups [.put g.name (GroupSpec.codec.encode g).bytes] fun r =>
        let r := { r with groups := r.groups.insert g.name g }
        r.publish r.groupMessage
    else (.ok false, r)
  | .removeGroup name =>
    if r.groups.contains name then
      r.transact db .groups [.remove name] fun r =>
        let r := { r with groups := r.groups.erase name }
        r.publish r.groupMessage
    else (.ok false, r)
  | .setPermissions p =>
    r.transact db .permissions [.put Store.permissionsKey (Permissions.codec.encode p).bytes]
      fun r => { r with permissions := p }.publish (.permissions p)
  | .putDocument dataset key document =>
    match Store.documentKey dataset key with
    | .error e => (.error (.refused e), r)
    | .ok k =>
      r.transact db .documents [.put k document.bytes] fun r =>
        let datasets := r.datasets.insertDocument dataset key document
        { r with datasets }.publish (.datasets datasets)
  | .removeDocument dataset key =>
    if (r.document? dataset key).isNone then (.ok false, r)
    else
      match Store.documentKey dataset key with
      | .error e => (.error (.refused e), r)
      | .ok k =>
        r.transact db .documents [.remove k] fun r =>
          let datasets := r.datasets.eraseDocument dataset key
          { r with datasets }.publish (.datasets datasets)

/-- Replace a collection by one that has arrived. All keys of documents are checked before anything
is written. -/
def attemptApply (db : Database ε) (r : Replica) :
    ClusterMessage → Except (Failure ε) Bool × Replica
  | .tasks l =>
    r.transact db .tasks (r.store.tasks.replacing TaskSpec.codec (l.map fun t => (t.name, t)))
      fun r => { r with tasks := byName l }
  | .groups l =>
    r.transact db .groups (r.store.groups.replacing GroupSpec.codec (l.map fun g => (g.name, g)))
      fun r => { r with groups := groupsByName l }
  | .permissions p =>
    r.transact db .permissions [.put Store.permissionsKey (Permissions.codec.encode p).bytes]
      fun r => { r with permissions := p }
  | .datasets d =>
    match Store.documentRows d with
    | .error e => (.error (.refused e), r)
    | .ok rows =>
      r.transact db .documents (r.store.documents.replacing .json rows)
        fun r => { r with datasets := d }
  | .status _ | .workers _ => (.ok false, r)

/-- Do an operation on a replica whose store is in a database. -/
def attempt (db : Database ε) (r : Replica) : Operation → Except (Failure ε) Bool × Replica
  | .change c => r.attemptChange db c
  | .apply m => r.attemptApply db m

/-! ### On a database that never fails -/

theorem attemptChange_reliable (r : Replica) (c : Change) :
    r.attemptChange (.reliable : Database ε) c = r.perform (.change c) := by
  cases c with
  | addTask t =>
    unfold attemptChange perform addTask
    dsimp only
    split <;> rfl
  | removeTask name =>
    unfold attemptChange perform removeTask
    dsimp only
    split <;> rfl
  | addGroup g =>
    unfold attemptChange perform addGroup
    dsimp only
    split <;> rfl
  | removeGroup name =>
    unfold attemptChange perform removeGroup
    dsimp only
    split <;> rfl
  | setPermissions p => rfl
  | putDocument dataset key document =>
    unfold attemptChange perform putDocument Store.putDocument
    dsimp only
    cases Store.documentKey dataset key <;> rfl
  | removeDocument dataset key =>
    unfold attemptChange perform removeDocument Store.deleteDocument
    dsimp only
    split
    · rfl
    · cases Store.documentKey dataset key <;> rfl

theorem attemptApply_reliable (r : Replica) (m : ClusterMessage) :
    r.attemptApply (.reliable : Database ε) m = r.perform (.apply m) := by
  cases m with
  | tasks l =>
    unfold attemptApply transact Database.reliable Store.written
    dsimp only
    rw [Rows.writeAll_replacing]
    rfl
  | groups l =>
    unfold attemptApply transact Database.reliable Store.written
    dsimp only
    rw [Rows.writeAll_replacing]
    rfl
  | permissions p => rfl
  | datasets d =>
    unfold attemptApply perform apply Store.replaceDatasets
    dsimp only
    cases Store.documentRows d with
    | error e => rfl
    | ok rows =>
      unfold transact Database.reliable Store.written
      dsimp only
      rw [Rows.writeAll_replacing]
      rfl
  | status s => rfl
  | workers l => rfl

/-- **On a database that never fails attempts are the operations of a replica.** -/
theorem attempt_reliable (r : Replica) (op : Operation) :
    r.attempt (.reliable : Database ε) op = r.perform op := by
  cases op with
  | change c => exact attemptChange_reliable r c
  | apply m => exact attemptApply_reliable r m

/-! ### On a database that may fail -/

/-- What comes of an attempt is what would come of it without a failure, or there was one and
nothing has happened. -/
def UnlessFailed (r : Replica) (x y : Except (Failure ε) Bool × Replica) : Prop :=
  x = y ∨ ∃ e, x = (.error (.failed e), r)

theorem transact_cases (atomic : db.Atomic) (r : Replica) (table : Table) (writes : List Write)
    (next : Replica → Replica) :
    UnlessFailed r (r.transact db table writes next) (r.transact .reliable table writes next) := by
  unfold transact
  rcases atomic r.store table writes with h | ⟨e, h⟩
  · rw [h]
    exact .inl rfl
  · rw [h]
    exact .inr ⟨e, rfl⟩

theorem attemptChange_cases (atomic : db.Atomic) (r : Replica) (c : Change) :
    UnlessFailed r (r.attemptChange db c) (r.attemptChange .reliable c) := by
  unfold attemptChange
  cases c with
  | addTask | removeTask | addGroup | removeGroup =>
    dsimp only
    split
    · exact transact_cases atomic ..
    · exact .inl rfl
  | setPermissions p => exact transact_cases atomic ..
  | putDocument dataset key document =>
    dsimp only
    split
    · exact .inl rfl
    · exact transact_cases atomic ..
  | removeDocument dataset key =>
    dsimp only
    split
    · exact .inl rfl
    · split
      · exact .inl rfl
      · exact transact_cases atomic ..

theorem attemptApply_cases (atomic : db.Atomic) (r : Replica) (m : ClusterMessage) :
    UnlessFailed r (r.attemptApply db m) (r.attemptApply .reliable m) := by
  unfold attemptApply
  cases m with
  | tasks | groups | permissions => exact transact_cases atomic ..
  | datasets d =>
    dsimp only
    split
    · exact .inl rfl
    · exact transact_cases atomic ..
  | status | workers => exact .inl rfl

/-- **A failure of the database is all that may keep an operation from being what it is.** -/
theorem attempt_cases (atomic : db.Atomic) (r : Replica) (op : Operation) :
    UnlessFailed r (r.attempt db op) (r.perform op) := by
  rw [← attempt_reliable]
  cases op with
  | change c => exact attemptChange_cases atomic r c
  | apply m => exact attemptApply_cases atomic r m

/-! ### All or nothing -/

/-- What everybody is told of an operation that has been done: of a change the whole of the part
that it is about, of a message that has arrived nothing. -/
def Operation.tells (t : Replica) : Operation → List ClusterMessage
  | .change c => [t.message c.collection]
  | .apply _ => []

/-- An operation has been done and everybody has been told, or nothing has happened. -/
def Whole (r : Replica) (op : Operation) (x : Except (Failure ε) Bool × Replica) : Prop :=
  (x.1 = .ok true ∧ x.2.outbox = r.outbox ++ op.tells x.2) ∨ (x.1 ≠ .ok true ∧ x.2 = r)

/-- What is told of a change is what is held then. -/
theorem whole_publish {u : Replica} {c : Change} (outbox : u.outbox = r.outbox) :
    Whole r (.change c) ((.ok true, u.publish (u.message c.collection)) :
      Except (Failure ε) Bool × Replica) := by
  refine .inl ⟨rfl, ?_⟩
  have same : (u.publish (u.message c.collection)).message c.collection =
      u.message c.collection := by
    cases c.collection <;> rfl
  rw [Operation.tells, same]
  exact congrArg (· ++ [u.message c.collection]) outbox

theorem change_whole (r : Replica) (c : Change) :
    Whole r (.change c) (r.perform (.change c) : Except (Failure ε) Bool × Replica) := by
  have refused {x : Except (Failure ε) Bool} (h : x ≠ .ok true) : Whole r (.change c) (x, r) :=
    .inr ⟨h, rfl⟩
  cases c with
  | addTask t =>
    unfold perform addTask
    dsimp only
    split
    · exact whole_publish (c := .addTask t) rfl
    · exact refused nofun
  | removeTask name =>
    unfold perform removeTask
    dsimp only
    split
    · exact whole_publish (c := .removeTask name) rfl
    · exact refused nofun
  | addGroup g =>
    unfold perform addGroup
    dsimp only
    split
    · exact whole_publish (c := .addGroup g) rfl
    · exact refused nofun
  | removeGroup name =>
    unfold perform removeGroup
    dsimp only
    split
    · exact whole_publish (c := .removeGroup name) rfl
    · exact refused nofun
  | setPermissions p => exact whole_publish (c := .setPermissions p) rfl
  | putDocument dataset key document =>
    unfold perform putDocument
    dsimp only
    split
    · exact refused nofun
    · exact whole_publish (c := .putDocument dataset key document) rfl
  | removeDocument dataset key =>
    unfold perform removeDocument
    dsimp only
    split
    · exact refused nofun
    · split
      · exact refused nofun
      · exact whole_publish (c := .removeDocument dataset key) rfl

theorem apply_whole (r : Replica) (m : ClusterMessage) :
    Whole r (.apply m) (r.perform (.apply m) : Except (Failure ε) Bool × Replica) := by
  have silent {t : Replica} (h : t.outbox = r.outbox) :
      Whole r (.apply m) ((.ok true, t) : Except (Failure ε) Bool × Replica) :=
    .inl ⟨rfl, h.trans (List.append_nil _).symm⟩
  unfold perform apply
  cases m with
  | tasks | groups | permissions => exact silent rfl
  | datasets d =>
    dsimp only
    split
    · exact .inr ⟨nofun, rfl⟩
    · exact silent rfl
  | status | workers => exact .inr ⟨nofun, rfl⟩

theorem perform_whole (r : Replica) (op : Operation) :
    Whole r op (r.perform op : Except (Failure ε) Bool × Replica) := by
  cases op with
  | change c => exact change_whole r c
  | apply m => exact apply_whole r m

/-- **Operations are all or nothing.** Let transactions be so, whichever of them fail. An operation
that yields an error or false leaves the store, what is held and what is to be sent as they were.
One that is done is the one that the replica performs; a change adds one message to what is to be
sent, with the whole of the part that it is about, and following a message adds none. -/
theorem all_or_nothing (atomic : db.Atomic) (r : Replica) (op : Operation) :
    ((r.attempt db op).1 ≠ .ok true → (r.attempt db op).2 = r) ∧
      ((r.attempt db op).1 = .ok true → r.attempt db op = r.perform op ∧
        (r.attempt db op).2.outbox = r.outbox ++ op.tells (r.attempt db op).2) := by
  rcases attempt_cases atomic r op with performed | ⟨e, failed⟩
  · rw [performed]
    rcases perform_whole (ε := ε) r op with ⟨done, told⟩ | ⟨undone, same⟩
    · exact ⟨fun h => absurd done h, fun _ => ⟨rfl, told⟩⟩
    · exact ⟨fun _ => same, fun h => absurd h undone⟩
  · rw [failed]
    exact ⟨fun _ => rfl, nofun⟩

/-! ### A small run -/

/-- A database for so many writes in one transaction. -/
def cramped (limit : ℕ) : Database String := fun store table writes =>
  if writes.length ≤ limit then (.ok (), store.written writes table) else (.error "full", store)

theorem cramped_atomic (limit : ℕ) : (cramped limit).Atomic := by
  intro store table writes
  unfold cramped
  split
  · exact .inl rfl
  · exact .inr ⟨"full", rfl⟩

/-- A group of a name and nothing else. -/
def plainGroup (name : String) : GroupSpec := { (default : GroupSpec) with name }

/-- One group is stored; two that arrive instead are too many, and so nothing becomes of them. -/
theorem cramped_all_or_nothing :
    (cramped 2).Atomic ∧
      (fresh.attempt (cramped 2) (.change (.addGroup (plainGroup "a")))).1 = .ok true ∧
      (fresh.attempt (cramped 2) (.change (.addGroup (plainGroup "a")))).2.outbox =
        [.groups [plainGroup "a"]] ∧
      ((fresh.addGroup (plainGroup "a")).2.attempt (cramped 2)
          (.apply (.groups [plainGroup "b", plainGroup "c"]))).1 = .error (.failed "full") ∧
      ((fresh.addGroup (plainGroup "a")).2.attempt (cramped 2)
          (.apply (.groups [plainGroup "b", plainGroup "c"]))).2 =
        (fresh.addGroup (plainGroup "a")).2 := by
  have added : (fresh.attempt (cramped 2) (.change (.addGroup (plainGroup "a")))).1 = .ok true := by
    rfl
  have failed : ((fresh.addGroup (plainGroup "a")).2.attempt (cramped 2)
      (.apply (.groups [plainGroup "b", plainGroup "c"]))).1 = .error (.failed "full") := by
    rfl
  refine ⟨cramped_atomic 2, added, ?_, failed, ?_⟩
  · exact ((all_or_nothing (cramped_atomic 2) fresh _).2 added).2
  · refine (all_or_nothing (cramped_atomic 2) (fresh.addGroup (plainGroup "a")).2 _).1 ?_
    rw [failed]
    exact nofun

end Replica

end WorkerCluster
