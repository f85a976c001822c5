import WorkerCluster.Node.Basic
import WorkerCluster.Proofs.Config
import WorkerCluster.Proofs.Json.Canonical
import WorkerCluster.Proofs.Restart

/-!
# The state handed over to a peer

A node that is connected is told all collections, each in a packet of its own.

* `Replica.receive` follows a packet, `Replica.receiveAll` several ones.
* `Replica.Tellable` says that a replica holds only what another one can read and store. Whatever
  happens to a replica, it stays so (`Tellable.live`), also when it is opened again.
* `Replica.told` is what becomes of a replica that is told about one part of another one;
  `Tellable.receive_message` says that a packet brings it there.
* `receiveAll_fullState` is the main statement: after all packets a replica holds what the other
  one holds, and hearing them again changes nothing.
-/

namespace WorkerCluster

open Json

/-- The packet in which nodes tell each other a message. -/
def ClusterMessage.packet (m : ClusterMessage) : Packet :=
  .json Channel.cluster ClusterMessage.codec m

/-- All parts, in the order in which a peer is told them. -/
def Collection.all : List Collection := [.tasks, .groups, .permissions, .datasets]

theorem Collection.mem_all (k : Collection) : k ∈ all := by cases k <;> decide

namespace Replica

/-- Follow a packet. There is no result if it cannot be read, if what it brings cannot be stored, or
if it brings no collection. -/
def receive (r : Replica) (p : Packet) : Option Replica :=
  match p.decode ClusterMessage.codec with
  | .error _ => none
  | .ok m =>
    match r.apply m with
    | (.ok true, t) => some t
    | _ => none

/-- Follow packets one after the other. -/
def receiveAll (r : Replica) (packets : List Packet) : Option Replica := packets.foldlM receive r

end Replica

/-! ### Values in canonical form -/

namespace Datasets

variable {d : Datasets}

theorem canonical_iff : d.Canonical ↔
    ∀ dataset key j, d.document? dataset key = some j → j.Canonical := by
  constructor
  · intro h dataset key j found
    obtain ⟨documents, held, found⟩ := Option.bind_eq_some_iff.1 found
    exact h (dataset, documents) (SortedMap.mem_entries.2 held) (key, j)
      (SortedMap.mem_entries.2 found)
  · intro h e he document hd
    refine h e.1 document.1 document.2 ?_
    rw [document?, SortedMap.mem_entries.1 he]
    exact SortedMap.mem_entries.1 hd

theorem Canonical.insertDocument (h : d.Canonical) (dataset key : String) {document : Json}
    (canonical : document.Canonical) : (d.insertDocument dataset key document).Canonical := by
  refine canonical_iff.2 fun dataset' key' j found => ?_
  rw [document?_insertDocument] at found
  split at found
  · exact Option.some.inj found ▸ canonical
  · exact canonical_iff.1 h dataset' key' j found

theorem Canonical.eraseDocument (h : d.Canonical) (dataset key : String) :
    (d.eraseDocument dataset key).Canonical :=
  canonical_iff.2 fun dataset' key' j found =>
    canonical_iff.1 h dataset' key' j (document?_of_eraseDocument found)

end Datasets

/-- What is read of a row its codec has decoded. -/
theorem Rows.decode_of_readRow {α : Type} {c : Codec α} {text : List UInt8} {a : α}
    (h : readRow c text = .ok a) : ∃ r s, c.decode r s = .ok a := by
  unfold readRow at h
  split at h
  · next read =>
    obtain rfl := Except.ok.inj h
    exact Codec.decode_of_read read
  · cases h

/-- Permissions that have been read are in canonical form. -/
theorem Permissions.canonical_of_decode {r : Reading} {s : Source} {p : Permissions}
    (h : Permissions.codec.decode r s = .ok p) : p.Canonical := by
  have listed {name : String} {l : List Json}
      (given : (Field.withDefault name (.list .json) []).Gives l) : ∀ j ∈ l, j.Canonical := by
    intro j mem
    rcases given with ⟨r, s, read⟩ | missing | missing
    · obtain ⟨r, s, read⟩ := Codec.mem_of_decode_list read j mem
      exact canonical_of_read s read
    · cases missing
    · cases missing
      cases mem
  obtain ⟨⟨users, groups, _⟩, ⟨ofUsers, ofGroups, -⟩, rfl⟩ := Fields.record_gives h
  exact ⟨listed ofUsers, listed ofGroups⟩

theorem Store.canonical_of_getPermissions {s : Store} {p : Permissions}
    (h : s.getPermissions = .ok p) : p.Canonical := by
  obtain ⟨o, got, rfl⟩ := map_eq_ok h
  unfold Rows.get? at got
  split at got
  · obtain rfl := Except.ok.inj got
    exact ⟨fun _ mem => (List.not_mem_nil mem).elim, fun _ mem => (List.not_mem_nil mem).elim⟩
  · obtain ⟨p, read, rfl⟩ := map_eq_ok got
    obtain ⟨r, source, decoded⟩ := Rows.decode_of_readRow read
    exact Permissions.canonical_of_decode decoded

/-! ### Rows of documents -/

namespace Store

variable {s t : Store}

/-- Every row of the table of documents is that of a document. -/
def Keyed (s : Store) : Prop :=
  ∀ joined text, s.documents.find? joined = some text →
    ∃ dataset key, documentKey dataset key = .ok joined

theorem Keyed.putDocument (h : s.Keyed) {dataset key : String} {document : Json}
    (stored : s.putDocument dataset key document = .ok t) : t.Keyed := by
  obtain ⟨k, named, rfl⟩ := map_eq_ok stored
  intro joined text found
  dsimp only at found
  rw [Rows.put, SortedMap.find?_insert] at found
  split at found
  · next same => exact ⟨dataset, key, same ▸ named⟩
  · exact h joined text found

theorem Keyed.deleteDocument (h : s.Keyed) {dataset key : String} {there : Bool}
    (stored : s.deleteDocument dataset key = .ok (there, t)) : t.Keyed := by
  obtain ⟨k, -, made⟩ := map_eq_ok stored
  obtain ⟨-, rfl⟩ := Prod.mk.inj made
  intro joined text found
  dsimp only at found
  rw [SortedMap.find?_erase] at found
  split at found
  · cases found
  · exact h joined text found

theorem keyed_of_replaceDatasets {d : Datasets} (stored : s.replaceDatasets d = .ok t) :
    t.Keyed := by
  obtain ⟨rows, listed, rfl⟩ := map_eq_ok stored
  intro joined text found
  obtain ⟨⟨k, j⟩, mem, same⟩ := List.mem_map.1 (SortedMap.mem_of_find?_ofList found)
  obtain ⟨rfl, -⟩ := Prod.mk.inj same
  obtain ⟨dataset, key, -, named⟩ := (Datasets.mem_documentRows listed).1 mem
  exact ⟨dataset, key, named⟩

/-- What is read from such a table can be stored again, and is in canonical form. -/
theorem Keyed.datasets (h : s.Keyed) {d : Datasets} (read : s.datasets = .ok d) :
    d.Storable ∧ d.Canonical := by
  obtain ⟨rows, listed, rfl⟩ := map_eq_ok read
  -- a document that is found comes from a row, which has its key and whose text has been read
  have row {dataset key : String} {j : Json}
      (found : (gather rows).document? dataset key = some j) :
      (∃ k, documentKey dataset key = .ok k) ∧ j.Canonical := by
    rw [Datasets.document?_gather] at found
    obtain ⟨⟨joined, j'⟩, last, rfl⟩ := Option.map_eq_some_iff.1 found
    obtain ⟨mem, kept⟩ := List.mem_filter.1 (List.mem_of_getLast? last)
    have split : splitKey joined = some (dataset, key) := of_decide_eq_true kept
    obtain ⟨⟨_, text⟩, held, read⟩ := (mem_mapM_ok listed).1 mem
    obtain ⟨_, value, same⟩ := map_eq_ok read
    obtain ⟨rfl, rfl⟩ := Prod.mk.inj same
    constructor
    · obtain ⟨dataset', key', named⟩ := h _ text (SortedMap.mem_entries.1 held)
      have same := ((Datasets.splitKey_eq_iff named).2 rfl).symm.trans split
      obtain ⟨rfl, rfl⟩ := Prod.mk.inj (Option.some.inj same)
      exact ⟨_, named⟩
    · obtain ⟨r, source, decoded⟩ := Rows.decode_of_readRow value
      exact canonical_of_read source decoded
  exact ⟨fun _ _ _ found => (row found).1,
    Datasets.canonical_iff.2 fun _ _ _ found => (row found).2⟩

end Store

/-! ### What can be told -/

namespace Replica

variable {r s : Replica}

/-- The values that it brings are as JSON holds them. -/
def Input.Canonical : Input → Prop
  | .change (.setPermissions p) | .apply (.permissions p) => p.Canonical
  | .change (.putDocument _ _ document) => document.Canonical
  | .apply (.datasets d) => d.Canonical
  | _ => True

/-- What a replica holds is as JSON holds it, and so is what it finds in its store when it is opened
again. -/
structure Regular (r : Replica) : Prop where
  permissions : r.permissions.Canonical
  datasets : r.datasets.Canonical
  store : r.store.Keyed

/-- A replica holds only what another one can read and store. -/
structure Tellable (r : Replica) : Prop extends r.Sound where
  regular : r.Regular

theorem regular_fresh : fresh.Regular where
  permissions :=
    ⟨fun _ mem => (List.not_mem_nil mem).elim, fun _ mem => (List.not_mem_nil mem).elim⟩
  datasets _ mem := (List.not_mem_nil mem).elim
  store _ _ found := nomatch found

namespace Regular

theorem addTask (h : r.Regular) (t : TaskSpec) : (r.addTask t).2.Regular := by
  unfold Replica.addTask
  split
  · exact { h with }
  · exact h

theorem removeTask (h : r.Regular) (name : String) : (r.removeTask name).2.Regular := by
  unfold Replica.removeTask
  split
  · exact { h with }
  · exact h

theorem addGroup (h : r.Regular) (g : GroupSpec) : (r.addGroup g).2.Regular := by
  unfold Replica.addGroup
  split
  · exact { h with }
  · exact h

theorem removeGroup (h : r.Regular) (name : String) : (r.removeGroup name).2.Regular := by
  unfold Replica.removeGroup
  split
  · exact { h with }
  · exact h

theorem putDocument (h : r.Regular) (dataset key : String) {document : Json}
    (canonical : document.Canonical) : (r.putDocument dataset key document).2.Regular := by
  unfold Replica.putDocument
  split
  · exact h
  · next stored =>
    exact ⟨h.permissions, h.datasets.insertDocument dataset key canonical,
      h.store.putDocument stored⟩

theorem removeDocument (h : r.Regular) (dataset key : String) :
    (r.removeDocument dataset key).2.Regular := by
  unfold Replica.removeDocument
  split
  · exact h
  · split
    · exact h
    · next stored =>
      exact ⟨h.permissions, h.datasets.eraseDocument dataset key, h.store.deleteDocument stored⟩

theorem change (h : r.Regular) {c : Change} (canonical : (Input.change c).Canonical) :
    (r.change c).Regular := by
  cases c with
  | addTask t => exact h.addTask t
  | removeTask name => exact h.removeTask name
  | addGroup g => exact h.addGroup g
  | removeGroup name => exact h.removeGroup name
  | setPermissions p => exact { h with permissions := canonical }
  | putDocument dataset key document => exact h.putDocument dataset key canonical
  | removeDocument dataset key => exact h.removeDocument dataset key

theorem apply (h : r.Regular) {m : ClusterMessage} (canonical : (Input.apply m).Canonical) :
    (r.apply m).2.Regular := by
  cases m with
  | status s => exact h
  | workers l => exact h
  | tasks l => exact { h with }
  | groups l => exact { h with }
  | permissions p => exact { h with permissions := canonical }
  | datasets d =>
    unfold Replica.apply
    dsimp only
    split
    · exact h
    · next stored => exact ⟨h.permissions, canonical, Store.keyed_of_replaceDatasets stored⟩

end Regular

/-- Whatever has been kept can be told once it has been loaded. -/
theorem tellable_of_open (h : s.store.Keyed) (opened : Replica.open s.store = .ok r) :
    r.Tellable := by
  obtain ⟨tasks, -, opened⟩ := bind_eq_ok opened
  obtain ⟨groups, -, opened⟩ := bind_eq_ok opened
  obtain ⟨permissions, ofPermissions, opened⟩ := bind_eq_ok opened
  obtain ⟨datasets, ofDatasets, opened⟩ := bind_eq_ok opened
  obtain rfl := Except.ok.inj opened
  obtain ⟨storable, canonical⟩ := h.datasets ofDatasets
  exact {
    tasks := SortedMap.keyedBy_ofList _ tasks
    groups := SortedMap.keyedBy_ofList _ groups
    datasets := storable
    regular := ⟨Store.canonical_of_getPermissions ofPermissions, canonical, h⟩ }

theorem Tellable.take (h : r.Tellable) {i : Input} (canonical : i.Canonical) :
    (r.take i).Tellable := by
  cases i with
  | change c => exact ⟨h.toSound.change c, h.regular.change canonical⟩
  | apply m => exact ⟨h.toSound.apply m, h.regular.apply canonical⟩
  | reopen =>
    unfold Replica.take
    dsimp only
    split
    · next opened => exact tellable_of_open h.regular.store opened
    · exact h

/-- **Whatever has happened to a replica, what it holds can be told.** -/
theorem Tellable.live (h : r.Tellable) {inputs : List Input}
    (canonical : ∀ i ∈ inputs, i.Canonical) : (r.live inputs).Tellable := by
  induction inputs generalizing r with
  | nil => exact h
  | cons i inputs ih =>
    obtain ⟨first, rest⟩ := List.forall_mem_cons.1 canonical
    exact ih (h.take first) rest

/-! ### What comes of it -/

/-- What becomes of a replica that is told about a part of another one, of whose documents these are
the rows. -/
def told (r s : Replica) (rows : List (String × Json)) : Collection → Replica
  | .tasks => { r with store.tasks := .of TaskSpec.codec s.tasks, tasks := s.tasks }
  | .groups => { r with store.groups := .of GroupSpec.codec s.groups, groups := s.groups }
  | .permissions =>
    { r with store := r.store.putPermissions s.permissions, permissions := s.permissions }
  | .datasets => { r with store.documents := .ofValues .json rows, datasets := s.datasets }

variable {rows : List (String × Json)}

theorem told_agrees (r s : Replica) (k : Collection) : (r.told s rows k).Agrees s k := by
  cases k <;> rfl

theorem told_outbox (r s : Replica) (k : Collection) : (r.told s rows k).outbox = r.outbox := by
  cases k <;> rfl

/-- To be told twice is to be told once. -/
theorem told_told (r s : Replica) (k : Collection) :
    (r.told s rows k).told s rows k = r.told s rows k := by
  cases k with
  | permissions =>
    have row : (r.store.putPermissions s.permissions).putPermissions s.permissions =
        r.store.putPermissions s.permissions := by
      unfold Store.putPermissions Rows.put
      rw [SortedMap.insert_eq_self ((SortedMap.find?_insert ..).trans (if_pos rfl))]
    unfold told
    dsimp only
    rw [row]
  | _ => rfl

/-- The parts do not get into each other's way. -/
theorem told_comm (r s : Replica) (k l : Collection) :
    (r.told s rows k).told s rows l = (r.told s rows l).told s rows k := by
  cases k <;> cases l <;> rfl

/-- Be told about parts one after the other. -/
def toldAll (r s : Replica) (rows : List (String × Json)) (parts : List Collection) : Replica :=
  parts.foldl (fun r k => r.told s rows k) r

theorem told_toldAll (r s : Replica) (parts : List Collection) (k : Collection) :
    (r.toldAll s rows parts).told s rows k = (r.told s rows k).toldAll s rows parts := by
  induction parts generalizing r with
  | nil => rfl
  | cons l parts ih =>
    calc (r.toldAll s rows (l :: parts)).told s rows k
        = ((r.told s rows l).told s rows k).toldAll s rows parts := ih (r.told s rows l)
      _ = ((r.told s rows k).told s rows l).toldAll s rows parts := by rw [told_comm]

/-- There is nothing new about a part of which one has been told. -/
theorem told_of_mem (r s : Replica) {parts : List Collection} {k : Collection} (h : k ∈ parts) :
    (r.toldAll s rows parts).told s rows k = r.toldAll s rows parts := by
  induction parts generalizing r with
  | nil => cases h
  | cons l parts ih =>
    rcases List.mem_cons.1 h with rfl | h
    · calc (r.toldAll s rows (k :: parts)).told s rows k
          = ((r.told s rows k).told s rows k).toldAll s rows parts := told_toldAll ..
        _ = r.toldAll s rows (k :: parts) := by rw [told_told]; rfl
    · exact ih (r.told s rows l) h

theorem toldAll_of_subset (r s : Replica) {parts again : List Collection} (h : again ⊆ parts) :
    (r.toldAll s rows parts).toldAll s rows again = r.toldAll s rows parts := by
  induction again with
  | nil => rfl
  | cons k again ih =>
    obtain ⟨first, rest⟩ := List.cons_subset.1 h
    calc (r.toldAll s rows parts).toldAll s rows (k :: again)
        = ((r.toldAll s rows parts).told s rows k).toldAll s rows again := rfl
      _ = r.toldAll s rows parts := by rw [told_of_mem r s first, ih rest]

theorem toldAll_agrees (r s : Replica) {parts : List Collection} {k : Collection}
    (h : k ∈ parts) : (r.toldAll s rows parts).Agrees s k := by
  rw [← told_of_mem r s h]
  exact told_agrees ..

theorem toldAll_outbox (r s : Replica) (parts : List Collection) :
    (r.toldAll s rows parts).outbox = r.outbox := by
  induction parts generalizing r with
  | nil => rfl
  | cons k parts ih => exact (ih (r.told s rows k)).trans (told_outbox ..)

/-! ### Packets -/

/-- A message of a part is followed. -/
theorem Sound.apply_message (h : s.Sound) (listed : Store.documentRows s.datasets = .ok rows)
    (r : Replica) (k : Collection) :
    Replica.apply r (s.message k) = (.ok true, r.told s rows k) := by
  cases k with
  | tasks =>
    show (Except.ok true, { r with
      store := r.store.replaceTasks s.tasks.values, tasks := byName s.tasks.values }) = _
    rw [Store.replaceTasks, Rows.ofValues_eq, byName, h.tasks.ofList_values]
    rfl
  | groups =>
    show (Except.ok true, { r with
      store := r.store.replaceGroups s.groups.values, groups := groupsByName s.groups.values }) = _
    rw [Store.replaceGroups, Rows.ofValues_eq, groupsByName, h.groups.ofList_values]
    rfl
  | permissions => rfl
  | datasets =>
    rw [message, Replica.apply, Store.replaceDatasets, listed]
    rfl

theorem Tellable.portable (h : s.Tellable) (k : Collection) : (s.message k).Portable := by
  cases k with
  | tasks => trivial
  | groups => trivial
  | permissions => exact h.regular.permissions
  | datasets => exact h.regular.datasets

/-- The packet of a part is read and followed. -/
theorem Tellable.receive_message (h : s.Tellable)
    (listed : Store.documentRows s.datasets = .ok rows) (r : Replica) {k : Collection}
    (depth : (ClusterMessage.codec.encode (s.message k)).depth ≤ Reading.nestingLimit) :
    r.receive (s.message k).packet = some (r.told s rows k) := by
  have read : (s.message k).packet.decode ClusterMessage.codec = .ok (s.message k) :=
    Packet.decode_json (ClusterMessage.codec_reads (h.portable k)) depth Channel.cluster
  rw [receive, read]
  dsimp only
  rw [h.apply_message listed]

/-- Packets of parts are followed, in any order and as often as they come. -/
theorem Tellable.receiveAll_messages (h : s.Tellable)
    (listed : Store.documentRows s.datasets = .ok rows) (r : Replica) {parts : List Collection}
    (depth : ∀ k ∈ parts,
      (ClusterMessage.codec.encode (s.message k)).depth ≤ Reading.nestingLimit) :
    r.receiveAll ((parts.map s.message).map ClusterMessage.packet) =
      some (r.toldAll s rows parts) := by
  induction parts generalizing r with
  | nil => rfl
  | cons k parts ih =>
    obtain ⟨first, rest⟩ := List.forall_mem_cons.1 depth
    rw [receiveAll, List.map_cons, List.map_cons, List.foldlM_cons,
      h.receive_message listed r first]
    exact ih (r.told s rows k) rest

theorem fullState_eq (s : Replica) : s.fullState = Collection.all.map s.message := rfl

/-- **A peer that is told everything holds what the replica holds**, whatever has happened to the
replica and whatever the peer held before: every packet can be read and followed. The peer sends
nothing, and when it is told the same again, nothing changes, neither what it holds nor what it has
stored. -/
theorem receiveAll_fullState {inputs : List Input} (canonical : ∀ i ∈ inputs, i.Canonical)
    (depth : ∀ m ∈ (fresh.live inputs).fullState,
      (ClusterMessage.codec.encode m).depth ≤ Reading.nestingLimit) (r : Replica) :
    ∃ t, r.receiveAll ((fresh.live inputs).fullState.map ClusterMessage.packet) = some t ∧
      (∀ k, t.Agrees (fresh.live inputs) k) ∧ t.outbox = r.outbox ∧
      t.receiveAll ((fresh.live inputs).fullState.map ClusterMessage.packet) = some t := by
  have start : fresh.Tellable := ⟨kept_fresh.toSound, regular_fresh⟩
  have tellable := start.live canonical
  generalize fresh.live inputs = s at depth tellable
  obtain ⟨rows, listed⟩ := Datasets.exists_documentRows_iff.2 tellable.datasets
  have depth : ∀ k ∈ Collection.all,
      (ClusterMessage.codec.encode (s.message k)).depth ≤ Reading.nestingLimit := fun k mem =>
    depth _ (List.mem_map_of_mem mem)
  have told (r : Replica) := tellable.receiveAll_messages listed r depth
  refine ⟨r.toldAll s rows Collection.all, told r,
    fun k => toldAll_agrees r s k.mem_all, toldAll_outbox r s _, ?_⟩
  rw [fullState_eq, told, toldAll_of_subset r s (List.Subset.refl _)]

/-! ### A small run -/

/-- Datasets of which one is empty, and a document with a slash in its key. -/
def uneven : Datasets := .ofList [("kits", .empty), ("maps", .ofList [("a/b", .null)])]

/-- A peer sends datasets and the node is started again. Then it takes a document and permissions,
and the peer sends its datasets once more. -/
def eventful : List Input :=
  [.apply (.datasets uneven), .reopen, .change (.putDocument "maps" "arena" (.bool true)),
    .change (.setPermissions { users := [.fields [("name", .string "ada")]] }),
    .apply (.datasets uneven)]

/-- A peer that has held something else holds the same in the end. -/
theorem receiveAll_eventful : (∀ i ∈ eventful, i.Canonical) ∧
    (∀ m ∈ (fresh.live eventful).fullState,
      (ClusterMessage.codec.encode m).depth ≤ Reading.nestingLimit) ∧
    (fresh.live eventful).datasets.keys = ["kits", "maps"] ∧
    ∃ t, (fresh.live [arena]).receiveAll
        ((fresh.live eventful).fullState.map ClusterMessage.packet) = some t ∧
      (∀ k, t.Agrees (fresh.live eventful) k) ∧ t.outbox = (fresh.live [arena]).outbox ∧
      t.receiveAll ((fresh.live eventful).fullState.map ClusterMessage.packet) = some t := by
  have datasets : uneven.Canonical := by
    rintro ⟨dataset, documents⟩ he ⟨key, document⟩ hd
    have mem := SortedMap.mem_of_find?_ofList (SortedMap.mem_entries.1 he)
    rcases List.mem_cons.1 mem with same | mem
    · cases same
      cases hd
    · cases List.mem_singleton.1 mem
      have mem := SortedMap.mem_of_find?_ofList (SortedMap.mem_entries.1 hd)
      cases List.mem_singleton.1 mem
      exact trivial
  have user : (Json.fields [("name", .string "ada")]).Canonical :=
    ⟨List.pairwise_singleton _ _, trivial, trivial⟩
  have canonical : ∀ i ∈ eventful, i.Canonical := by
    unfold eventful
    simp only [List.forall_mem_cons]
    refine ⟨datasets, trivial, trivial, ⟨?_, fun _ mem => nomatch mem⟩, datasets,
      fun _ mem => nomatch mem⟩
    rw [List.forall_mem_singleton]
    exact user
  have depth : ∀ m ∈ (fresh.live eventful).fullState,
      (ClusterMessage.codec.encode m).depth ≤ Reading.nestingLimit := by decide +kernel
  have kept : (fresh.live eventful).datasets.keys = ["kits", "maps"] := by decide +kernel
  exact ⟨canonical, depth, kept, receiveAll_fullState canonical depth (fresh.live [arena])⟩

end Replica

end WorkerCluster
