import WorkerCluster.Proofs.Handover
import WorkerCluster.Proofs.Json.Refusal

/-!
# Documents that are read back

Any document is stored and sent, but JSON is read only if it does not nest too deep.

* `Rows.exists_all?_insert` takes one row apart from the others: a table is read if both are.
* `ClusterMessage.decode_packet_iff` says which messages can be read.
* `putDocument_leaves` is the main statement: it says for every way in which a stored document is
  read again up to which depth that is possible.
-/

namespace WorkerCluster

open Json

/-! ### Rows -/

namespace Rows

variable {α : Type} {c : Codec α} {rows : Rows} {key : String} {text : List UInt8} {a : α}

theorem readRow_eq_ok : readRow c text = .ok a ↔ c.read text = .ok a := by
  unfold readRow
  cases c.read text with
  | ok b => simp
  | error f => simp

/-- A table is read if all its rows are. -/
theorem exists_all?_iff : (∃ l, rows.all? c = .ok l) ↔
    ∀ key text, rows.find? key = some text → ∃ a, readRow c text = .ok a := by
  rw [all?, exists_mapM_ok_iff]
  constructor
  · intro h key text found
    obtain ⟨e, read⟩ := h (key, text) (SortedMap.mem_entries.2 found)
    obtain ⟨a, read, -⟩ := map_eq_ok read
    exact ⟨a, read⟩
  · rintro h ⟨key, text⟩ mem
    obtain ⟨a, read⟩ := h key text (SortedMap.mem_entries.1 mem)
    exact ⟨(key, a), congrArg ((key, ·) <$> ·) read⟩

/-- What is read of a table is what its rows hold. -/
theorem mem_all? {l : List (String × α)} (h : rows.all? c = .ok l) :
    (key, a) ∈ l ↔ ∃ text, rows.find? key = some text ∧ readRow c text = .ok a := by
  rw [mem_mapM_ok h]
  constructor
  · rintro ⟨⟨key', text⟩, mem, read⟩
    obtain ⟨a', row, same⟩ := map_eq_ok read
    obtain ⟨rfl, rfl⟩ := Prod.mk.inj same
    exact ⟨text, SortedMap.mem_entries.1 mem, row⟩
  · rintro ⟨text, found, read⟩
    exact ⟨(key, text), SortedMap.mem_entries.2 found, congrArg ((key, ·) <$> ·) read⟩

/-- **A table is read if one row is, and the others are.** -/
theorem exists_all?_insert : (∃ l, Rows.all? (rows.insert key text) c = .ok l) ↔
    (∃ a, readRow c text = .ok a) ∧ ∃ l, Rows.all? (rows.erase key) c = .ok l := by
  rw [exists_all?_iff, exists_all?_iff]
  constructor
  · intro h
    refine ⟨h key text (by simp), fun key' text' found => ?_⟩
    rw [SortedMap.find?_erase] at found
    split at found
    · cases found
    · next other => exact h key' text' (by rw [SortedMap.find?_insert, if_neg other, found])
  · rintro ⟨row, others⟩ key' text' found
    rw [SortedMap.find?_insert] at found
    split at found
    · exact Option.some.inj found ▸ row
    · next other => exact others key' text' (by rw [SortedMap.find?_erase, if_neg other, found])

end Rows

/-- The text of a document is read exactly if it does not nest too deep. -/
theorem Json.Canonical.readRow_iff {document j : Json} (h : document.Canonical) :
    Rows.readRow .json document.bytes = .ok j ↔
      document.depth ≤ Reading.nestingLimit ∧ j = document :=
  Rows.readRow_eq_ok.trans (Codec.read_bytes_iff_depth (Codec.json_reads h) (Codec.json_limited _))

namespace Store

variable {s t : Store} {dataset key k : String}

/-- Of all documents, each one is what its row holds. -/
theorem document?_datasets {d : Datasets} (read : s.datasets = .ok d)
    (named : documentKey dataset key = .ok k) {j : Json} : d.document? dataset key = some j ↔
      ∃ text, s.documents.find? k = some text ∧ Rows.readRow .json text = .ok j := by
  obtain ⟨l, listed, rfl⟩ := map_eq_ok read
  have only : l.filter (splitKey ·.1 = some (dataset, key)) = l.filter (·.1 = k) :=
    List.filter_congr fun e _ => by simp [Datasets.splitKey_eq_iff named]
  rw [Datasets.document?_gather, only]
  constructor
  · intro found
    obtain ⟨⟨k', j'⟩, last, rfl⟩ := Option.map_eq_some_iff.1 found
    obtain ⟨mem, same⟩ := List.mem_filter.1 (List.mem_of_getLast? last)
    obtain rfl : k' = k := of_decide_eq_true same
    exact (Rows.mem_all? listed).1 mem
  · rintro ⟨text, found, read⟩
    have mem : (k, j) ∈ l.filter (·.1 = k) :=
      List.mem_filter.2 ⟨(Rows.mem_all? listed).2 ⟨text, found, read⟩, by simp⟩
    -- there is no other row of this key
    have single : ∀ e ∈ l.filter (·.1 = k), e.2 = j := by
      rintro ⟨k', j'⟩ mem'
      obtain ⟨listed', same⟩ := List.mem_filter.1 mem'
      obtain rfl : k' = k := of_decide_eq_true same
      obtain ⟨text', found', read'⟩ := (Rows.mem_all? listed).1 listed'
      obtain rfl := Option.some.inj (found.symm.trans found')
      exact Except.ok.inj (read'.symm.trans read)
    cases last : (l.filter (·.1 = k)).getLast? with
    | none =>
      rw [List.getLast?_eq_none_iff.1 last] at mem
      cases mem
    | some e => exact congrArg some (single e (List.mem_of_getLast? last))

theorem exists_datasets_iff :
    (∃ d, s.datasets = .ok d) ↔ ∃ l, s.documents.all? .json = .ok l := by
  constructor
  · rintro ⟨d, read⟩
    obtain ⟨l, listed, -⟩ := map_eq_ok read
    exact ⟨l, listed⟩
  · rintro ⟨l, listed⟩
    exact ⟨gather l, by rw [datasets, listed]; rfl⟩

/-- A document is stored in one row; without it, the row is gone. -/
theorem putDocument_eq_ok {document : Json} (stored : s.putDocument dataset key document = .ok t) :
    ∃ k, documentKey dataset key = .ok k ∧
      t = { s with documents := s.documents.insert k document.bytes } ∧
      s.deleteDocument dataset key =
        .ok (s.documents.contains k, { s with documents := s.documents.erase k }) := by
  obtain ⟨k, named, rfl⟩ := map_eq_ok stored
  refine ⟨k, named, rfl, ?_⟩
  rw [deleteDocument, named]
  rfl

variable {document : Json}

/-- A row is read by itself. -/
theorem document?_insert (named : documentKey dataset key = .ok k)
    (canonical : document.Canonical) :
    ({ s with documents := s.documents.insert k document.bytes } : Store).document? dataset key =
      .ok (some document) ↔ document.depth ≤ Reading.nestingLimit := by
  have row : (s.documents.insert k document.bytes).find? k = some document.bytes := by simp
  have read : ({ s with documents := s.documents.insert k document.bytes } : Store).document?
      dataset key = some <$> Rows.readRow .json document.bytes := by
    rw [document?, named]
    show Rows.get? _ _ _ = _
    rw [Rows.get?, row]
  rw [read]
  constructor
  · intro got
    obtain ⟨j, got, -⟩ := map_eq_ok got
    exact (canonical.readRow_iff.1 got).1
  · intro depth
    rw [canonical.readRow_iff.2 ⟨depth, rfl⟩]
    rfl

/-- All rows are read if this one and the others are. -/
theorem exists_datasets_insert (canonical : document.Canonical) :
    (∃ d, ({ s with documents := s.documents.insert k document.bytes } : Store).datasets = .ok d) ↔
      document.depth ≤ Reading.nestingLimit ∧
        ∃ d, ({ s with documents := s.documents.erase k } : Store).datasets = .ok d := by
  rw [exists_datasets_iff, exists_datasets_iff, Rows.exists_all?_insert]
  refine and_congr_left' ⟨?_, fun depth => ⟨document, canonical.readRow_iff.2 ⟨depth, rfl⟩⟩⟩
  rintro ⟨j, read⟩
  exact (canonical.readRow_iff.1 read).1

theorem document?_datasets_insert (named : documentKey dataset key = .ok k)
    (canonical : document.Canonical) {d : Datasets} (read :
      ({ s with documents := s.documents.insert k document.bytes } : Store).datasets = .ok d) :
    d.document? dataset key = some document := by
  have depth := ((exists_datasets_insert canonical).1 ⟨d, read⟩).1
  exact (document?_datasets read named).2
    ⟨document.bytes, by simp, canonical.readRow_iff.2 ⟨depth, rfl⟩⟩

end Store

/-! ### Messages -/

theorem Json.depthFields_le_iff {entries : List (String × Json)} {n : ℕ} :
    depthFields entries ≤ n ↔ ∀ e ∈ entries, e.2.depth ≤ n :=
  ⟨fun h _ mem => (depth_le_depthFields mem).trans h, depthFields_le⟩

/-- Datasets nest two levels deeper than the deepest document. -/
theorem Datasets.depth_encode_le {d : Datasets} {n : ℕ} :
    (Datasets.codec.encode d).depth ≤ n + 2 ↔
      ∀ dataset key j, d.document? dataset key = some j → j.depth ≤ n := by
  have outer : (Datasets.codec.encode d).depth ≤ n + 2 ↔
      ∀ e ∈ d.entries, ((Codec.map .json).encode e.2).depth ≤ n + 1 := by
    show depthFields _ + 1 ≤ n + 1 + 1 ↔ _
    rw [Nat.succ_le_succ_iff, depthFields_le_iff, List.forall_mem_map]
  have inner (documents : SortedMap String Json) :
      ((Codec.map .json).encode documents).depth ≤ n + 1 ↔
        ∀ e ∈ documents.entries, e.2.depth ≤ n := by
    show depthFields _ + 1 ≤ n + 1 ↔ _
    rw [Nat.succ_le_succ_iff, depthFields_le_iff, List.forall_mem_map]
    rfl
  rw [outer]
  constructor
  · intro h dataset key j found
    obtain ⟨documents, held, found⟩ := Option.bind_eq_some_iff.1 found
    exact (inner documents).1 (h (dataset, documents) (SortedMap.mem_entries.2 held)) (key, j)
      (SortedMap.mem_entries.2 found)
  · rintro h ⟨dataset, documents⟩ mem
    refine (inner documents).2 fun ⟨key, j⟩ mem' => h dataset key j ?_
    rw [document?, SortedMap.mem_entries.1 mem]
    exact SortedMap.mem_entries.1 mem'

/-- What is true of all documents once one has been stored. -/
theorem Datasets.forall_insertDocument {d : Datasets} {dataset key : String} {document : Json}
    {P : Json → Prop} :
    (∀ dataset' key' j, (d.insertDocument dataset key document).document? dataset' key' = some j →
      P j) ↔ P document ∧ ∀ dataset' key' j,
        (d.eraseDocument dataset key).document? dataset' key' = some j → P j := by
  constructor
  · intro h
    refine ⟨h dataset key document ?_, fun dataset' key' j found => h dataset' key' j ?_⟩
    · rw [document?_insertDocument, if_pos ⟨rfl, rfl⟩]
    · rw [document?_eraseDocument] at found
      split at found
      · cases found
      · next other => rwa [document?_insertDocument, if_neg other]
  · rintro ⟨this, others⟩ dataset' key' j found
    rw [document?_insertDocument] at found
    split at found
    · exact Option.some.inj found ▸ this
    · next other => exact others dataset' key' j (by rwa [document?_eraseDocument, if_neg other])

namespace ClusterMessage

theorem codec_limited (m : ClusterMessage) : codec.Limited m := by
  intro r m' read
  cases m <;> exact Variant.limited_write (Fields.ne_of_mem_encode (by decide)) read

/-- **The packet of a message is read exactly if the message does not nest too deep.** -/
theorem decode_packet_iff {m m' : ClusterMessage} (portable : m.Portable) :
    m.packet.decode codec = .ok m' ↔ (codec.encode m).depth ≤ Reading.nestingLimit ∧ m' = m :=
  Codec.read_bytes_iff_depth (codec_reads portable) m.codec_limited

/-- A message of datasets nests three levels deeper than the deepest document. -/
theorem depth_datasets_le {d : Datasets} {n : ℕ} (room : 3 ≤ n) :
    (codec.encode (.datasets d)).depth ≤ n ↔
      ∀ dataset key j, d.document? dataset key = some j → j.depth + 3 ≤ n := by
  obtain ⟨n, rfl⟩ := Nat.exists_eq_add_of_le' room
  simp only [Nat.add_le_add_iff_right]
  rw [← Datasets.depth_encode_le]
  show max 0 (max (Datasets.codec.encode d).depth 0) + 1 ≤ n + 2 + 1 ↔ _
  omega

/-- A packet of datasets is read if no document nests too deep in it. -/
theorem exists_decode_datasets_iff {d : Datasets} (canonical : d.Canonical) :
    (∃ m, (datasets d).packet.decode codec = .ok m) ↔
      ∀ dataset key j, d.document? dataset key = some j → j.depth + 3 ≤ Reading.nestingLimit := by
  have portable : (datasets d).Portable := canonical
  rw [← depth_datasets_le (by decide)]
  constructor
  · rintro ⟨m, read⟩
    exact ((decode_packet_iff portable).1 read).1
  · intro depth
    exact ⟨_, (decode_packet_iff portable).2 ⟨depth, rfl⟩⟩

end ClusterMessage

/-! ### Stored documents -/

namespace Replica

variable {r t : Replica} {dataset key : String} {document : Json}

theorem open_datasets {s : Store} {u : Replica} (opened : Replica.open s = .ok u) :
    s.datasets = .ok u.datasets := by
  obtain ⟨tasks, -, opened⟩ := bind_eq_ok opened
  obtain ⟨groups, -, opened⟩ := bind_eq_ok opened
  obtain ⟨permissions, -, opened⟩ := bind_eq_ok opened
  obtain ⟨d, read, opened⟩ := bind_eq_ok opened
  obtain rfl := Except.ok.inj opened
  exact read

/-- What a store holds is loaded if every table is read. -/
theorem exists_open_iff {s : Store} : (∃ u, Replica.open s = .ok u) ↔
    ((∃ l, s.allTasks = .ok l) ∧ (∃ l, s.allGroups = .ok l) ∧ ∃ p, s.getPermissions = .ok p) ∧
      ∃ d, s.datasets = .ok d := by
  constructor
  · rintro ⟨u, opened⟩
    have read := open_datasets opened
    obtain ⟨tasks, ht, opened⟩ := bind_eq_ok opened
    obtain ⟨groups, hg, opened⟩ := bind_eq_ok opened
    obtain ⟨permissions, hp, -⟩ := bind_eq_ok opened
    exact ⟨⟨⟨tasks, ht⟩, ⟨groups, hg⟩, permissions, hp⟩, u.datasets, read⟩
  · rintro ⟨⟨⟨tasks, ht⟩, ⟨groups, hg⟩, permissions, hp⟩, d, hd⟩
    let u : Replica := {
      store := s
      tasks := byName tasks
      groups := groupsByName groups
      permissions
      datasets := d }
    refine ⟨u, ?_⟩
    rw [Replica.open, ht, hg, hp, hd]
    rfl

/-- What can be read once a document has been stored in a replica, which has become `t`. `rest` is
the store without the document. -/
structure Leaves (r : Replica) (dataset key : String) (document : Json) (t : Replica)
    (rest : Store) : Prop where
  /-- The document alone is read exactly if it does not nest too deep. -/
  alone : t.store.document? dataset key = .ok (some document) ↔
    document.depth ≤ Reading.nestingLimit
  /-- All documents are read exactly if it does not and the others are; then it is among them. -/
  all : (∃ d, t.store.datasets = .ok d) ↔
    document.depth ≤ Reading.nestingLimit ∧ ∃ d, rest.datasets = .ok d
  among : ∀ d, t.store.datasets = .ok d → d.document? dataset key = some document
  /-- The replica is opened again exactly if it does not and there is no other obstacle; then it
  holds the document. -/
  opened : (∃ u, Replica.open t.store = .ok u) ↔
    document.depth ≤ Reading.nestingLimit ∧ ∃ u, Replica.open rest = .ok u
  held : ∀ u, Replica.open t.store = .ok u → u.document? dataset key = some document
  /-- Everybody is told in one packet. It is read exactly if the document fits in with three levels
  around it and the packet would be read without it; then it brings the document. -/
  told : ∃ m, t.outbox = r.outbox ++ [m] ∧
    ((∃ m', m.packet.decode ClusterMessage.codec = .ok m') ↔
      document.depth + 3 ≤ Reading.nestingLimit ∧
        ∃ m', (ClusterMessage.datasets (r.datasets.eraseDocument dataset key)).packet.decode
          ClusterMessage.codec = .ok m') ∧
    ∀ m', m.packet.decode ClusterMessage.codec = .ok m' →
      ∃ d, m' = .datasets d ∧ d.document? dataset key = some document

/-- **A document that has been stored can be read again in every way, alone, with all others, after
a restart and by a peer, exactly up to a certain depth**, unless something else cannot be read. -/
theorem putDocument_leaves (canonical : document.Canonical) (others : r.datasets.Canonical)
    (put : r.putDocument dataset key document = (.ok (), t)) :
    ∃ there rest, r.store.deleteDocument dataset key = .ok (there, rest) ∧
      Leaves r dataset key document t rest := by
  unfold putDocument at put
  split at put
  · cases put
  · next stored =>
    obtain ⟨k, named, rfl, without⟩ := Store.putDocument_eq_ok stored
    obtain rfl := (Prod.mk.inj put).2
    refine ⟨_, _, without, ?_⟩
    have all := Store.exists_datasets_insert (s := r.store) (k := k) canonical
    constructor
    case alone => exact Store.document?_insert named canonical
    case all => exact all
    case among => exact fun d => Store.document?_datasets_insert named canonical
    case opened =>
      -- the other tables are the same
      rw [exists_open_iff, exists_open_iff]
      exact (and_congr_right' all).trans and_left_comm
    case held =>
      exact fun u opened => Store.document?_datasets_insert named canonical (open_datasets opened)
    case told =>
      have canonical := others.insertDocument dataset key canonical
      have portable : (ClusterMessage.datasets
          (r.datasets.insertDocument dataset key document)).Portable := canonical
      refine ⟨_, rfl, ?_, fun m' read => ?_⟩
      · rw [ClusterMessage.exists_decode_datasets_iff canonical,
          ClusterMessage.exists_decode_datasets_iff (others.eraseDocument dataset key),
          Datasets.forall_insertDocument]
      · obtain ⟨-, rfl⟩ := (ClusterMessage.decode_packet_iff portable).1 read
        exact ⟨_, rfl, by rw [Datasets.document?_insertDocument, if_pos ⟨rfl, rfl⟩]⟩

/-! ### A deep document -/

/-- A value inside of so many arrays. -/
def nested : ℕ → Json
  | 0 => .null
  | n + 1 => .array [nested n]

theorem depth_nested (n : ℕ) : (nested n).depth = n := by
  induction n with
  | zero => rfl
  | succ n ih =>
    show max (nested n).depth 0 + 1 = n + 1
    rw [ih, Nat.max_zero]

theorem canonical_nested (n : ℕ) : (nested n).Canonical := by
  induction n with
  | zero => trivial
  | succ n ih => exact ⟨ih, trivial⟩

theorem put_nested (n : ℕ) : fresh.putDocument "maps" "arena" (nested n) =
    (.ok (), (fresh.putDocument "maps" "arena" (nested n)).2) := rfl

theorem canonical_fresh : fresh.datasets.Canonical := fun _ mem => (List.not_mem_nil mem).elim

/-- One that nests 125 levels deep is read after a restart, but not by a peer. -/
theorem nested_leaves :
    (nested 125).Canonical ∧ fresh.datasets.Canonical ∧
      fresh.putDocument "maps" "arena" (nested 125) =
        (.ok (), (fresh.putDocument "maps" "arena" (nested 125)).2) ∧
      ∃ there rest, fresh.store.deleteDocument "maps" "arena" = .ok (there, rest) ∧
        Leaves fresh "maps" "arena" (nested 125)
          (fresh.putDocument "maps" "arena" (nested 125)).2 rest :=
  ⟨canonical_nested 125, canonical_fresh, put_nested 125,
    putDocument_leaves (canonical_nested 125) canonical_fresh (put_nested 125)⟩

/-- So not every document that is stored is read back, and a peer does not read every packet. -/
theorem not_read_back :
    (¬ ∀ (r t : Replica) (dataset key : String) (document : Json), document.Canonical →
      r.putDocument dataset key document = (.ok (), t) →
      t.store.document? dataset key = .ok (some document)) ∧
    ¬ ∀ (r t : Replica) (dataset key : String) (document : Json), document.Canonical →
      r.putDocument dataset key document = (.ok (), t) →
      ∀ m ∈ t.outbox, ∃ m', m.packet.decode ClusterMessage.codec = .ok m' := by
  constructor
  · intro back
    have read := back fresh _ "maps" "arena" _ (canonical_nested 128) (put_nested 128)
    have depth := (Store.document?_insert rfl (canonical_nested 128)).1 read
    rw [depth_nested] at depth
    exact absurd depth (by decide)
  · intro back
    have read := back fresh _ "maps" "arena" _ (canonical_nested 125) (put_nested 125) _
      (List.mem_singleton_self _)
    have canonical := canonical_fresh.insertDocument "maps" "arena" (canonical_nested 125)
    have depth := (ClusterMessage.exists_decode_datasets_iff canonical).1 read "maps" "arena" _
      (by rw [Datasets.document?_insertDocument, if_pos ⟨rfl, rfl⟩])
    rw [depth_nested] at depth
    exact absurd depth (by decide)

end Replica

end WorkerCluster
