import WorkerCluster.Command.Execution
import WorkerCluster.Proofs.Config.Valid
import WorkerCluster.Proofs.Host.Writing
import WorkerCluster.Proofs.Message
import WorkerCluster.Proofs.Text.Utf8
import WorkerCluster.Proofs.Toml.Document
import WorkerCluster.Proofs.Toml.Table

/-!
# Configurations read back

A configuration that makes sense is read back from its text, and a node can be loaded from what has
been scaffolded for it.

* `Config.entries` and `Config.sections` are what the text of a configuration says: `of_toml`. They
  make the table `Config.table`: `parse_document`.
* `Config.Portable` says what a file can hold of a configuration. `read_table` reads it back from
  its table, as JSON is read; `parse_toml` puts both halves together.
* `Command.load_writeScaffold` takes that to the files of the host.
-/

namespace WorkerCluster

open Json Toml
open Json.Codec (string_reads bool_reads uint16_reads uint32_reads uint64_reads list_reads)
open Json.Fields (record_reads)

/-! ### What a configuration says -/

namespace Config

/-- The entries of an identity. -/
def identityEntries (n : NodeIdentity) : Entries :=
  [("id", .string n.id), ("listeners", .array ((n.listeners.map (·.text)).map .string))]

/-- The entry of a text, if it is given, before others. -/
def optionalEntry (key : String) (value : Option String) (es : Entries) : Entries :=
  match value with
  | none => es
  | some v => (key, .string v) :: es

/-- The entries before all sections. -/
def entries (c : Config) : Entries :=
  [("max_memory_mb", .integer c.maxMemory.toNat), ("tps", .integer c.ticksPerSecond.toNat),
    ("data_dir", .string c.dataDirectory), ("rpc_timeout_ms", .integer c.answerTimeout.toNat)]

/-- The entries about peers that do not stand with one of them. -/
def clusterEntries (c : ClusterConfig) : Entries :=
  ("secret", .string c.secret) :: if c.nodes = [] then [("nodes", .array [])] else []

/-- The entries about certificates. -/
def certificateEntries (c : CertificateConfig) : Entries :=
  ("enabled", .bool c.enabled) :: optionalEntry "cert" c.certificate
    (optionalEntry "key" c.key (optionalEntry "ca" c.authority []))

/-- The entries about workers. -/
def workerEntries (c : WorkerConfig) : Entries :=
  [("start_port", .integer c.startPort.toNat), ("working_dir", .string c.directory),
    ("stop_timeout_ms", .integer c.stopTimeout.toNat),
    ("log_cache_lines", .integer c.logLines.toNat)]

/-- The section about peers. -/
def clusterSection (c : ClusterConfig) : Section :=
  { name := "cluster", entries := clusterEntries c, array := "nodes"
    items := c.nodes.map identityEntries }

/-- The sections. -/
def sections (c : Config) : List Section :=
  [{ name := "identity", entries := identityEntries c.identity },
    clusterSection c.cluster,
    { name := "tls", entries := certificateEntries c.certificates },
    { name := "services", entries := workerEntries c.workers }]

/-! ### Lines -/

theorem says_text {key : String} (h : IsKey key) (value : String) :
    Says (textLine key value) [.entry [] key (.string value)] := .entry h (.string value)

theorem says_optional {key : String} (h : IsKey key) (value : Option String) {text : List Char}
    {es : Entries} (more : Says text (entryStatements es)) :
    Says (optionalLine key value ++ text) (entryStatements (optionalEntry key value es)) := by
  cases value with
  | none => exact more
  | some v => exact (says_text h v).append more

theorem says_number {key : String} {n : ℕ} {line : List Char} (h : IsKey key)
    (written : numberLine key n = some line) : Says line [.entry [] key (.integer n)] := by
  unfold numberLine at written
  split at written
  · next fits =>
    obtain rfl := Option.some.inj written
    exact .entry h (.integer fits)
  · cases written

theorem says_header {name : String} (h : IsKey name) : Says (header name) [.table [] name] :=
  Says.blank.append (.table h)

theorem says_addresses {key : String} (h : IsKey key) (addresses : List Address) :
    Says (addressLines key addresses)
      [.entry [] key (.array ((addresses.map (·.text)).map .string))] := by
  have value := Says.entry h (Writes.strings (addresses.map (·.text)))
  match addresses with
  | [] => exact value
  | [a] => exact value
  | a :: b :: l =>
    have lines : arrayText ((a :: b :: l).map (·.text)) = ['[', '\n'] ++ (a :: b :: l).flatMap
        (fun a => [' ', ' ', ' ', ' '] ++ Quoted.write a.text.toList ++ [',', '\n']) ++ [']'] := by
      rw [List.map_cons, List.map_cons, arrayText, ← List.map_cons, ← List.map_cons,
        List.flatMap_map]
      · rfl
      · simp
      · simp
    rw [lines] at value
    exact value

theorem says_identity (n : NodeIdentity) :
    Says (identityLines n) (entryStatements (identityEntries n)) :=
  (says_text (by decide) n.id).append (says_addresses (by decide) n.listeners)

/-- The header of one more peer. -/
theorem says_peer : Says "\n[[cluster.nodes]]\n".toList [.element ["cluster"] "nodes"] :=
  Says.blank.append <| .statement ⟨_, _, rfl, by decide⟩ fun _ => rfl

theorem says_peers (l : List NodeIdentity) :
    Says (peerLines l) (entryStatements (if l = [] then [("nodes", .array [])] else []) ++
      (l.map identityEntries).flatMap fun es =>
        .element ["cluster"] "nodes" :: entryStatements es) := by
  have each (l : List NodeIdentity) :
      Says (l.flatMap fun n => "\n[[cluster.nodes]]\n".toList ++ identityLines n)
        ((l.map identityEntries).flatMap fun es =>
          .element ["cluster"] "nodes" :: entryStatements es) := by
    induction l with
    | nil => exact .nil
    | cons n l ih =>
      exact (says_peer.append (says_identity n)).append ih
  cases l with
  | nil => exact .entry (by decide : IsKey "nodes") (.strings [])
  | cons n l => exact each (n :: l)

theorem says_certificates (c : CertificateConfig) :
    Says ((if c.enabled then "enabled = true\n" else "enabled = false\n").toList ++
        optionalLine "cert" c.certificate ++ optionalLine "key" c.key ++
        optionalLine "ca" c.authority) (entryStatements (certificateEntries c)) := by
  have enabled : Says (if c.enabled then "enabled = true\n" else "enabled = false\n").toList
      [.entry [] "enabled" (.bool c.enabled)] := by
    have line := Says.entry (by decide : IsKey "enabled") (.bool c.enabled)
    cases on : c.enabled <;> rw [on] at line <;> exact line
  have rest : Says [] (entryStatements []) := .nil
  have all := enabled.append <| says_optional (by decide : IsKey "cert") c.certificate <|
    says_optional (by decide : IsKey "key") c.key <|
    says_optional (by decide : IsKey "ca") c.authority rest
  rw [List.append_nil, ← List.append_assoc, ← List.append_assoc] at all
  exact all

/-- The numbers fit what a file has for them. -/
structure Fits (c : Config) : Prop where
  maxMemory : c.maxMemory.toNat < 0x8000000000000000
  answerTimeout : c.answerTimeout.toNat < 0x8000000000000000
  stopTimeout : c.workers.stopTimeout.toNat < 0x8000000000000000
  logLines : c.workers.logLines.toNat < 0x8000000000000000

theorem exists_numberLine_iff (key : String) {n : ℕ} :
    (∃ line, numberLine key n = some line) ↔ n < 0x8000000000000000 := by
  unfold numberLine
  split <;> simp [*]

/-- **If a configuration has a text, its numbers fit, and the text says its entries and
sections.** -/
theorem of_toml {c : Config} {text : String} (h : c.toml = some text) :
    c.Fits ∧ text.toList.head? = some 'm' ∧
      Says text.toList (entryStatements c.entries ++ c.sections.flatMap (·.statements)) := by
  obtain ⟨maxMemory, hMemory, h⟩ := Option.bind_eq_some_iff.1 h
  obtain ⟨ticks, hTicks, h⟩ := Option.bind_eq_some_iff.1 h
  obtain ⟨answerTimeout, hAnswer, h⟩ := Option.bind_eq_some_iff.1 h
  obtain ⟨startPort, hPort, h⟩ := Option.bind_eq_some_iff.1 h
  obtain ⟨stopTimeout, hStop, h⟩ := Option.bind_eq_some_iff.1 h
  obtain ⟨logLines, hLines, h⟩ := Option.bind_eq_some_iff.1 h
  obtain rfl := Option.some.inj h
  rw [String.toList_ofList]
  refine ⟨⟨(exists_numberLine_iff _).1 ⟨_, hMemory⟩, (exists_numberLine_iff _).1 ⟨_, hAnswer⟩,
    (exists_numberLine_iff _).1 ⟨_, hStop⟩, (exists_numberLine_iff _).1 ⟨_, hLines⟩⟩, ?_, ?_⟩
  · rw [numberLine, if_pos ((exists_numberLine_iff _).1 ⟨_, hMemory⟩)] at hMemory
    obtain rfl := Option.some.inj hMemory
    simp
  · have root : Says (maxMemory ++ ticks ++ textLine "data_dir" c.dataDirectory ++ answerTimeout)
        (entryStatements c.entries) :=
      (((says_number (by decide) hMemory).append (says_number (by decide) hTicks)).append
        (says_text (by decide) c.dataDirectory)).append
        (says_number (by decide : IsKey "rpc_timeout_ms") hAnswer)
    have identity := (says_header (by decide : IsKey "identity")).append (says_identity c.identity)
    have cluster := ((says_header (by decide : IsKey "cluster")).append
      (says_text (by decide : IsKey "secret") c.cluster.secret)).append (says_peers c.cluster.nodes)
    have certificates := (says_header (by decide : IsKey "tls")).append
      (says_certificates c.certificates)
    have workers := (says_header (by decide : IsKey "services")).append
      ((((says_number (by decide) hPort).append (says_text (by decide : IsKey "working_dir")
        c.workers.directory)).append (says_number (by decide) hStop)).append
        (says_number (by decide) hLines))
    -- the parts of the text stand in the order of the sections
    have all := root.append (identity.append (cluster.append (certificates.append workers)))
    simpa [sections, Section.statements, clusterSection, clusterEntries, entryStatements,
      workerEntries] using all

/-- There is a text if the numbers fit. -/
theorem exists_toml_iff {c : Config} : (∃ text, c.toml = some text) ↔ c.Fits := by
  refine ⟨fun ⟨_, h⟩ => (of_toml h).1, ?_⟩
  rintro ⟨memory, answer, stop, lines⟩
  have ticks := c.ticksPerSecond.toNat_lt
  have port := c.workers.startPort.toNat_lt
  obtain ⟨_, memory⟩ := (exists_numberLine_iff "max_memory_mb").2 memory
  obtain ⟨_, ticks⟩ := (exists_numberLine_iff "tps").2 (ticks.trans (by decide))
  obtain ⟨_, answer⟩ := (exists_numberLine_iff "rpc_timeout_ms").2 answer
  obtain ⟨_, port⟩ := (exists_numberLine_iff "start_port").2 (port.trans (by decide))
  obtain ⟨_, stop⟩ := (exists_numberLine_iff "stop_timeout_ms").2 stop
  obtain ⟨_, lines⟩ := (exists_numberLine_iff "log_cache_lines").2 lines
  rw [toml, memory, ticks, answer, port, stop, lines]
  exact ⟨_, rfl⟩

end Config

/-! ### What a reader is given

Numbers, texts and identities come out as JSON holds them, so that they are read as from there.
-/

namespace Toml

theorem sources_eq_map (l : List Value) : Value.sources l = l.map Value.source := by
  induction l with
  | nil => rfl
  | cons v l ih => rw [Value.sources, ih]; rfl

theorem tableSources_eq_map (l : List Entries) :
    Value.tableSources (l.map (.defined, ·)) =
      l.map fun es => .fields (Value.entrySources es) none := by
  induction l with
  | nil => rfl
  | cons es l ih => rw [List.map_cons, Value.tableSources, ih]; rfl

theorem source_integer (n : UInt64) :
    (Value.integer n.toNat).source = Source.ofJson (Codec.uint64.encode n) := by
  have := n.toNat_lt
  rw [Value.source, dif_pos ⟨by omega, by omega⟩]
  rfl

end Toml

namespace Config

theorem source_identity (n : NodeIdentity) :
    Source.fields (Value.entrySources (identityEntries n)) none =
      Source.ofJson (NodeIdentity.codec.encode n) := by
  have listeners : (Value.array ((n.listeners.map (·.text)).map .string)).source =
      Source.ofJson (Address.codec.list.encode n.listeners) := by
    change Source.array (Value.sources _) none = Source.array (Source.ofItems _) none
    rw [sources_eq_map, ofItems_eq_map, List.map_map, List.map_map, List.map_map]
    rfl
  change Source.fields [_, (_, (Value.array _).source)] none = _
  rw [listeners]
  rfl

theorem source_peers (l : List NodeIdentity) :
    Value.entrySources ((if l = [] then [("nodes", .array [])] else []) ++
      arrayEntry "nodes" (l.map identityEntries)) =
    [(.ofScalar (.string "nodes"), Source.ofJson (NodeIdentity.codec.list.encode l))] := by
  cases l with
  | nil => rfl
  | cons n l =>
    rw [if_neg (List.cons_ne_nil n l), arrayEntry, if_neg (by simp)]
    change [(_, Source.array (Value.tableSources _) none)] =
      [(_, Source.array (Source.ofItems _) none)]
    rw [tableSources_eq_map, ofItems_eq_map, List.map_map, List.map_map]
    refine congrArg (fun l => [(_, Source.array l none)]) (List.map_congr_left fun n _ => ?_)
    exact source_identity n

/-- What can be written as JSON is read from a file. -/
theorem read_file {α : Type} {c : Codec α} {a : α} (h : c.Reads a) :
    c.decode .lenient (Source.ofJson (c.encode a)) = .ok a := h .lenient trivial

theorem read_cluster {c : ClusterConfig} (h : ∀ n ∈ c.nodes, n.Portable) :
    clusterCodec.decode .lenient
      (Source.fields (Value.entrySources (clusterSection c).content) none) = .ok c := by
  have source : Source.fields (Value.entrySources (clusterSection c).content) none =
      Source.ofJson (clusterCodec.encode c) := by
    change Source.fields ((_, _) ::
      Value.entrySources (_ ++ arrayEntry "nodes" (c.nodes.map _))) none = _
    rw [source_peers]
    rfl
  rw [source]
  exact read_file <| record_reads (by decide)
    ⟨string_reads _, list_reads fun n hn => NodeIdentity.codec_reads (h n hn), trivial⟩ rfl

theorem read_uint64 (n : UInt64) :
    Codec.uint64.decode .lenient (Value.integer n.toNat).source = .ok n := by
  rw [source_integer]
  exact read_file (uint64_reads n)

theorem read_uint32 (n : UInt32) :
    Codec.uint32.decode .lenient (Value.integer n.toNat).source = .ok n := by
  have source := source_integer n.toUInt64
  rw [UInt32.toNat_toUInt64] at source
  rw [source]
  exact read_file (uint32_reads n)

theorem read_uint16 (n : UInt16) :
    Codec.uint16.decode .lenient (Value.integer n.toNat).source = .ok n := by
  have source := source_integer n.toUInt64
  rw [UInt16.toNat_toUInt64] at source
  rw [source]
  exact read_file (uint16_reads n)

section

variable {α : Type} {αs : List Type} {rest : Fields αs} {es : Entries} {values : Fields.Values αs}

/-- An entry gives a field that may be missing. -/
theorem shows_entry {c : Codec α} {a d : α} {key : String} {v : Value}
    (read : c.decode .lenient v.source = .ok a)
    (others : rest.Shows .lenient (Value.entrySources es) values) :
    (Fields.cons (.withDefault key c d) rest).Shows .lenient
      (Value.entrySources ((key, v) :: es)) (a, values) := .given read others

/-- A text that is given is read, and one that is not is missing. -/
theorem shows_optional {key : String} {value : Option String}
    (others : rest.Shows .lenient (Value.entrySources es) values) :
    (Fields.cons (.optional key .string) rest).Shows .lenient
      (Value.entrySources (optionalEntry key value es)) (value, values) := by
  cases value with
  | none => exact .missing rfl others
  | some v => exact .given rfl others

end

theorem read_workers (c : WorkerConfig) :
    workerCodec.decode .lenient (Source.fields (Value.entrySources (workerEntries c)) none) =
      .ok c :=
  Fields.Shows.decode_record (by decide)
    (shows_entry (read_uint16 c.startPort) <| shows_entry (read_file (string_reads c.directory)) <|
      shows_entry (read_uint64 c.stopTimeout) <| shows_entry (read_uint64 c.logLines) .nil) rfl rfl

theorem read_certificates (c : CertificateConfig) :
    certificateCodec.decode .lenient
      (Source.fields (Value.entrySources (certificateEntries c)) none) = .ok c :=
  Fields.Shows.decode_record (by decide)
    (shows_entry (read_file (bool_reads c.enabled)) <| shows_optional <| shows_optional <|
      shows_optional .nil) rfl rfl

instance (n : NodeIdentity) : Decidable n.Portable :=
  inferInstanceAs (Decidable (∀ a ∈ n.listeners, a.host ≠ ""))

/-- The listeners of the node and of its peers have hosts. -/
structure Portable (c : Config) : Prop where
  identity : c.identity.Portable
  peers : ∀ n ∈ c.cluster.nodes, n.Portable

/-- The table of a configuration. -/
def table (c : Config) : Table :=
  ⟨.defined, c.entries ++ c.sections.map fun s => (s.name, .table .defined s.content)⟩

theorem read_table {c : Config} (h : c.Portable) :
    Config.codec.decode .lenient c.table.source = .ok c := by
  have identity := read_file (NodeIdentity.codec_reads h.identity)
  rw [← source_identity] at identity
  have certificates := read_certificates c.certificates
  -- the section holds its entries and then those of its array, of which there are none
  rw [← (certificateEntries c.certificates).append_nil] at certificates
  exact Fields.Shows.decode_record (by decide)
    (shows_entry (read_uint64 c.maxMemory) <| shows_entry (read_uint32 c.ticksPerSecond) <|
      shows_entry (read_file (string_reads c.dataDirectory)) <|
      shows_entry (read_uint64 c.answerTimeout) <| .given identity <|
      .given (read_cluster h.peers) <| .given certificates <| .given (read_workers c.workers) .nil)
    rfl rfl

/-! ### From the text to the configuration -/

theorem sound_sections (c : Config) : ∀ s ∈ c.sections, s.Sound := by
  have identity (n : NodeIdentity) : (keys (identityEntries n)).Nodup := by
    simp [identityEntries, keys]
  simp only [sections, List.forall_mem_cons, List.not_mem_nil, false_imp_iff, implies_true,
    and_true]
  refine ⟨⟨identity _, by simp, by simp⟩, ⟨?_, ?_, ?_⟩, ⟨?_, by simp, by simp⟩,
    ⟨?_, by simp, by simp⟩⟩
  · unfold clusterSection clusterEntries
    split <;> simp [keys]
  · rw [clusterSection, List.forall_mem_map]
    exact fun n _ => identity n
  · intro some
    have some : c.cluster.nodes ≠ [] := fun none => some (by rw [clusterSection, none]; rfl)
    simp [clusterSection, clusterEntries, keys, some]
  · simp only [certificateEntries, optionalEntry]
    split <;> split <;> split <;> simp [keys]
  · simp [workerEntries, keys]

/-- The text of a configuration is that of its table. -/
theorem parse_document {c : Config} {text : String} (h : c.toml = some text) :
    Document.parse text = some c.table := by
  -- no byte order mark comes first, which would not belong to the text
  obtain ⟨-, head, said⟩ := of_toml h
  obtain ⟨rest, first⟩ := List.head?_eq_some_iff.1 head
  have tells := said [] [] tells_nil
  rw [List.append_nil, List.append_nil, first] at tells
  have statements : Document.statements? text =
      some (entryStatements c.entries ++ c.sections.flatMap (·.statements)) := by
    unfold Document.statements?
    rw [first]
    exact tells _ (Nat.lt_succ_self _)
  rw [Document.parse, statements]
  exact Table.ofStatements?_sections c.sound_sections
    (by simp [entries, sections, clusterSection, keys])

/-- **A configuration that makes sense is read back from its text.** -/
theorem parse_toml {c : Config} {text : String} (valid : c.validate = .ok ()) (h : c.Portable)
    (written : c.toml = some text) : parse text = .ok c := by
  rw [parse, parse_document written, Option.map_some, read_table h]
  dsimp only
  rw [valid]

/-! ### Scaffolds -/

theorem fits_scaffold (id : NodeId) : (scaffold id).Fits :=
  ⟨(by decide : 2048 < _), (by decide : 5000 < _), (by decide : 5000 < _), (by decide : 64 < _)⟩

theorem portable_scaffold (id : NodeId) : (scaffold id).Portable where
  identity := List.forall_mem_singleton.2 (by decide : "0.0.0.0" ≠ "")
  peers n hn := absurd hn List.not_mem_nil

/-- A node alone needs no more than an id. -/
theorem validate_scaffold {id : NodeId} :
    (scaffold id).validate = .ok () ↔ Text.isBlankText id = false := by
  rw [validate_eq_ok_iff]
  refine and_iff_left ⟨List.cons_ne_nil _ _, (by decide : (10 : UInt32) ≠ 0),
    (by decide : (10 : UInt32) ≤ 1000), rfl, fun enabled => ?_⟩
  cases enabled

end Config

namespace Command

theorem writeScaffold_eq_ok {t u : FileTree} {path : String} {id : NodeId}
    (h : writeScaffold t path id = .ok u) :
    ∃ p text, t.place [] path = some p ∧ (Config.scaffold id).validate = .ok () ∧
      (Config.scaffold id).toml = some text ∧ t.write p text = some u := by
  unfold writeScaffold at h
  dsimp only at h
  split at h
  · cases h
  · split at h
    · cases h
    · next sound =>
      have valid : (Config.scaffold id).validate = .ok () := by
        cases e : (Config.scaffold id).validate with
        | error p => exact absurd e (sound p)
        | ok _ => rfl
      split at h
      · next p text placed written =>
        split at h
        · next put =>
          obtain rfl := Except.ok.inj h
          exact ⟨p, text, placed, valid, written, put⟩
        · cases h
      · cases h

/-- **What has been scaffolded can be loaded.** -/
theorem load_writeScaffold {t u : FileTree} {path : String} {id : NodeId}
    (h : writeScaffold t path id = .ok u) : load u path = .ok (.scaffold id) := by
  obtain ⟨p, text, placed, valid, written, put⟩ := writeScaffold_eq_ok h
  have found : u.file? p = some text := by rw [FileTree.file?_write put, if_pos rfl]
  rw [load, FileTree.place_congr (FileTree.directories_write put), placed, Option.bind_some, found,
    Option.map_some, Config.load, Text.fromUTF8?_toUTF8]
  dsimp only
  rw [Config.parse_toml valid (Config.portable_scaffold id) written]

end Command

/-- **Configurations survive saving and loading.** There is a text if all numbers fit, and what
makes sense is read back from it. In particular, what has been scaffolded can be loaded. -/
theorem Config.survives_saving :
    (∀ c : Config, (∃ text, c.toml = some text) ↔ c.Fits) ∧
      (∀ (c : Config) (text : String), c.validate = .ok () → c.Portable → c.toml = some text →
        parse text = .ok c) ∧
      (∀ id, (scaffold id).validate = .ok () →
        ∃ text, (scaffold id).toml = some text ∧ parse text = .ok (scaffold id)) ∧
      ∀ t path id u, (Command.init path id).execute t = (.ok none, u) →
        Command.load u path = .ok (scaffold id) := by
  refine ⟨fun _ => exists_toml_iff, fun _ _ => parse_toml, fun id valid => ?_,
    fun t path id u done => ?_⟩
  · obtain ⟨text, written⟩ := exists_toml_iff.2 (fits_scaffold id)
    exact ⟨text, written, parse_toml valid (portable_scaffold id) written⟩
  · rw [Command.execute] at done
    split at done
    · next written =>
      obtain rfl := (Prod.mk.inj done).2
      exact Command.load_writeScaffold written
    · cases (Prod.mk.inj done).1

/-- A configuration with quotes, line breaks and other characters that have to be escaped. -/
def Config.quoted : Config where
  dataDirectory := "C:\\data\n'''\"\"\"\t"
  identity := { id := "no\"de\\", listeners := [⟨"::1", 80⟩, ⟨"a'b", 0⟩] }
  cluster := { secret := "\x01\x7f", nodes := [{ id := "", listeners := [⟨"\n", 65535⟩] }] }
  certificates := { key := some "''''" }

theorem Config.quoted_survives :
    ∃ text, Config.quoted.toml = some text ∧ Config.parse text = .ok Config.quoted := by
  obtain ⟨text, written⟩ :=
    (Config.survives_saving.1 Config.quoted).2 ⟨by decide, by decide, by decide, by decide⟩
  have portable : Config.quoted.Portable := ⟨by decide, by decide⟩
  exact ⟨text, written,
    Config.survives_saving.2.1 Config.quoted text (by decide) portable written⟩

end WorkerCluster
