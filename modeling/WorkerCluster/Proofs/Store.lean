import Mathlib.Data.List.TakeWhile
import WorkerCluster.Proofs.Message
import WorkerCluster.Proofs.Replica

/-!
# Stores read back

* `Codec.Nests` bounds how deep the JSON of a type nests; that of tasks and groups can always be
  read.
* `Rows.of` is the table of the values of a map. Writing, removing and replacing rows is doing so to
  the map, and `Rows.all?_of` reads it back.
* `Store.documentKey_eq_ok` and `Store.splitKey_eq_some` put the key of a document's row together
  and take it apart.
-/

namespace WorkerCluster

open Json (Codec Field Fields)

/-! ### How deep values nest -/

namespace Json

variable {α β : Type} {n : ℕ}

theorem depthItems_le {items : List Json} (h : ∀ j ∈ items, j.depth ≤ n) :
    depthItems items ≤ n := by
  induction items with
  | nil => exact n.zero_le
  | cons j items ih =>
    obtain ⟨first, rest⟩ := List.forall_mem_cons.1 h
    exact max_le first (ih rest)

theorem depthFields_le {entries : List (String × Json)} (h : ∀ e ∈ entries, e.2.depth ≤ n) :
    depthFields entries ≤ n := by
  induction entries with
  | nil => exact n.zero_le
  | cons e entries ih =>
    obtain ⟨first, rest⟩ := List.forall_mem_cons.1 h
    exact max_le first (ih rest)

/-- The JSON of a type nests no deeper. -/
def Codec.Nests (c : Codec α) (n : ℕ) : Prop := ∀ a, (c.encode a).depth ≤ n

/-- The values of some fields nest no deeper. -/
def Fields.Nests {αs : List Type} (fs : Fields αs) (n : ℕ) : Prop :=
  ∀ values, depthFields (fs.encode values) ≤ n

theorem string_nests : Codec.string.Nests n := fun _ => n.zero_le
theorem bool_nests : Codec.bool.Nests n := fun _ => n.zero_le
theorem uint64_nests : Codec.uint64.Nests n := fun _ => n.zero_le
theorem uint32_nests : Codec.uint32.Nests n := fun _ => n.zero_le
theorem uint16_nests : Codec.uint16.Nests n := fun _ => n.zero_le

theorem option_nests {c : Codec α} (h : c.Nests n) : c.option.Nests n
  | none => n.zero_le
  | some a => h a

theorem list_nests {c : Codec α} (h : c.Nests n) : c.list.Nests (n + 1) := by
  intro l
  refine Nat.succ_le_succ (depthItems_le fun j hj => ?_)
  obtain ⟨a, -, rfl⟩ := List.mem_map.1 hj
  exact h a

theorem map_nests {c : Codec α} (h : c.Nests n) : c.map.Nests (n + 1) := by
  intro m
  refine Nat.succ_le_succ (depthFields_le fun e he => ?_)
  obtain ⟨a, -, rfl⟩ := List.mem_map.1 he
  exact h a.2

theorem Fields.Nests.nil : Fields.nil.Nests n := fun _ => n.zero_le

theorem Fields.Nests.cons {αs : List Type} {f : Field α} {rest : Fields αs}
    (first : f.codec.Nests n) (h : rest.Nests n) : (Fields.cons f rest).Nests n :=
  fun (a, values) => max_le (first a) (h values)

theorem record_nests {αs : List Type} {fs : Fields αs} {parts : β → Fields.Values αs}
    {make : Fields.Values αs → β} (h : fs.Nests n) : (fs.record parts make).Nests (n + 1) :=
  fun b => Nat.succ_le_succ (h (parts b))

end Json

open Json

theorem Template.codec_nests {n : ℕ} : Template.codec.Nests (n + 1) :=
  record_nests (.cons string_nests <| .cons string_nests <| .cons string_nests .nil)

theorem Inclusion.codec_nests {n : ℕ} : Inclusion.codec.Nests (n + 1) :=
  record_nests (.cons string_nests <| .cons string_nests .nil)

theorem Deployment.codec_nests {n : ℕ} : Deployment.codec.Nests (n + 2) :=
  record_nests (.cons Template.codec_nests <| .cons (list_nests string_nests) .nil)

theorem Program.codec_nests {n : ℕ} : Program.codec.Nests (n + 2) :=
  record_nests (.cons string_nests <| .cons (list_nests string_nests) <| .cons uint64_nests <|
    .cons (map_nests string_nests) .nil)

/-- Groups can be read, whatever they hold. -/
theorem GroupSpec.codec_nests : GroupSpec.codec.Nests Reading.nestingLimit :=
  record_nests (.cons string_nests <| .cons (list_nests Template.codec_nests) <|
    .cons (list_nests Inclusion.codec_nests) <| .cons (list_nests Deployment.codec_nests) .nil)

/-- Tasks can be read, whatever they hold. -/
theorem TaskSpec.codec_nests : TaskSpec.codec.Nests Reading.nestingLimit :=
  record_nests (.cons string_nests <| .cons uint32_nests <| .cons (list_nests string_nests) <|
    .cons bool_nests <| .cons (list_nests string_nests) <|
    .cons (list_nests Template.codec_nests) <| .cons (list_nests Inclusion.codec_nests) <|
    .cons (list_nests Deployment.codec_nests) <| .cons Program.codec_nests <|
    .cons (option_nests uint16_nests) <| .cons bool_nests <| .cons bool_nests .nil)

/-! ### Rows -/

namespace Rows

variable {α : Type} {c : Codec α} {m : SortedMap String α}

/-- The table of the values of a map. -/
def of (c : Codec α) (m : SortedMap String α) : Rows := m.map fun _ a => (c.encode a).bytes

theorem put_of (key : String) (a : α) : (of c m).put c key a = of c (m.insert key a) :=
  (SortedMap.map_insert ..).symm

theorem erase_of (key : String) : (of c m).erase key = of c (m.erase key) :=
  (SortedMap.map_erase ..).symm

theorem ofValues_eq (l : List (String × α)) : ofValues c l = of c (.ofList l) := by
  apply SortedMap.ext
  intro key
  rw [ofValues, of, SortedMap.find?_map, SortedMap.find?_ofList, SortedMap.find?_ofList,
    List.filter_map, List.getLast?_map, Option.map_map, Option.map_map]
  rfl

/-- **A table is read back as the map of which it is the table.** -/
theorem all?_of (reads : ∀ key a, m.find? key = some a → c.read (c.encode a).bytes = .ok a) :
    (of c m).all? c = .ok m.entries := by
  have row : ∀ e ∈ m.entries, (e.1, ·) <$> readRow c (c.encode e.2).bytes = .ok e := by
    intro e he
    rw [readRow, reads e.1 e.2 (SortedMap.mem_entries.1 he)]
    rfl
  unfold all? of SortedMap.map
  dsimp only
  rw [List.mapM_map]
  exact (Codec.mapM_ok (g := id) row).trans (congrArg _ m.entries.map_id)

end Rows

/-! ### Keys of documents -/

namespace Store

variable {dataset key joined : String}

/-- A dataset has no slash in its name, so that it ends at the first slash. -/
theorem splitKey_eq_some : splitKey joined = some (dataset, key) ↔
    '/' ∉ dataset.toList ∧ joined = dataset ++ "/" ++ key := by
  unfold splitKey
  rw [List.span_eq_takeWhile_dropWhile]
  have whole := List.takeWhile_append_dropWhile (p := (· != '/')) (l := joined.toList)
  constructor
  · intro split
    cases rest : joined.toList.dropWhile (· != '/') with
    | nil =>
      rw [rest] at split
      cases split
    | cons slash tail =>
      rw [rest] at split whole
      obtain ⟨rfl, rfl⟩ := Prod.mk.inj (Option.some.inj split)
      have stops := List.head?_dropWhile_not (· != '/') joined.toList
      rw [rest] at stops
      obtain rfl : slash = '/' := by simpa using stops
      refine ⟨fun mem => ?_, String.ext ?_⟩
      · rw [String.toList_ofList] at mem
        simpa using List.mem_takeWhile_imp mem
      · exact whole.symm.trans (by simp)
  · rintro ⟨plain, rfl⟩
    have front : ∀ c ∈ dataset.toList, (c != '/') = true := by
      intro c mem
      simpa using fun e : c = '/' => plain (e ▸ mem)
    have parts : (dataset ++ "/" ++ key).toList = dataset.toList ++ '/' :: key.toList := by simp
    rw [parts, List.takeWhile_append_of_pos front, List.dropWhile_append_of_pos front]
    simp

theorem documentKey_eq_ok {k : String} : documentKey dataset key = .ok k ↔
    dataset ≠ "" ∧ '/' ∉ dataset.toList ∧ key ≠ "" ∧ k = dataset ++ "/" ++ key := by
  unfold documentKey
  by_cases named : dataset = ""
  · simp [named]
  · by_cases plain : '/' ∈ dataset.toList
    · simp [plain]
    · by_cases keyed : key = ""
      · simp [named, plain, keyed]
      · simp only [ne_eq, named, plain, keyed, not_false_eq_true, true_and]
        rw [if_neg (by simp [named, plain]), if_neg (by simp [keyed])]
        exact ⟨fun h => (Except.ok.inj h).symm, fun h => congrArg _ h.symm⟩

end Store

end WorkerCluster
