import Mathlib.Tactic
import WorkerCluster.SortedMap

/-!
# Laws of sorted maps

More of the view `find?`: entries, keys and values through it, the maps that `map`, `modify` and
`ofList` build, and what happens when one key is written twice.

* `mem_entries`, `mem_keys` and `mem_values` say which entries, keys and values there are.
* `find?_ofList` says that the last entry of a key wins; `ofList_entries` rebuilds a map.
* `sum_insert` and `sum_erase` say what one key adds to a sum over all values.
-/

namespace WorkerCluster.SortedMap

variable {κ : Type} [KeyOrder κ] {α β : Type}

/-! ### Entries -/

theorem lookup_eq_some {k : κ} {a : α} {l : List (κ × α)}
    (h : l.Pairwise (fun a b => a.1 < b.1)) : lookup k l = some a ↔ (k, a) ∈ l := by
  induction l with
  | nil => simp [lookup]
  | cons x rest ih =>
    obtain ⟨kx, ax⟩ := x
    obtain ⟨hx, hrest⟩ := List.pairwise_cons.1 h
    have hlt : ∀ b, (k, b) ∈ rest → kx < k := fun b hb => hx _ hb
    by_cases h₁ : k < kx
    · have hne : k ≠ kx := KeyOrder.ne_of_lt h₁
      have hmem : (k, a) ∉ rest := fun hm => KeyOrder.asymm h₁ (hlt a hm)
      simp [lookup, h₁, hne, hmem]
    · by_cases h₂ : kx < k
      · have hne : k ≠ kx := fun e => KeyOrder.ne_of_lt h₂ e.symm
        simp [lookup, h₁, h₂, hne, ih hrest]
      · cases KeyOrder.connex h₁ h₂
        have hmem : (k, a) ∉ rest := fun hm => KeyOrder.irrefl k (hlt a hm)
        simp [lookup, KeyOrder.irrefl, hmem, eq_comm]

/-- The entries are the pairs of a key and its value. -/
theorem mem_entries {m : SortedMap κ α} {k : κ} {a : α} :
    (k, a) ∈ m.entries ↔ m.find? k = some a :=
  (lookup_eq_some m.sorted).symm

theorem mem_keys {m : SortedMap κ α} {k : κ} : k ∈ m.keys ↔ ∃ a, m.find? k = some a := by
  simp [keys, ← mem_entries]

theorem mem_values {m : SortedMap κ α} {a : α} : a ∈ m.values ↔ ∃ k, m.find? k = some a := by
  simp [values, ← mem_entries]

/-- No key stands twice. -/
theorem nodup_keys (m : SortedMap κ α) : m.keys.Nodup :=
  List.pairwise_map.2 (m.sorted.imp KeyOrder.ne_of_lt)

theorem contains_iff {m : SortedMap κ α} {k : κ} : m.contains k = true ↔ ∃ a, m.find? k = some a :=
  Option.isSome_iff_exists

theorem isEmpty_iff {m : SortedMap κ α} : m.isEmpty = true ↔ ∀ k, m.find? k = none := by
  rw [isEmpty, List.isEmpty_iff]
  constructor
  · intro none k
    rw [ext_entries (n := empty) none, find?_empty]
  · intro none
    refine List.eq_nil_iff_forall_not_mem.2 fun e he => ?_
    have found := mem_entries.1 he
    rw [none] at found
    cases found

/-! ### Changes -/

theorem lookup_map (f : κ → α → β) (k : κ) (l : List (κ × α)) :
    lookup k (l.map fun e => (e.1, f e.1 e.2)) = (lookup k l).map (f k) := by
  induction l with
  | nil => rfl
  | cons x rest ih =>
    obtain ⟨kx, ax⟩ := x
    by_cases h₁ : k < kx
    · simp [lookup, h₁]
    · by_cases h₂ : kx < k
      · simp [lookup, h₁, h₂, ih]
      · cases KeyOrder.connex h₁ h₂
        simp [lookup, KeyOrder.irrefl]

@[simp] theorem find?_map (f : κ → α → β) (m : SortedMap κ α) (k : κ) :
    (m.map f).find? k = (m.find? k).map (f k) :=
  lookup_map f k m.entries

@[simp] theorem find?_modify [DecidableEq κ] (m : SortedMap κ α) (k k' : κ) (f : α → α) :
    (m.modify k f).find? k' = if k' = k then (m.find? k').map f else m.find? k' := by
  unfold modify
  rw [find?_map]
  by_cases e : k' = k
  · subst e
    simp [KeyOrder.irrefl]
  · have : k < k' ∨ k' < k := by
      by_contra hc
      exact e (KeyOrder.connex (fun h => hc (.inr h)) (fun h => hc (.inl h)))
    rcases this with h | h
    · simp [h, e]
    · simp [h, e, KeyOrder.asymm h]

@[simp] theorem contains_modify [DecidableEq κ] (m : SortedMap κ α) (k k' : κ) (f : α → α) :
    (m.modify k f).contains k' = m.contains k' := by
  unfold contains
  rw [find?_modify]
  split
  · cases m.find? k' <;> rfl
  · rfl

section

variable [DecidableEq κ]

@[simp] theorem erase_insert_self (m : SortedMap κ α) (k : κ) (a : α) :
    (m.insert k a).erase k = m.erase k := by
  apply ext
  intro k'
  by_cases h : k' = k <;> simp [h]

/-- Of two values under one key the last one counts. -/
theorem insert_insert_self (m : SortedMap κ α) (k : κ) (a b : α) :
    (m.insert k a).insert k b = m.insert k b := by
  apply ext
  intro k'
  simp only [find?_insert]
  split <;> rfl

theorem insert_eq_self {m : SortedMap κ α} {k : κ} {a : α} (h : m.find? k = some a) :
    m.insert k a = m := by
  apply ext
  intro k'
  by_cases e : k' = k
  · subst e
    simp [h]
  · simp [e]

theorem erase_eq_self {m : SortedMap κ α} {k : κ} (h : m.find? k = none) : m.erase k = m := by
  apply ext
  intro k'
  by_cases e : k' = k
  · subst e
    simp [h]
  · simp [e]

theorem map_insert (f : κ → α → β) (m : SortedMap κ α) (k : κ) (a : α) :
    (m.insert k a).map f = (m.map f).insert k (f k a) := by
  apply ext
  intro k'
  by_cases h : k' = k <;> simp [h]

theorem map_erase (f : κ → α → β) (m : SortedMap κ α) (k : κ) :
    (m.erase k).map f = (m.map f).erase k := by
  apply ext
  intro k'
  by_cases h : k' = k <;> simp [h]

theorem filter_insert_of_pos {p : κ → α → Bool} {m : SortedMap κ α} {k : κ} {a : α}
    (h : p k a = true) : (m.insert k a).filter p = (m.filter p).insert k a := by
  apply ext
  intro k'
  by_cases e : k' = k
  · subst e
    simp [Option.filter, h]
  · simp [e]

theorem filter_erase (p : κ → α → Bool) (m : SortedMap κ α) (k : κ) :
    (m.erase k).filter p = (m.filter p).erase k := by
  apply ext
  intro k'
  by_cases h : k' = k <;> simp [h]

/-- An entry that is not kept drives out the one that had its key. -/
theorem filter_insert_of_neg {p : κ → α → Bool} {m : SortedMap κ α} {k : κ} {a : α}
    (h : p k a = false) : (m.insert k a).filter p = (m.filter p).erase k := by
  apply ext
  intro k'
  by_cases e : k' = k
  · subst e
    simp [Option.filter, h]
  · simp [e]

/-! ### Sums -/

/-- A new entry joins those of the other keys. -/
theorem entries_insert_perm (m : SortedMap κ α) (k : κ) (a : α) :
    (m.insert k a).entries.Perm ((k, a) :: (m.erase k).entries) := by
  have nodup (m : SortedMap κ α) : m.entries.Nodup := m.nodup_keys.of_map _
  have fresh : (k, a) ∉ (m.erase k).entries := by simp [mem_entries]
  rw [List.perm_ext_iff_of_nodup (nodup _) ((nodup _).cons fresh)]
  rintro ⟨k', b⟩
  by_cases h : k' = k
  · simp [mem_entries, h, eq_comm]
  · simp [mem_entries, h]

/-- What a new value adds to a sum over all values. -/
theorem sum_insert (f : α → ℕ) (m : SortedMap κ α) (k : κ) (a : α) :
    ((m.insert k a).values.map f).sum = f a + ((m.erase k).values.map f).sum :=
  (((m.entries_insert_perm k a).map Prod.snd).map f).sum_eq

/-- What the value under a key adds to a sum over all values. -/
theorem sum_erase (f : α → ℕ) {m : SortedMap κ α} {k : κ} {a : α} (h : m.find? k = some a) :
    (m.values.map f).sum = f a + ((m.erase k).values.map f).sum := by
  rw [← sum_insert, insert_eq_self h]

theorem sum_erase_le (f : α → ℕ) (m : SortedMap κ α) (k : κ) :
    ((m.erase k).values.map f).sum ≤ (m.values.map f).sum := by
  cases h : m.find? k with
  | none => rw [erase_eq_self h]
  | some a =>
    rw [sum_erase f h]
    exact Nat.le_add_left ..

/-! ### Maps of lists -/

theorem find?_foldl_insert (l : List (κ × α)) (m : SortedMap κ α) (k : κ) :
    (l.foldl (fun m e => m.insert e.1 e.2) m).find? k =
      (((l.filter (·.1 = k)).getLast?).map (·.2)).or (m.find? k) := by
  induction l generalizing m with
  | nil => simp
  | cons e rest ih =>
    rw [List.foldl_cons, ih, find?_insert]
    by_cases h : e.1 = k
    · subst h
      cases hr : rest.filter (fun x => decide (x.1 = e.1)) with
      | nil => simp [hr]
      | cons y ys =>
        rw [List.filter_cons_of_pos (by simp), hr, List.getLast?_cons_cons]
        simp [List.getLast?_cons]
    · have h' : k ≠ e.1 := fun he => h he.symm
      simp [h, h']

/-- Of several entries with one key the last wins. -/
theorem find?_ofList (l : List (κ × α)) (k : κ) :
    (ofList l).find? k = ((l.filter (·.1 = k)).getLast?).map (·.2) := by
  rw [ofList, find?_foldl_insert, find?_empty, Option.or_none]

/-- A list in which every key stands once holds what its map does. -/
theorem find?_ofList_of_sorted {l : List (κ × α)} (h : l.Pairwise (fun a b => a.1 < b.1)) (k : κ) :
    (ofList l).find? k = lookup k l := by
  rw [find?_ofList]
  cases hl : lookup k l with
  | none =>
    have : l.filter (fun x => decide (x.1 = k)) = [] := by
      apply List.filter_eq_nil_iff.2
      intro x hx hk
      have hk : x.1 = k := of_decide_eq_true hk
      have := (lookup_eq_some h).2 (hk ▸ hx : (k, x.2) ∈ l)
      rw [hl] at this
      exact absurd this (by simp)
    simp [this]
  | some a =>
    have ha : (k, a) ∈ l := (lookup_eq_some h).1 hl
    have hne : l.filter (fun x => decide (x.1 = k)) ≠ [] :=
      List.ne_nil_of_mem (List.mem_filter.2 ⟨ha, by simp⟩)
    obtain ⟨y, hy⟩ := Option.isSome_iff_exists.1 (List.getLast?_isSome.2 hne)
    obtain ⟨hm, hk⟩ := List.mem_filter.1 (List.mem_of_getLast? hy)
    have hk : y.1 = k := of_decide_eq_true hk
    have hy2 : lookup k l = some y.2 := (lookup_eq_some h).2 (hk ▸ hm : (k, y.2) ∈ l)
    rw [hl] at hy2
    rw [hy]
    exact hy2.symm

/-- A map is the map of its entries. -/
@[simp] theorem ofList_entries (m : SortedMap κ α) : ofList m.entries = m :=
  ext fun k => find?_ofList_of_sorted m.sorted k

end

/-! ### Values that know their keys -/

/-- Every value stands under its own key. -/
def KeyedBy (key : α → κ) (m : SortedMap κ α) : Prop := ∀ k a, m.find? k = some a → key a = k

/-- The keys of the values are the keys. -/
theorem KeyedBy.map_values {key : α → κ} {m : SortedMap κ α} (h : m.KeyedBy key) :
    m.values.map key = m.keys := by
  rw [values, keys, List.map_map]
  exact List.map_congr_left fun e he => h e.1 e.2 (mem_entries.1 he)

theorem KeyedBy.mem_values {key : α → κ} {m : SortedMap κ α} (h : m.KeyedBy key) {a : α} :
    a ∈ m.values ↔ m.find? (key a) = some a := by
  rw [SortedMap.mem_values]
  constructor
  · rintro ⟨k, found⟩
    rwa [h k a found]
  · intro found
    exact ⟨_, found⟩

/-- No two values have the same key. -/
theorem KeyedBy.nodup_values {key : α → κ} {m : SortedMap κ α} (h : m.KeyedBy key) :
    (m.values.map key).Nodup :=
  h.map_values ▸ m.nodup_keys

variable [DecidableEq κ]

theorem keyedBy_ofList (key : α → κ) (l : List α) :
    (ofList (l.map fun a => (key a, a))).KeyedBy key := by
  intro k a found
  rw [find?_ofList] at found
  obtain ⟨e, last, rfl⟩ := Option.map_eq_some_iff.1 found
  obtain ⟨mem, he⟩ := List.mem_filter.1 (List.mem_of_getLast? last)
  obtain ⟨b, -, rfl⟩ := List.mem_map.1 mem
  simpa using he

/-- Such a map is that of its values. -/
theorem KeyedBy.ofList_values {key : α → κ} {m : SortedMap κ α} (h : m.KeyedBy key) :
    ofList (m.values.map fun a => (key a, a)) = m := by
  have entries : m.values.map (fun a => (key a, a)) = m.entries := by
    rw [values, List.map_map]
    refine (List.map_congr_left fun e he => ?_).trans (List.map_id _)
    obtain ⟨k, a⟩ := e
    show (key a, a) = (k, a)
    rw [h k a (mem_entries.1 he)]
  rw [entries, ofList_entries]

theorem KeyedBy.insert {key : α → κ} {m : SortedMap κ α} (h : m.KeyedBy key) (a : α) :
    (m.insert (key a) a).KeyedBy key := by
  intro k b found
  rw [find?_insert] at found
  split at found
  · rename_i e
    cases found
    exact e.symm
  · exact h k b found

theorem KeyedBy.modify {key : α → κ} {m : SortedMap κ α} (h : m.KeyedBy key) (k : κ) {f : α → α}
    (keeps : ∀ a, key (f a) = key a) : (m.modify k f).KeyedBy key := by
  intro k' b found
  rw [find?_modify] at found
  split at found
  · obtain ⟨a, before, rfl⟩ := Option.map_eq_some_iff.1 found
    exact (keeps a).trans (h k' a before)
  · exact h k' b found

theorem KeyedBy.erase {key : α → κ} {m : SortedMap κ α} (h : m.KeyedBy key) (k : κ) :
    (m.erase k).KeyedBy key := by
  intro k' b found
  rw [find?_erase] at found
  split at found
  · cases found
  · exact h k' b found

end WorkerCluster.SortedMap
