/-!
# Sorted maps

Finite maps whose entries are kept in strictly increasing key order.

* `KeyOrder` is a decidable strict linear order on keys.
* `SortedMap κ α` is the list of entries together with the proof that it is sorted, so two maps
  with the same entries are the same value.
* `find?` is the view through which `insert`, `erase` and `filter` are described.
-/

namespace WorkerCluster

/-- A decidable strict linear order. -/
class KeyOrder (κ : Type) extends LT κ where
  /-- The order can be decided. -/
  decidableLT : DecidableRel (α := κ) (· < ·)
  /-- No key is below itself. -/
  irrefl : ∀ a : κ, ¬ a < a
  /-- The order is transitive. -/
  trans : ∀ {a b c : κ}, a < b → b < c → a < c
  /-- Two keys of which neither is below the other are equal. -/
  connex : ∀ {a b : κ}, ¬ a < b → ¬ b < a → a = b

instance KeyOrder.instDecidableRel (κ : Type) [KeyOrder κ] : DecidableRel (α := κ) (· < ·) :=
  KeyOrder.decidableLT

instance : KeyOrder String where
  decidableLT := inferInstance
  irrefl := String.lt_irrefl
  trans := String.lt_trans
  connex h₁ h₂ := String.le_antisymm (String.not_lt.1 h₂) (String.not_lt.1 h₁)

namespace KeyOrder

variable {κ : Type} [KeyOrder κ]

theorem ne_of_lt {a b : κ} (h : a < b) : a ≠ b := fun e => irrefl b (e ▸ h)

theorem asymm {a b : κ} (h : a < b) : ¬ b < a := fun h' => irrefl a (trans h h')

end KeyOrder

/-- A finite map, as the list of its entries in increasing key order. -/
structure SortedMap (κ : Type) [KeyOrder κ] (α : Type) where
  /-- The entries, each key once. -/
  entries : List (κ × α)
  /-- The keys increase. -/
  sorted : entries.Pairwise (fun a b => a.1 < b.1)

namespace SortedMap

variable {κ : Type} [KeyOrder κ] {α β : Type}

instance [DecidableEq κ] [DecidableEq α] : DecidableEq (SortedMap κ α) := fun m n =>
  decidable_of_iff (m.entries = n.entries)
    ⟨fun h => by cases m; cases n; cases h; rfl, fun h => h ▸ rfl⟩

theorem ext_entries {m n : SortedMap κ α} (h : m.entries = n.entries) : m = n := by
  cases m; cases n; cases h; rfl

/-- The map without entries. -/
def empty : SortedMap κ α := ⟨[], .nil⟩

instance : Inhabited (SortedMap κ α) := ⟨empty⟩

instance : EmptyCollection (SortedMap κ α) := ⟨empty⟩

/-- The value under a key in a sorted list of entries. -/
def lookup (k : κ) : List (κ × α) → Option α
  | [] => none
  | (k', a) :: rest => if k < k' then none else if k' < k then lookup k rest else some a

/-- The value under a key. -/
def find? (m : SortedMap κ α) (k : κ) : Option α := lookup k m.entries

/-- Whether a key has a value. -/
def contains (m : SortedMap κ α) (k : κ) : Bool := (m.find? k).isSome

/-- The keys in increasing order. -/
def keys (m : SortedMap κ α) : List κ := m.entries.map Prod.fst

/-- The values in the order of their keys. -/
def values (m : SortedMap κ α) : List α := m.entries.map Prod.snd

/-- The number of entries. -/
def size (m : SortedMap κ α) : Nat := m.entries.length

/-- Whether there is no entry. -/
def isEmpty (m : SortedMap κ α) : Bool := m.entries.isEmpty

/-- Put an entry into its place, replacing one with an equal key. -/
def place (k : κ) (a : α) : List (κ × α) → List (κ × α)
  | [] => [(k, a)]
  | (k', a') :: rest =>
    if k < k' then (k, a) :: (k', a') :: rest
    else if k' < k then (k', a') :: place k a rest
    else (k, a) :: rest

theorem fst_mem_place {k : κ} {a : α} {l : List (κ × α)} {e : κ × α} (h : e ∈ place k a l) :
    e.1 = k ∨ e ∈ l := by
  induction l with
  | nil => simp_all [place]
  | cons x rest ih =>
    obtain ⟨k', a'⟩ := x
    unfold place at h
    split at h
    · rcases List.mem_cons.1 h with rfl | h
      · exact .inl rfl
      · exact .inr h
    · split at h
      · rcases List.mem_cons.1 h with rfl | h
        · exact .inr (List.mem_cons_self ..)
        · exact (ih h).imp id (List.mem_cons_of_mem _)
      · rcases List.mem_cons.1 h with rfl | h
        · exact .inl rfl
        · exact .inr (List.mem_cons_of_mem _ h)

theorem sorted_place (k : κ) (a : α) {l : List (κ × α)}
    (h : l.Pairwise (fun a b => a.1 < b.1)) : (place k a l).Pairwise (fun a b => a.1 < b.1) := by
  induction l with
  | nil => exact .cons (by simp) .nil
  | cons x rest ih =>
    obtain ⟨k', a'⟩ := x
    have hx := List.pairwise_cons.1 h
    unfold place
    split
    · next hlt =>
      refine .cons (fun e he => ?_) h
      rcases List.mem_cons.1 he with rfl | he
      · exact hlt
      · exact KeyOrder.trans hlt (hx.1 e he)
    · split
      · next hgt =>
        refine .cons (fun e he => ?_) (ih hx.2)
        rcases fst_mem_place he with he | he
        · rw [he]; exact hgt
        · exact hx.1 e he
      · next h₁ h₂ =>
        cases KeyOrder.connex h₁ h₂
        exact .cons hx.1 hx.2

/-- Put a value under a key, replacing the one there. -/
def insert (m : SortedMap κ α) (k : κ) (a : α) : SortedMap κ α :=
  ⟨place k a m.entries, sorted_place k a m.sorted⟩

/-- Keep the entries that a test accepts. -/
def filter (m : SortedMap κ α) (p : κ → α → Bool) : SortedMap κ α :=
  ⟨m.entries.filter (fun e => p e.1 e.2), m.sorted.filter _⟩

/-- Remove the entry under a key, if there is one. -/
def erase (m : SortedMap κ α) (k : κ) : SortedMap κ α :=
  m.filter (fun k' _ => decide (k < k') || decide (k' < k))

/-- Change every value, keeping the keys. -/
def map (f : κ → α → β) (m : SortedMap κ α) : SortedMap κ β where
  entries := m.entries.map (fun e => (e.1, f e.1 e.2))
  sorted := List.pairwise_map.2 m.sorted

/-- Replace the value under a key by a function of it, if there is one. -/
def modify (m : SortedMap κ α) (k : κ) (f : α → α) : SortedMap κ α :=
  m.map (fun k' a => if k < k' then a else if k' < k then a else f a)

/-- The map of a list of entries, of which the last with a key wins. -/
def ofList (l : List (κ × α)) : SortedMap κ α :=
  l.foldl (fun m e => m.insert e.1 e.2) empty

/-! ### The view -/

theorem lookup_eq_none {k : κ} {l : List (κ × α)} (h : ∀ e ∈ l, k < e.1) : lookup k l = none := by
  cases l with
  | nil => rfl
  | cons x rest => simp [lookup, h x (List.mem_cons_self ..)]

theorem lookup_place (k k' : κ) (a : α) (l : List (κ × α))
    (h : l.Pairwise (fun a b => a.1 < b.1)) [DecidableEq κ] :
    lookup k' (place k a l) = if k' = k then some a else lookup k' l := by
  induction l with
  | nil =>
    by_cases e : k' = k
    · simp [place, lookup, e, KeyOrder.irrefl]
    · by_cases h₁ : k' < k
      · simp [place, lookup, h₁, e]
      · by_cases h₂ : k < k'
        · simp [place, lookup, h₁, h₂, e]
        · exact absurd (KeyOrder.connex h₁ h₂) e
  | cons x rest ih =>
    obtain ⟨kx, ax⟩ := x
    have hx := List.pairwise_cons.1 h
    unfold place
    split
    · next hlt =>
      by_cases e : k' = k
      · simp [lookup, e, KeyOrder.irrefl]
      · by_cases h₁ : k' < k
        · simp [lookup, h₁, e, KeyOrder.trans h₁ hlt]
        · by_cases h₂ : k < k'
          · simp [lookup, h₁, h₂, e]
          · exact absurd (KeyOrder.connex h₁ h₂) e
    · split
      · next hnl hgt =>
        by_cases e : k' = k
        · subst e
          simp [lookup, hnl, hgt, ih hx.2]
        · simp only [lookup, ih hx.2, e, if_false]
      · next h₁ h₂ =>
        cases KeyOrder.connex h₁ h₂
        by_cases e : k' = k
        · simp [lookup, e, KeyOrder.irrefl]
        · by_cases h₁ : k' < k
          · simp [lookup, h₁, e]
          · by_cases h₂ : k < k'
            · simp [lookup, h₁, h₂, e]
            · exact absurd (KeyOrder.connex h₁ h₂) e

@[simp] theorem find?_empty (k : κ) : (empty : SortedMap κ α).find? k = none := rfl

@[simp] theorem find?_insert [DecidableEq κ] (m : SortedMap κ α) (k k' : κ) (a : α) :
    (m.insert k a).find? k' = if k' = k then some a else m.find? k' :=
  lookup_place k k' a m.entries m.sorted

theorem lookup_filter (p : κ → α → Bool) (k : κ) (l : List (κ × α))
    (h : l.Pairwise (fun a b => a.1 < b.1)) :
    lookup k (l.filter (fun e => p e.1 e.2)) = (lookup k l).filter (p k) := by
  induction l with
  | nil => rfl
  | cons x rest ih =>
    obtain ⟨kx, ax⟩ := x
    have hx := List.pairwise_cons.1 h
    have hrest : ∀ {q : κ × α → Bool}, k < kx → lookup k (rest.filter q) = none := fun hlt =>
      lookup_eq_none fun e he => KeyOrder.trans hlt (hx.1 e (List.mem_filter.1 he).1)
    by_cases h₁ : k < kx
    · cases hp : p kx ax <;> simp [lookup, h₁, hp, hrest h₁]
    · by_cases h₂ : kx < k
      · cases hp : p kx ax <;> simp [lookup, h₁, h₂, hp, ih hx.2]
      · cases KeyOrder.connex h₁ h₂
        cases hp : p k ax
        · simp [lookup, hp, KeyOrder.irrefl, Option.filter]
          exact lookup_eq_none fun e he => hx.1 e (List.mem_filter.1 he).1
        · simp [lookup, hp, KeyOrder.irrefl, Option.filter]

@[simp] theorem find?_filter (m : SortedMap κ α) (p : κ → α → Bool) (k : κ) :
    (m.filter p).find? k = (m.find? k).filter (p k) :=
  lookup_filter p k m.entries m.sorted

@[simp] theorem find?_erase [DecidableEq κ] (m : SortedMap κ α) (k k' : κ) :
    (m.erase k).find? k' = if k' = k then none else m.find? k' := by
  unfold erase
  rw [find?_filter]
  by_cases e : k' = k
  · subst e
    cases m.find? k' <;> simp [Option.filter, KeyOrder.irrefl]
  · have : k < k' ∨ k' < k := by
      by_cases h₁ : k < k'
      · exact .inl h₁
      · by_cases h₂ : k' < k
        · exact .inr h₂
        · exact absurd (KeyOrder.connex h₂ h₁) e
    cases m.find? k' <;> simp [Option.filter, e, this]

theorem eq_of_lookup {l r : List (κ × α)} (hl : l.Pairwise (fun a b => a.1 < b.1))
    (hr : r.Pairwise (fun a b => a.1 < b.1)) (h : ∀ k, lookup k l = lookup k r) : l = r := by
  induction l generalizing r with
  | nil =>
    cases r with
    | nil => rfl
    | cons y ys => have := h y.1; simp [lookup, KeyOrder.irrefl] at this
  | cons x xs ih =>
    cases r with
    | nil => have := h x.1; simp [lookup, KeyOrder.irrefl] at this
    | cons y ys =>
      have hx := List.pairwise_cons.1 hl
      have hy := List.pairwise_cons.1 hr
      have e : x.1 = y.1 := by
        refine KeyOrder.connex (fun hlt => ?_) (fun hlt => ?_)
        · have := h x.1; simp [lookup, KeyOrder.irrefl, hlt] at this
        · have := h y.1; simp [lookup, KeyOrder.irrefl, hlt] at this
      have ev : x.2 = y.2 := by
        have := h x.1
        simpa [lookup, e, KeyOrder.irrefl] using this
      have exy : x = y := Prod.ext e ev
      subst exy
      congr 1
      refine ih hx.2 hy.2 fun k => ?_
      by_cases h₁ : k < x.1
      · rw [lookup_eq_none fun a ha => KeyOrder.trans h₁ (hx.1 a ha),
          lookup_eq_none fun a ha => KeyOrder.trans h₁ (hy.1 a ha)]
      · by_cases h₂ : x.1 < k
        · simpa [lookup, h₁, h₂] using h k
        · cases KeyOrder.connex h₁ h₂
          rw [lookup_eq_none fun a ha => hx.1 a ha, lookup_eq_none fun a ha => hy.1 a ha]

/-- Two maps with the same values under all keys are equal. -/
theorem ext {m n : SortedMap κ α} (h : ∀ k, m.find? k = n.find? k) : m = n :=
  ext_entries (eq_of_lookup m.sorted n.sorted h)

end SortedMap

end WorkerCluster
