import Mathlib.Tactic
import WorkerCluster.Toml.Document

/-!
# Tables from statements

* `Leads` says that a path leads to one place of a table; `Leads.entries` adds entries there.
* `Section` is a table with a header, its entries, and perhaps an array of tables in it.
* `ofStatements?_sections` is the main statement: a document of entries and sections makes the table
  that holds them.
-/

namespace WorkerCluster.Toml

/-- Entries of a table, in order. -/
abbrev Entries := List (String × Value)

/-- The keys of entries. -/
def keys (es : Entries) : List String := es.map Prod.fst

/-- The statements that make entries of the table with the last header. -/
def entryStatements (es : Entries) : List Statement := es.map fun e => .entry [] e.1 e.2

/-- The entry of an array of tables, if there are any. -/
def arrayEntry (key : String) (items : List Entries) : Entries :=
  if items = [] then [] else [(key, .tables (items.map (.defined, ·)))]

/-- A table with a header. -/
structure Section where
  name : String
  entries : Entries
  /-- The key of an array of tables, if there are any. -/
  array : String := ""
  /-- The tables of the array. -/
  items : List Entries := []

namespace Section

/-- The statements that make the section. -/
def statements (s : Section) : List Statement :=
  .table [] s.name :: (entryStatements s.entries ++
    s.items.flatMap fun es => .element [s.name] s.array :: entryStatements es)

/-- What the section holds. -/
def content (s : Section) : Entries := s.entries ++ arrayEntry s.array s.items

/-- No key is given twice. -/
structure Sound (s : Section) : Prop where
  entries : (keys s.entries).Nodup
  items : ∀ es ∈ s.items, (keys es).Nodup
  array : s.items ≠ [] → s.array ∉ keys s.entries

end Section

namespace Table

variable {t u : Table} {es : Entries} {key name : String} {here : List String}

theorem alterEntries_fresh (h : key ∉ keys es) (f : Option Value → Option Value) :
    alterEntries key f es = (f none).map fun v => es ++ [(key, v)] := by
  induction es with
  | nil => rfl
  | cons e es ih =>
    obtain ⟨other, fresh⟩ := not_or.1 (List.mem_cons.not.1 h)
    rw [alterEntries, if_neg (Ne.symm other), ih fresh, Option.map_map]
    rfl

theorem alterEntries_last (h : key ∉ keys es) (v : Value) (f : Option Value → Option Value) :
    alterEntries key f (es ++ [(key, v)]) = (f (some v)).map fun v => es ++ [(key, v)] := by
  induction es with
  | nil =>
    rw [List.nil_append, alterEntries, if_pos rfl]
    rfl
  | cons e es ih =>
    obtain ⟨other, fresh⟩ := not_or.1 (List.mem_cons.not.1 h)
    rw [List.cons_append, alterEntries, if_neg (Ne.symm other), ih fresh, Option.map_map]
    rfl

theorem alterLast_concat (f : Table → Option Table) (items : List (Origin × Entries)) (t : Table) :
    alterLast f (items ++ [(t.origin, t.entries)]) =
      (f t).map fun t => items ++ [(t.origin, t.entries)] := by
  induction items with
  | nil => rfl
  | cons i items ih =>
    cases items with
    | nil =>
      change (alterLast f [(t.origin, t.entries)]).map _ = _
      rw [show alterLast f [(t.origin, t.entries)] =
        (f t).map fun t => [(t.origin, t.entries)] from rfl, Option.map_map]
      rfl
    | cons j items =>
      change (alterLast f (j :: items ++ [(t.origin, t.entries)])).map _ = _
      rw [ih, Option.map_map]
      rfl

/-- The table with one more entry. -/
def snoc (t : Table) (key : String) (v : Value) : Table :=
  { t with entries := t.entries ++ [(key, v)] }

theorem alter_fresh (h : key ∉ keys t.entries) (f : Option Value → Option Value) :
    t.alter key f = (f none).map (t.snoc key) := by
  rw [alter, alterEntries_fresh h, Option.map_map]
  rfl

theorem alter_snoc (h : key ∉ keys t.entries) (v : Value) (f : Option Value → Option Value) :
    (t.snoc key v).alter key f = (f (some v)).map (t.snoc key) := by
  rw [alter, snoc, alterEntries_last h, Option.map_map]
  rfl

theorem addEntry_fresh (header : t.origin = .defined) (h : key ∉ keys t.entries) (v : Value) :
    t.addEntry [] key v = some (t.snoc key v) := by
  change (if (t.origin = .dotted) = (([] : List String) = []) then none else _) = _
  rw [if_neg (by rw [header]; simp), alter_fresh h]
  rfl

/-- The path leads to a place of a table, where `plug` puts one with a header. -/
def Leads (here : List String) (plug : Table → Table) : Prop :=
  ∀ f u, u.origin = .defined → within .implied f here (plug u) = (f u).map plug

/-- Follow statements in order. -/
def followAll (st : List String × Table) (l : List Statement) : Option (List String × Table) :=
  l.foldlM (fun st s => follow st.1 st.2 s) st

theorem followAll_append (st : List String × Table) (l l' : List Statement) :
    followAll st (l ++ l') = (followAll st l).bind (followAll · l') := List.foldlM_append

theorem followAll_cons (st : List String × Table) (s : Statement) (l : List Statement) :
    followAll st (s :: l) = (follow st.1 st.2 s).bind (followAll · l) := rfl

/-- Entries come to stand where the last header leads. -/
theorem Leads.followAll_entries {plug : Table → Table} (h : Leads here plug)
    (header : u.origin = .defined) (new : (keys (u.entries ++ es)).Nodup) :
    followAll (here, plug u) (entryStatements es) =
      some (here, plug { u with entries := u.entries ++ es }) := by
  induction es generalizing u with
  | nil => rw [List.append_nil]; rfl
  | cons e es ih =>
    obtain ⟨key, v⟩ := e
    have fresh : key ∉ keys u.entries := by
      intro mem
      rw [keys, List.map_append] at new
      exact (List.disjoint_of_nodup_append new) mem (List.mem_cons_self ..)
    have first : follow here (plug u) (.entry [] key v) = some (here, plug (u.snoc key v)) := by
      rw [follow, h _ u header, addEntry_fresh header fresh]
      rfl
    -- the table is another one now, but the path still leads to it
    have rest := ih (u := u.snoc key v) header (by rwa [snoc, List.append_assoc])
    rw [snoc, List.append_assoc] at rest
    change followAll (here, plug u) (.entry [] key v :: entryStatements es) = _
    rw [followAll_cons, first]
    exact rest

theorem leads_root : Leads [] id := fun f u _ => by
  rw [Option.map_id]
  rfl

/-- The header of the last section leads to it. -/
theorem leads_section (fresh : name ∉ keys t.entries) :
    Leads [name] fun u => t.snoc name u.value := by
  rintro f ⟨_, es⟩ rfl
  rw [within, alter_snoc fresh]
  change ((within .implied f [] ⟨.defined, es⟩).map value).map _ = _
  rw [Option.map_map]
  rfl

/-- The header of an array in the last section leads to the last table of the array. -/
theorem leads_item (fresh : name ∉ keys t.entries) (new : key ∉ keys es)
    (items : List (Origin × Entries)) :
    Leads [name, key] fun u => t.snoc name
      (.table .defined (es ++ [(key, .tables (items ++ [(u.origin, u.entries)]))])) := by
  intro f u _
  have inner : within .implied f [key]
      ((⟨.defined, es⟩ : Table).snoc key (.tables (items ++ [(u.origin, u.entries)]))) =
        (f u).map fun u =>
          (⟨.defined, es⟩ : Table).snoc key (.tables (items ++ [(u.origin, u.entries)])) := by
    rw [within, alter_snoc new]
    dsimp only
    rw [alterLast_concat, Option.map_map, Option.map_map]
    rfl
  rw [within, alter_snoc fresh]
  change ((within .implied f [key] (snoc ⟨.defined, es⟩ key _)).map value).map _ = _
  rw [inner, Option.map_map, Option.map_map]
  rfl

theorem follow_table (here : List String) (fresh : name ∉ keys t.entries) :
    follow here t (.table [] name) = some ([name], t.snoc name (new .defined).value) := by
  change (t.alter name _).map _ = _
  rw [alter_fresh fresh]
  rfl

/-- One more table of an array in the last section. -/
theorem follow_element (here : List String) (fresh : name ∉ keys t.entries) (new : key ∉ keys es)
    (items : List Entries) :
    follow here (t.snoc name (.table .defined (es ++ arrayEntry key items))) (.element [name] key) =
      some ([name, key], t.snoc name (.table .defined
        (es ++ [(key, .tables (items.map (.defined, ·) ++ [(.defined, [])]))]))) := by
  refine (congrArg (Option.map _) (leads_section fresh _ ⟨.defined, _⟩ rfl)).trans ?_
  unfold arrayEntry
  split
  · next none =>
    rw [List.append_nil, alter_fresh new, none]
    rfl
  · change (((snoc ⟨.defined, es⟩ key _).alter key _).map _).map _ = _
    rw [alter_snoc new]
    rfl

theorem arrayEntry_concat (key : String) (items : List Entries) (i : Entries) :
    arrayEntry key (items ++ [i]) =
      [(key, .tables (items.map (.defined, ·) ++ [(.defined, i)]))] := by
  rw [arrayEntry, if_neg (by simp), List.map_append]
  rfl

/-- An array in the last section gets the tables after those that it has. -/
theorem followAll_items (here : List String) (fresh : name ∉ keys t.entries) (new : key ∉ keys es)
    (items done : List Entries) (distinct : ∀ i ∈ items, (keys i).Nodup) :
    ∃ here', followAll (here, t.snoc name (.table .defined (es ++ arrayEntry key done)))
        (items.flatMap fun i => .element [name] key :: entryStatements i) =
      some (here', t.snoc name (.table .defined (es ++ arrayEntry key (done ++ items)))) := by
  induction items generalizing here done with
  | nil => exact ⟨here, by rw [List.append_nil]; rfl⟩
  | cons i items ih =>
    obtain ⟨first, others⟩ := List.forall_mem_cons.1 distinct
    obtain ⟨here', rest⟩ := ih [name, key] (done ++ [i]) others
    rw [List.append_assoc, arrayEntry_concat] at rest
    refine ⟨here', ?_⟩
    -- the header makes an empty table at the end of the array, and the entries come to stand there
    have entries := (leads_item fresh new (done.map (.defined, ·))).followAll_entries
      (u := Table.new .defined) rfl first
    rw [List.flatMap_cons, List.cons_append, followAll_cons, follow_element here fresh new,
      Option.bind_some, followAll_append]
    exact (congrArg (Option.bind · _) entries).trans rest

theorem followAll_section (here : List String) {s : Section} (sound : s.Sound)
    (fresh : s.name ∉ keys t.entries) :
    ∃ here', followAll (here, t) s.statements =
      some (here', t.snoc s.name (.table .defined s.content)) := by
  have entries := (leads_section fresh).followAll_entries (u := Table.new .defined) rfl
    sound.entries
  rw [Section.statements, followAll_cons, follow_table here fresh, Option.bind_some,
    followAll_append]
  refine Exists.imp (fun here' rest => (congrArg (Option.bind · _) entries).trans rest) ?_
  cases none : s.items with
  | nil =>
    refine ⟨[s.name], ?_⟩
    rw [Section.content, none, arrayEntry, if_pos rfl, List.append_nil]
    rfl
  | cons i items =>
    have new := sound.array (by rw [none]; simp)
    obtain ⟨here', rest⟩ := followAll_items [s.name] fresh new s.items [] sound.items
    rw [arrayEntry, if_pos rfl, List.append_nil, List.nil_append] at rest
    rw [← none]
    exact ⟨here', rest⟩

theorem followAll_sections (here : List String) {l : List Section} (sound : ∀ s ∈ l, s.Sound)
    (fresh : (keys t.entries ++ l.map (·.name)).Nodup) :
    ∃ here', followAll (here, t) (l.flatMap (·.statements)) =
      some (here', { t with
        entries := t.entries ++ l.map fun s => (s.name, .table .defined s.content) }) := by
  induction l generalizing here t with
  | nil => exact ⟨here, by rw [List.map_nil, List.append_nil]; rfl⟩
  | cons s l ih =>
    obtain ⟨first, others⟩ := List.forall_mem_cons.1 sound
    have new : s.name ∉ keys t.entries := fun mem =>
      List.disjoint_of_nodup_append fresh mem (List.mem_cons_self ..)
    obtain ⟨here₁, one⟩ := followAll_section here first new
    have later : (keys (t.snoc s.name (.table .defined s.content)).entries ++
        l.map (·.name)).Nodup := by
      rw [snoc, keys, List.map_append, List.append_assoc]
      exact fresh
    obtain ⟨here₂, rest⟩ := ih here₁ others later
    refine ⟨here₂, ?_⟩
    rw [List.flatMap_cons, followAll_append, one, Option.bind_some, rest, snoc, List.append_assoc]
    rfl

/-- **Entries and sections make the table that holds them**, if no key is given twice. -/
theorem ofStatements?_sections {l : List Section} (sound : ∀ s ∈ l, s.Sound)
    (fresh : (keys es ++ l.map (·.name)).Nodup) :
    ofStatements? (entryStatements es ++ l.flatMap (·.statements)) =
      some ⟨.defined, es ++ l.map fun s => (s.name, .table .defined s.content)⟩ := by
  have distinct : (keys ((new .defined).entries ++ es)).Nodup := (List.nodup_append.1 fresh).1
  have entries := leads_root.followAll_entries rfl distinct
  obtain ⟨here, rest⟩ := followAll_sections (t := ⟨.defined, es⟩) [] sound fresh
  change (followAll ([], new .defined) _).map Prod.snd = _
  rw [followAll_append]
  refine (congrArg (fun st => (Option.bind st _).map Prod.snd) entries).trans ?_
  exact congrArg (Option.map Prod.snd) rest

end Table

end WorkerCluster.Toml
