import Mathlib.Data.List.Nodup
import WorkerCluster.Proofs.Host.Files

/-!
# Files under written paths

* `write_eq_some_iff` says when a file is written, and `file?_write` where it is found.
* `place_congr` says that the directories alone decide where a written path leads.
* `Path.walk` follows names without a look at any tree. What can be located is where they lead:
  `locate_eq_some`.
* `place_append` says this of a name and an ending: the file is in the directory to which all but
  the last part of the name lead.
* `Path.IsPlain` are the names of files in the directory itself. In a new directory there is a place
  for all of them: `writable_of_plain`.
* `Wrote` says what there is when files have been written in order. `Wrote.append` puts two such
  lists together. `FileTree.Writable` says that there is a place for a file to begin with.
-/

namespace WorkerCluster

/-- The path that a name leads to. -/
def Path.step (here : Path) (name : String) : Path :=
  if name = ".." then here.parent else here ++ [name]

/-- The path that names lead to, one after the other. -/
def Path.walk (here : Path) (names : List String) : Path := names.foldl Path.step here

/-- The parts of a name, with slashes between them. -/
def Path.parts (name : String) : List (List Char) := name.toList.splitOnP (· == '/')

/-- What follows the last slash of a name. -/
def Path.stem (name : String) : String := String.ofList ((parts name).getLastD [])

/-- The names that stand before the last slash of a name. -/
def Path.leading (name : String) : List String :=
  ((parts name).dropLast.map String.ofList).filter fun name => name != "" && name != "."

namespace FileTree

variable {t u : FileTree} {p q here : Path} {content : String} {names : List String}

/-- There is a place for a file at a path. -/
@[mk_iff]
structure Place (t : FileTree) (p : Path) : Prop where
  free : t.isDirectory p = false
  above : t.isDirectory p.parent = true
  named : p.all Path.isFileName = true

/-- A file is written if there is a place for it, and nothing else changes. -/
theorem write_eq_some_iff : t.write p content = some u ↔
    t.Place p ∧ u = { t with files := (p, content) :: t.files.filter fun f => f.1 != p } := by
  unfold write
  split
  · next taken =>
    refine ⟨nofun, fun ⟨place, _⟩ => ?_⟩
    rw [place.free, place.above, place.named] at taken
    cases taken
  · next free =>
    simp only [Bool.or_eq_true, not_or, Bool.not_eq_true, Bool.not_eq_false'] at free
    rw [Option.some.injEq, eq_comm]
    exact (and_iff_right ⟨free.1.1, free.1.2, free.2⟩).symm

theorem directories_write (h : t.write p content = some u) : u.directories = t.directories := by
  obtain ⟨-, rfl⟩ := write_eq_some_iff.1 h
  rfl

/-- What has been written last is found. -/
theorem file?_write (h : t.write p content = some u) :
    u.file? q = if q = p then some content else t.file? q := by
  obtain ⟨-, rfl⟩ := write_eq_some_iff.1 h
  rw [file?, List.lookup_cons]
  split
  · next same => rw [if_pos (beq_iff_eq.1 same)]
  · next other =>
    have other := beq_eq_false_iff_ne.1 other
    rw [if_neg other]
    exact lookup_filter (· != p) (bne_iff_ne.2 other) t.files

theorem isDirectory_congr (same : u.directories = t.directories) :
    u.isDirectory p = t.isDirectory p := by
  rw [isDirectory, isDirectory, same]

/-! ### Written paths -/

theorem locate_cons (t : FileTree) (here : Path) (name : String) (more : names ≠ []) :
    t.locate here (name :: names) =
      if (name = ".." && here = []) || !t.isDirectory (here.step name) then none
      else t.locate (here.step name) names := by
  obtain ⟨next, names, rfl⟩ := List.exists_cons_of_ne_nil more
  rfl

theorem locate_congr (same : u.directories = t.directories) :
    u.locate here names = t.locate here names := by
  induction names generalizing here with
  | nil => rfl
  | cons name names ih =>
    obtain rfl | more := eq_or_ne names []
    · rfl
    · rw [locate_cons u here name more, locate_cons t here name more, ih, isDirectory_congr same]

/-- Only directories decide where a written path leads. -/
theorem place_congr (same : u.directories = t.directories) (here : Path) (text : String) :
    u.place here text = t.place here text := by
  rw [place, place, locate_congr same]

/-- Names lead to a file in the directory to which those before the last one lead. -/
theorem locate_eq_some (h : t.locate here names = some p) :
    ∃ before last, names = before ++ [last] ∧ last ≠ ".." ∧ p = here.walk before ++ [last] := by
  induction names generalizing here with
  | nil => cases h
  | cons name names ih =>
    obtain rfl | more := eq_or_ne names []
    · rw [locate] at h
      split at h
      · cases h
      · next other => exact ⟨[], name, rfl, other, (Option.some.inj h).symm⟩
    · rw [locate_cons t here name more] at h
      split at h
      · cases h
      · obtain ⟨before, last, rfl, other, rfl⟩ := ih h
        exact ⟨name :: before, last, rfl, other, rfl⟩

end FileTree

namespace Path

variable {name ending : String}

/-- What is put behind a text belongs to its last part. -/
theorem exists_splitOnP_append {α : Type} (p : α → Bool) (cs : List α) :
    ∃ before last, ∀ more, (∀ c ∈ more, p c = false) →
      (cs ++ more).splitOnP p = before ++ [last ++ more] := by
  induction cs with
  | nil => exact ⟨[], [], fun more plain => List.splitOnP_eq_singleton plain⟩
  | cons c cs ih =>
    obtain ⟨before, last, split⟩ := ih
    -- what separates parts begins a new one, and all else belongs to the first one
    by_cases slash : p c = true
    · refine ⟨[] :: before, last, fun more plain => ?_⟩
      rw [List.cons_append, List.splitOnP_cons_eq_if_modifyHead, if_pos slash, split more plain]
      rfl
    · cases before with
      | nil =>
        refine ⟨[], c :: last, fun more plain => ?_⟩
        rw [List.cons_append, List.splitOnP_cons_eq_if_modifyHead, if_neg slash, split more plain]
        rfl
      | cons b before =>
        refine ⟨(c :: b) :: before, last, fun more plain => ?_⟩
        rw [List.cons_append, List.splitOnP_cons_eq_if_modifyHead, if_neg slash, split more plain]
        rfl

theorem parts_append (name : String) (plain : '/' ∉ ending.toList) :
    parts (name ++ ending) =
      (parts name).dropLast ++ [(parts name).getLastD [] ++ ending.toList] := by
  obtain ⟨before, last, split⟩ := exists_splitOnP_append (· == '/') name.toList
  have whole : parts name = before ++ [last] := by
    have bare := split [] (by simp)
    rwa [List.append_nil, List.append_nil] at bare
  have both := split ending.toList fun c hc => beq_eq_false_iff_ne.2 (ne_of_mem_of_not_mem hc plain)
  rw [parts, String.toList_append, both, whole, List.dropLast_concat, List.getLastD_concat]

/-- An ending belongs to what follows the last slash. -/
theorem parse_append (name : String) (plain : '/' ∉ ending.toList) (long : 1 < ending.length) :
    parse (name ++ ending) = leading name ++ [stem name ++ ending] := by
  have kept : (stem name ++ ending != "" && stem name ++ ending != ".") = true := by
    have short (s : String) (h : s.length ≤ 1) : stem name ++ ending ≠ s := by
      rintro rfl
      rw [String.length_append] at h
      omega
    simp [short "" (by decide), short "." (by decide)]
  have text : String.ofList ((parts name).getLastD [] ++ ending.toList) = stem name ++ ending := by
    rw [String.ofList_append, String.ofList_toList, stem]
  rw [parse, ← parts, parts_append name plain, List.map_append, List.filter_append, leading,
    List.map_singleton, text, List.filter_singleton, kept]
  rfl

/-- A name without slashes has one part. -/
theorem parts_of_plain (plain : '/' ∉ name.toList) : parts name = [name.toList] :=
  List.splitOnP_eq_singleton fun _ hc => beq_eq_false_iff_ne.2 (ne_of_mem_of_not_mem hc plain)

theorem stem_of_plain (plain : '/' ∉ name.toList) : stem name = name := by
  rw [stem, parts_of_plain plain]
  exact String.ofList_toList

theorem leading_of_plain (plain : '/' ∉ name.toList) : leading name = [] := by
  rw [leading, parts_of_plain plain]
  rfl

/-- A name that a file in the directory itself can have. -/
@[mk_iff]
structure IsPlain (name : String) : Prop where
  plain : '/' ∉ name.toList
  own : name ∉ ["", ".", ".."]
  short : name.utf8ByteSize ≤ 255
  text : '\x00' ∉ name.toList

instance (name : String) : Decidable (IsPlain name) :=
  decidable_of_iff _ (isPlain_iff name).symm

theorem IsPlain.ne (h : IsPlain name) : name ≠ "" ∧ name ≠ "." ∧ name ≠ ".." := by
  simpa using h.own

theorem IsPlain.isFileName (h : IsPlain name) : isFileName name = true := by
  rw [Path.isFileName, decide_eq_true h.short, String.contains_char_eq, decide_eq_false h.text]
  rfl

theorem IsPlain.parse (h : IsPlain name) : parse name = [name] := by
  obtain ⟨empty, same, -⟩ := h.ne
  rw [Path.parse, ← parts, parts_of_plain h.plain, List.map_singleton, String.ofList_toList,
    List.filter_singleton, bne_iff_ne.2 empty, bne_iff_ne.2 same]
  rfl

/-- A name without slashes does not start at the root. -/
theorem startsWith_of_plain (plain : '/' ∉ name.toList) : name.startsWith "/" = false :=
  String.startsWith_string_eq_false_iff.2 fun h => plain (h.mem (List.mem_singleton_self _))

theorem endsWith_of_plain (plain : '/' ∉ name.toList) : name.endsWith "/" = false := by
  rw [String.endsWith_eq_endsWith_toSlice, String.Slice.endsWith_string_eq_false_iff,
    String.copy_toSlice]
  exact fun h => plain (h.mem (List.mem_singleton_self _))

end Path

namespace FileTree

variable {t u v : FileTree} {p q here : Path} {l m : List (String × String)}

/-- **A name with an ending leads to a file in the directory to which the name leads.** -/
theorem place_append {name ending : String} (plain : '/' ∉ ending.toList)
    (long : 1 < ending.length) (h : t.place here (name ++ ending) = some p) :
    p = here.walk (Path.leading name) ++ [Path.stem name ++ ending] := by
  unfold place at h
  split at h
  · cases h
  · obtain ⟨before, last, names, -, rfl⟩ := locate_eq_some h
    rw [Path.parse_append name plain long] at names
    obtain ⟨rfl, same⟩ := List.append_inj' names rfl
    rw [List.singleton_inj.1 same]

/-- A plain name leads to a file in the directory itself. -/
theorem place_of_plain {name : String} (h : Path.IsPlain name) :
    t.place here name = some (here ++ [name]) := by
  rw [place, Path.startsWith_of_plain h.plain, Path.endsWith_of_plain h.plain, h.parse, locate,
    if_neg h.ne.2.2]
  rfl

/-- A directory with a plain name is made in an empty tree. -/
theorem enter_of_plain {name : String} (h : Path.IsPlain name) :
    enter {} name = some ([name], { directories := [[name]] }) := by
  rw [enter, Path.startsWith_of_plain h.plain, h.parse, follow, if_neg h.ne.2.2]
  rfl

/-! ### Several files -/

/-- There is a place for a file where a written path leads. -/
def Writable (t : FileTree) (here : Path) (name : String) : Prop :=
  ∃ p, t.place here name = some p ∧ t.Place p

theorem exists_write_iff {name : String} (content : String) :
    (∃ u, (t.place here name).bind (fun p => t.write p content) = some u) ↔
      t.Writable here name := by
  simp only [Option.bind_eq_some_iff, write_eq_some_iff]
  exact ⟨fun ⟨_, p, placed, place, _⟩ => ⟨p, placed, place⟩,
    fun ⟨p, placed, place⟩ => ⟨_, p, placed, place, rfl⟩⟩

/-- In a new directory there is a place for every file with a plain name. -/
theorem writable_of_plain {directory name : String} (h : Path.IsPlain directory)
    (h' : Path.IsPlain name) : Writable { directories := [[directory]] } [directory] name :=
  ⟨_, place_of_plain h', by simp [isDirectory], by simp [isDirectory, Path.parent],
    by simp [h.isFileName, h'.isFileName]⟩

/-- Files that have been written do not take the place of others. -/
theorem writable_congr (same : u.directories = t.directories) {name : String} :
    u.Writable here name ↔ t.Writable here name := by
  have place (p : Path) : u.Place p ↔ t.Place p := by
    rw [place_iff, place_iff, isDirectory_congr same, isDirectory_congr same]
  simp only [Writable, place_congr same, place]

/-- What is written last to a path, among files with written paths. -/
def lastAt (t : FileTree) (here : Path) (l : List (String × String)) (p : Path) : Option String :=
  ((l.filter fun f => t.place here f.1 = some p).getLast?).map (·.2)

/-- There is what has been written in order. -/
structure Wrote (here : Path) (t : FileTree) (l : List (String × String)) (u : FileTree) :
    Prop where
  directories : u.directories = t.directories
  placed : ∀ f ∈ l, ∃ p, t.place here f.1 = some p
  file? : ∀ p, u.file? p = (t.lastAt here l p).or (t.file? p)

theorem Wrote.nil : Wrote here t [] t := ⟨rfl, fun _ hf => (List.not_mem_nil hf).elim, fun _ => rfl⟩

theorem Wrote.single {name content : String} (placed : t.place here name = some p)
    (h : t.write p content = some u) : Wrote here t [(name, content)] u where
  directories := directories_write h
  placed f hf := ⟨p, List.mem_singleton.1 hf ▸ placed⟩
  file? q := by
    rw [file?_write h, lastAt, List.filter_singleton, placed]
    by_cases same : q = p
    · simp [same]
    · simp [same, Ne.symm same]

/-- Files are written after others. -/
theorem Wrote.append (h : Wrote here t l u) (h' : Wrote here u m v) : Wrote here t (l ++ m) v := by
  -- the files before have changed no directory, so a path still leads where it did
  have place (name : String) : u.place here name = t.place here name :=
    place_congr h.directories here name
  refine ⟨h'.directories.trans h.directories, fun f hf => ?_, fun p => ?_⟩
  · rcases List.mem_append.1 hf with hf | hf
    · exact h.placed f hf
    · exact place f.1 ▸ h'.placed f hf
  · rw [h'.file?, h.file?, ← Option.or_assoc, lastAt, lastAt, lastAt, List.filter_append,
      List.getLast?_append, Option.map_or]
    simp only [place]

/-- If no path is written twice, there is what has been written. -/
theorem Wrote.kept (h : Wrote here t l u)
    (apart : (l.map fun f => t.place here f.1).Nodup) {f : String × String} (hf : f ∈ l)
    (placed : t.place here f.1 = some p) : u.file? p = some f.2 := by
  have among : f ∈ l.filter fun f => t.place here f.1 = some p :=
    List.mem_filter.2 ⟨hf, decide_eq_true placed⟩
  obtain ⟨g, last⟩ := Option.isSome_iff_exists.1
    (List.getLast?_isSome.2 (List.ne_nil_of_mem among))
  obtain ⟨listed, there⟩ := List.mem_filter.1 (List.mem_of_getLast? last)
  have same : g = f :=
    List.inj_on_of_nodup_map apart listed hf ((of_decide_eq_true there).trans placed.symm)
  rw [h.file?, lastAt, last, same]
  rfl

end FileTree

end WorkerCluster
