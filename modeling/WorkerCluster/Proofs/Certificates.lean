import Mathlib.Data.List.Nodup
import WorkerCluster.Certificate
import WorkerCluster.Proofs.Host.Writing

/-!
# Which certificates are left

* `exists_write_iff` says when the files of a cluster are written: there has to be a place for each
  of them, and a certificate for each node.
* `wrote_of_write` says what there is when they have been written in order.
* `Kept` holds if they stand in the directory itself, each under a path of its own.
* `kept_iff` is the main statement: this depends on the ids of the nodes. Two of them may have the
  same last part, one may have that of the authority, and one may lead elsewhere.
-/

namespace WorkerCluster.Certificates

open FileTree (Wrote Writable)

variable {t u : FileTree} {here : Path} {directory : String} {specs : List CertificateSpec}
  {l : List (String × String)}

/-! ### Writing -/

theorem wrote_of_writeAll (done : writeAll directory here t l = (.ok (), u)) :
    Wrote here t l u := by
  induction l generalizing t with
  | nil =>
    obtain rfl := (Prod.mk.inj done).2
    exact .nil
  | cons f l ih =>
    obtain ⟨name, content⟩ := f
    rw [writeAll] at done
    split at done
    · next v put =>
      obtain ⟨p, placed, put⟩ := Option.bind_eq_some_iff.1 put
      exact (Wrote.single placed put).append (ih done)
    · cases (Prod.mk.inj done).1

theorem wrote_of_writeNodes (done : writeNodes directory here t specs = (.ok (), u)) :
    Wrote here t (specs.flatMap fun s => pair s.node) u := by
  induction specs generalizing t with
  | nil =>
    obtain rfl := (Prod.mk.inj done).2
    exact .nil
  | cons s specs ih =>
    rw [writeNodes] at done
    split at done
    · cases (Prod.mk.inj done).1
    · split at done
      · next v pair => exact (wrote_of_writeAll pair).append (ih done)
      · cases (Prod.mk.inj done).1

/-- Files are written if there is a place for each of them. -/
theorem exists_writeAll_iff : (∃ u, writeAll directory here t l = (.ok (), u)) ↔
    ∀ f ∈ l, t.Writable here f.1 := by
  induction l generalizing t with
  | nil => simp [writeAll]
  | cons f l ih =>
    obtain ⟨name, content⟩ := f
    rw [List.forall_mem_cons, ← FileTree.exists_write_iff content, writeAll]
    split
    · next v put =>
      obtain ⟨p, placed, written⟩ := Option.bind_eq_some_iff.1 put
      have same := FileTree.directories_write written
      rw [ih, and_iff_right ⟨v, put⟩]
      exact forall₂_congr fun f _ => FileTree.writable_congr same
    · next fails => simp [fails]

/-- The pairs of nodes are written if there is a place for each file and a certificate for each
node. -/
theorem exists_writeNodes_iff : (∃ u, writeNodes directory here t specs = (.ok (), u)) ↔
    ∀ s ∈ specs, s.foreign? = none ∧ ∀ f ∈ pair s.node, t.Writable here f.1 := by
  induction specs generalizing t with
  | nil => simp [writeNodes]
  | cons s specs ih =>
    rw [List.forall_mem_cons, ← exists_writeAll_iff, writeNodes]
    split
    · next a foreign => simp [foreign]
    · next own =>
      split
      · next v written =>
        have same := (wrote_of_writeAll written).directories
        rw [ih, and_iff_right ⟨own, v, written⟩]
        refine forall₂_congr fun s _ => and_congr_right' (forall₂_congr fun f _ => ?_)
        exact FileTree.writable_congr same
      · next e v fails => simp [fails]

/-- **The files of a cluster are written in order**, in the directory that has been made for
them. -/
theorem wrote_of_write (done : write t directory specs = (.ok (), u)) :
    ∃ here made, t.enter directory = some (here, made) ∧ Wrote here made (files specs) u := by
  unfold write at done
  split at done
  · cases (Prod.mk.inj done).1
  · next here made entered =>
    split at done
    · next v authority =>
      exact ⟨here, made, entered, (wrote_of_writeAll authority).append (wrote_of_writeNodes done)⟩
    · cases (Prod.mk.inj done).1

/-- **The files of a cluster are written** if the directory can be entered, there is a place for
each file, and every address can stand in a certificate. -/
theorem exists_write_iff : (∃ u, write t directory specs = (.ok (), u)) ↔
    ∃ here made, t.enter directory = some (here, made) ∧
      (∀ s ∈ specs, s.foreign? = none) ∧ ∀ f ∈ files specs, made.Writable here f.1 := by
  unfold write
  split
  · next closed => simp [closed]
  · next here made entered =>
    have one (P : Path → FileTree → Prop) :
        (∃ h m, t.enter directory = some (h, m) ∧ P h m) ↔ P here made := by simp [entered]
    rw [one, files, List.forall_mem_append, ← exists_writeAll_iff, List.forall_mem_flatMap]
    split
    · next v authority =>
      have same := (wrote_of_writeAll authority).directories
      rw [exists_writeNodes_iff, and_left_comm, and_iff_right ⟨v, authority⟩, ← forall₂_and]
      refine forall₂_congr fun s _ => and_congr_right' (forall₂_congr fun f _ => ?_)
      exact FileTree.writable_congr same
    · next e v fails => simp [fails]

/-- The files of a cluster with plain names are written into a new directory. -/
theorem exists_write_of_plain (h : Path.IsPlain directory)
    (h' : ∀ f ∈ files specs, Path.IsPlain f.1) (own : ∀ s ∈ specs, s.foreign? = none) :
    ∃ u, write {} directory specs = (.ok (), u) :=
  exists_write_iff.2 ⟨_, _, FileTree.enter_of_plain h, own, fun f hf =>
    FileTree.writable_of_plain h (h' f hf)⟩

/-! ### Paths -/

/-- All files of a cluster stand in the directory itself, each under a path of its own, and are
there. -/
structure Kept (here : Path) (t : FileTree) (specs : List CertificateSpec) (u : FileTree) :
    Prop where
  inside : ∀ f ∈ files specs, ∃ name, t.place here f.1 = some (here ++ [name])
  apart : ((files specs).map fun f => t.place here f.1).Nodup
  there : ∀ f ∈ files specs, ∃ p, t.place here f.1 = some p ∧ u.file? p = some f.2

/-- The ids under which pairs are kept, that of the authority first. -/
def ids (specs : List CertificateSpec) : List String := authority :: specs.map (·.node)

theorem files_eq (specs : List CertificateSpec) : files specs = (ids specs).flatMap pair := by
  rw [ids, List.flatMap_cons, List.flatMap_map, files]

/-- The paths of a pair. -/
def paths (here : Path) (id : String) : List Path :=
  [here.walk (Path.leading id) ++ [Path.stem id ++ ".pem"],
    here.walk (Path.leading id) ++ [Path.stem id ++ ".key"]]

theorem place_pair {id : String}
    (placed : ∀ f ∈ pair id, ∃ p, t.place here f.1 = some p) :
    (pair id).map (fun f => t.place here f.1) = (paths here id).map some := by
  obtain ⟨⟨p, pem⟩, ⟨q, key⟩, -⟩ : (∃ p, t.place here (id ++ ".pem") = some p) ∧
      (∃ q, t.place here (id ++ ".key") = some q) ∧ True := by
    simpa [pair] using placed
  rw [pair, List.map_cons, List.map_singleton, pem, key,
    FileTree.place_append (by decide) (by decide) pem,
    FileTree.place_append (by decide) (by decide) key]
  rfl

theorem places_eq (wrote : Wrote here t (files specs) u) :
    (files specs).map (fun f => t.place here f.1) =
      ((ids specs).flatMap (paths here)).map some := by
  have placed := wrote.placed
  rw [files_eq] at placed ⊢
  rw [List.map_flatMap, List.map_flatMap]
  refine List.flatMap_congr fun id hid => place_pair fun f hf => ?_
  exact placed f (List.mem_flatMap.2 ⟨id, hid, hf⟩)

/-- A certificate and a key never have the same name. -/
theorem pem_ne_key (a b : String) : a ++ ".pem" ≠ b ++ ".key" := by
  intro same
  have same := congrArg String.toList same
  rw [String.toList_append, String.toList_append] at same
  exact absurd (List.append_inj' same (by decide)).2 (by decide)

/-- In one directory only the last parts of ids tell pairs apart. -/
theorem nodup_flatMap_pair {names : List String} :
    (names.flatMap fun s => [here ++ [s ++ ".pem"], here ++ [s ++ ".key"]]).Nodup ↔
      names.Nodup := by
  have apart (a b : String) : Function.onFun List.Disjoint
      (fun s => [here ++ [s ++ ".pem"], here ++ [s ++ ".key"]]) a b ↔ a ≠ b := by
    simp [Function.onFun, pem_ne_key, (pem_ne_key _ _).symm, eq_comm]
  have own (s : String) : [here ++ [s ++ ".pem"], here ++ [s ++ ".key"]].Nodup := by
    simp
  rw [List.nodup_flatMap, List.Pairwise.iff apart]
  exact and_iff_right fun s _ => own s

/-- A pair stands in the directory to which all but the last part of its id lead. -/
theorem inside_iff (wrote : Wrote here t (files specs) u) :
    (∀ f ∈ files specs, ∃ name, t.place here f.1 = some (here ++ [name])) ↔
      ∀ id ∈ ids specs, here.walk (Path.leading id) = here := by
  have places : (∀ f ∈ files specs, ∃ name, t.place here f.1 = some (here ++ [name])) ↔
      ∀ x ∈ (files specs).map (fun f => t.place here f.1), ∃ name, x = some (here ++ [name]) := by
    rw [List.forall_mem_map]
  rw [places, places_eq wrote, List.forall_mem_map, List.forall_mem_flatMap]
  refine forall₂_congr fun id _ => ?_
  simp only [paths, List.forall_mem_cons, Option.some.injEq]
  constructor
  · rintro ⟨⟨name, pem⟩, -⟩
    exact (List.append_inj' pem rfl).1
  · intro inside
    rw [inside]
    exact ⟨⟨_, rfl⟩, ⟨_, rfl⟩, by simp⟩

/-- The files are kept if no id leads to another directory, and the last parts of the ids differ
from each other and from the name of the authority. -/
theorem kept_iff_of_wrote (wrote : Wrote here t (files specs) u) :
    Kept here t specs u ↔
      (∀ s ∈ specs, here.walk (Path.leading s.node) = here) ∧
        (authority :: specs.map fun s => Path.stem s.node).Nodup := by
  have plain : '/' ∉ authority.toList := by decide
  have leads : (∀ id ∈ ids specs, here.walk (Path.leading id) = here) ↔
      ∀ s ∈ specs, here.walk (Path.leading s.node) = here := by
    rw [ids, List.forall_mem_cons, Path.leading_of_plain plain, List.forall_mem_map]
    exact and_iff_right rfl
  have stems : (ids specs).map Path.stem = authority :: specs.map fun s => Path.stem s.node := by
    rw [ids, List.map_cons, Path.stem_of_plain plain, List.map_map]
    rfl
  -- once all pairs are in one directory, paths differ where last parts do
  have apart (inside : ∀ id ∈ ids specs, here.walk (Path.leading id) = here) :
      ((files specs).map fun f => t.place here f.1).Nodup ↔
        (authority :: specs.map fun s => Path.stem s.node).Nodup := by
    have each : (ids specs).flatMap (paths here) = ((ids specs).map Path.stem).flatMap fun s =>
        [here ++ [s ++ ".pem"], here ++ [s ++ ".key"]] := by
      rw [List.flatMap_map]
      exact List.flatMap_congr fun id hid => by rw [paths, inside id hid]
    rw [places_eq wrote, List.nodup_map_iff fun _ _ => Option.some.inj, each, nodup_flatMap_pair,
      stems]
  constructor
  · rintro ⟨inside, distinct, -⟩
    have inside := (inside_iff wrote).1 inside
    exact ⟨leads.1 inside, (apart inside).1 distinct⟩
  · rintro ⟨inside, distinct⟩
    have inside := leads.2 inside
    have distinct := (apart inside).2 distinct
    refine ⟨(inside_iff wrote).2 inside, distinct, fun f hf => ?_⟩
    obtain ⟨p, placed⟩ := wrote.placed f hf
    exact ⟨p, placed, wrote.kept distinct hf placed⟩

/-- **Which files of a cluster are left is decided by the ids of its nodes.** They all stand in the
directory itself, and none replaces another, if no id leads to another directory, and the last parts
of the ids differ from each other and from the name of the authority. For ids without slashes this
means that no id stands twice or is that name. -/
theorem kept_iff (done : write t directory specs = (.ok (), u)) :
    ∃ here made, t.enter directory = some (here, made) ∧ Wrote here made (files specs) u ∧
      (Kept here made specs u ↔
        (∀ s ∈ specs, here.walk (Path.leading s.node) = here) ∧
          (authority :: specs.map fun s => Path.stem s.node).Nodup) ∧
      ((∀ s ∈ specs, '/' ∉ s.node.toList) →
        (Kept here made specs u ↔ (authority :: specs.map (·.node)).Nodup)) := by
  obtain ⟨here, made, entered, wrote⟩ := wrote_of_write done
  refine ⟨here, made, entered, wrote, kept_iff_of_wrote wrote, fun plain => ?_⟩
  have inside : ∀ s ∈ specs, here.walk (Path.leading s.node) = here := fun s hs => by
    rw [Path.leading_of_plain (plain s hs)]
    rfl
  have stems : (specs.map fun s => Path.stem s.node) = specs.map (·.node) :=
    List.map_congr_left fun s hs => Path.stem_of_plain (plain s hs)
  rw [kept_iff_of_wrote wrote, stems]
  exact and_iff_right inside

/-- Two nodes with plain ids. -/
def plain : List CertificateSpec := [⟨"node-1", ["10.0.0.1"]⟩, ⟨"node-2", ["10.0.0.2"]⟩]

theorem plain_kept :
    ∃ u here made, write {} "certs" plain = (.ok (), u) ∧
      FileTree.enter {} "certs" = some (here, made) ∧ Kept here made plain u := by
  obtain ⟨u, done⟩ : ∃ u, write {} "certs" plain = (.ok (), u) :=
    exists_write_of_plain (by decide) (by decide) (by decide)
  obtain ⟨here, made, entered, -, -, kept⟩ := kept_iff done
  exact ⟨u, here, made, done, entered, (kept (by decide)).2 (by decide)⟩

/-- A node with the name under which the authority is kept takes the place of the authority. -/
theorem not_always_kept :
    ¬ ∀ (t : FileTree) (directory : String) (texts : List String) (specs : List CertificateSpec)
        (u : FileTree), texts.mapM CertificateSpec.parse = .ok specs →
      write t directory specs = (.ok (), u) →
      ∃ here made, t.enter directory = some (here, made) ∧ Kept here made specs u := by
  intro always
  obtain ⟨u, done⟩ : ∃ u, write {} "o" [⟨"ca", ["h"]⟩] = (.ok (), u) :=
    exists_write_of_plain (by decide) (by decide) (by decide)
  obtain ⟨here, made, -, kept⟩ := always {} "o" ["ca=h"] [⟨"ca", ["h"]⟩] u (by decide) done
  -- the paths of the authority are those of the node as well
  have twice := kept.apart
  have four : files [⟨"ca", ["h"]⟩] = pair authority ++ pair authority := rfl
  rw [four, List.map_append] at twice
  exact (List.disjoint_of_nodup_append twice) (List.mem_cons_self ..) (List.mem_cons_self ..)

end WorkerCluster.Certificates
