import Mathlib.Data.List.Basic
import WorkerCluster.Host.Files

/-!
# Directories beside each other

* `Path.IsEntry` says what may be the name of something in a directory.
* `FileTree.SameAt` holds if there is the same in two trees where a path leads. `sameAt_removeDir`
  says what stays when a directory is removed: everything outside of it.
-/

namespace WorkerCluster

namespace Path

/-- The name of something in a directory, written without slashes. -/
structure IsEntry (name : String) : Prop where
  nonempty : name ≠ ""
  here : name ≠ "."
  above : name ≠ ".."
  single : '/' ∉ name.toList

variable {p d e : Path}

theorem isWithin_iff : p.isWithin d = true ↔ d <+: p := List.isPrefixOf_iff_prefix

/-- Directories that have something in common are one within the other. -/
theorem isWithin_or_isWithin (hd : p.isWithin d = true) (he : p.isWithin e = true) :
    e.isWithin d = true ∨ d.isWithin e = true := by
  simp only [isWithin_iff] at *
  exact List.prefix_or_prefix_of_prefix hd he

end Path

namespace FileTree

/-- There is the same in two trees where a path leads. -/
structure SameAt (t u : FileTree) (p : Path) : Prop where
  directory : u.isDirectory p = t.isDirectory p
  file : u.file? p = t.file? p

variable {p d : Path}

/-- Directories can be made unless files are in the way, whatever directories there are. -/
theorem makeDirs_eq_none_congr {t u : FileTree} (same : u.files = t.files) :
    u.makeDirs p = none ↔ t.makeDirs p = none := by
  have files : u.isFile = t.isFile := by
    funext q
    rw [isFile, isFile, file?, file?, same]
  rw [makeDirs, makeDirs, files]
  split <;> simp

/-- Making directories makes no files. -/
theorem files_makeDirs {t u : FileTree} (made : t.makeDirs p = some u) : u.files = t.files := by
  unfold makeDirs at made
  split at made
  · cases made
  · cases made
    rfl

theorem SameAt.refl (t : FileTree) (p : Path) : t.SameAt t p := ⟨rfl, rfl⟩

/-- What is not filtered out is found where it was. -/
theorem lookup_filter (keeps : Path → Bool) (kept : keeps p = true)
    (files : List (Path × String)) :
    (files.filter fun f => keeps f.1).lookup p = files.lookup p := by
  induction files with
  | nil => rfl
  | cons f files ih =>
    obtain ⟨q, content⟩ := f
    rw [List.filter_cons]
    split
    · rw [List.lookup_cons, List.lookup_cons, ih]
    · next dropped =>
      have other : (p == q) = false := by
        rw [beq_eq_false_iff_ne]
        rintro rfl
        exact dropped kept
      rw [List.lookup_cons, other, ih]

/-- **Nothing outside a directory changes when it is removed.** -/
theorem sameAt_removeDir (t : FileTree) (outside : p.isWithin d = false) :
    t.SameAt (t.removeDir d) p where
  directory := by
    have kept : (t.directories.filter fun q => !q.isWithin d).contains p =
        t.directories.contains p := by
      rw [Bool.eq_iff_iff, List.contains_iff_mem, List.contains_iff_mem, List.mem_filter, outside]
      exact and_iff_left rfl
    rw [isDirectory, removeDir, kept, isDirectory]
  file := lookup_filter (fun q => !q.isWithin d) (by rw [outside]; rfl) t.files

end FileTree

end WorkerCluster
