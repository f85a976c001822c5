/-!
# File trees

Directories and files below a root, by path.

* `FileTree.makeDirs` makes a directory and those above it, unless a file is in the way.
* `FileTree.enter` does the same for a written path, in which `..` leads up.
* `FileTree.removeDir` removes a directory with everything in it.
-/

namespace WorkerCluster

/-- The names that lead from the root to a directory or a file. -/
abbrev Path := List String

namespace Path

/-- Read a path with slashes between names. -/
def parse (text : String) : Path :=
  ((text.toList.splitOnP (· == '/')).map String.ofList).filter fun name => name != "" && name != "."

/-- Write a path with slashes between names. -/
def text (p : Path) : String := "/".intercalate p

/-- The path itself and all paths above it, without the root. -/
def chain (p : Path) : List Path := (List.range p.length).map fun i => p.take (i + 1)

/-- The path above. -/
def parent (p : Path) : Path := p.dropLast

/-- Whether a text may name a file. -/
def isFileName (name : String) : Bool := name.utf8ByteSize ≤ 255 && !name.contains '\x00'

/-- Whether a path leads into a directory, or is the directory's own. -/
def isWithin (p directory : Path) : Bool := directory.isPrefixOf p

end Path

/-- The directories and files below a root. -/
structure FileTree where
  directories : List Path := []
  /-- The files with what they hold. -/
  files : List (Path × String) := []
  deriving DecidableEq, Inhabited

namespace FileTree

/-- Whether a path leads to a directory. -/
def isDirectory (t : FileTree) (p : Path) : Bool := p = [] || t.directories.contains p

/-- What the file at a path holds. -/
def file? (t : FileTree) (p : Path) : Option String := t.files.lookup p

/-- Whether a path leads to a file. -/
def isFile (t : FileTree) (p : Path) : Bool := (t.file? p).isSome

/-- Whether a path leads to anything. -/
def exists? (t : FileTree) (p : Path) : Bool := t.isDirectory p || t.isFile p

/-- Make a directory and those above it. It fails if a file is in the way. -/
def makeDirs (t : FileTree) (p : Path) : Option FileTree :=
  if p.chain.any t.isFile then none
  else
    let missing := p.chain.filter fun q => !t.directories.contains q
    some { t with directories := t.directories ++ missing }

/-- Remove a directory with everything in it. -/
def removeDir (t : FileTree) (p : Path) : FileTree where
  directories := t.directories.filter fun q => !q.isWithin p
  files := t.files.filter fun f => !f.1.isWithin p

/-- Write a file. It fails if the directory is missing, the path leads to a directory, or the name
cannot be one. -/
def write (t : FileTree) (p : Path) (content : String) : Option FileTree :=
  if t.isDirectory p || !t.isDirectory p.parent || !p.all Path.isFileName then none
  else some { t with files := (p, content) :: t.files.filter fun f => f.1 != p }

/-- Make an empty file, with the directories above it. -/
def touch (t : FileTree) (p : Path) : Option FileTree :=
  (t.makeDirs p.parent).bind fun t => t.write p ""

/-! ### Written paths -/

/-- Follow names from a directory, making the directories on the way. -/
def follow (t : FileTree) (here : Path) : List String → Option (Path × FileTree)
  | [] => some (here, t)
  | name :: rest =>
    if name = ".." then
      if here = [] then none else t.follow here.parent rest
    else (t.makeDirs (here ++ [name])).bind fun t => t.follow (here ++ [name]) rest

/-- Follow a written path from the root, making the directories on the way. Nothing above the root
is reached. -/
def enter (t : FileTree) (text : String) : Option (Path × FileTree) :=
  if text.startsWith "/" then none else t.follow [] (Path.parse text)

/-- Where a written path leads from a directory. Everything on the way has to be a directory. -/
def locate (t : FileTree) (here : Path) : List String → Option Path
  | [] => none
  | [name] => if name = ".." then none else some (here ++ [name])
  | name :: rest =>
    let next := if name = ".." then here.parent else here ++ [name]
    if (name = ".." && here = []) || !t.isDirectory next then none else t.locate next rest

/-- The file to which a written path leads from a directory. One that begins with a slash leads out
of the tree. -/
def place (t : FileTree) (here : Path) (text : String) : Option Path :=
  if text.startsWith "/" || text.endsWith "/" then none else t.locate here (Path.parse text)

/-- Whether there is anything at a written path. -/
def holds (t : FileTree) (text : String) : Bool :=
  match Path.parse text with
  | [] => true
  | names => (t.locate [] names).any t.exists?

/-- All directories, with a slash behind them, and all files, in order. -/
def listing (t : FileTree) : List String :=
  let all := t.directories.map (fun p => p.text ++ "/") ++ t.files.map fun f => f.1.text
  all.mergeSort fun a b => !(b < a)

end FileTree

end WorkerCluster
