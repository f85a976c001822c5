/-!
# The last lines of a console

`LogTail` keeps as many lines as fit; a new line drives out the oldest one.
-/

namespace WorkerCluster

/-- The last lines of a console. -/
structure LogTail where
  /-- How many lines fit. -/
  capacity : Nat
  /-- The lines, the oldest first. -/
  lines : List String
  /-- No more lines are kept than fit. -/
  fits : lines.length ≤ capacity
  deriving DecidableEq

namespace LogTail

/-- No lines. -/
def empty (capacity : Nat) : LogTail := ⟨capacity, [], Nat.zero_le _⟩

instance : Inhabited LogTail := ⟨empty 0⟩

theorem length_lt_capacity {t : LogTail} {line : String} (h : t.lines.length < t.capacity) :
    (t.lines ++ [line]).length ≤ t.capacity := by
  simp
  omega

theorem length_drop {t : LogTail} {line : String} (h : ¬ t.capacity = 0) :
    (t.lines.drop 1 ++ [line]).length ≤ t.capacity := by
  have := t.fits
  simp
  omega

/-- Add a line. -/
def push (t : LogTail) (line : String) : LogTail :=
  if h : t.capacity = 0 then t
  else if h' : t.lines.length < t.capacity then
    ⟨t.capacity, t.lines ++ [line], length_lt_capacity h'⟩
  else ⟨t.capacity, t.lines.drop 1 ++ [line], length_drop h⟩

/-- Add lines in order. -/
def extend (t : LogTail) (lines : List String) : LogTail := lines.foldl push t

end LogTail

end WorkerCluster
