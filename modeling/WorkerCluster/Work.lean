/-!
# Work

Work waits in a queue until a loop comes to it.

* `Work` is something to do, with the work that it submits while it is done.
* `Work.drain` does all that waits, in order. Work that breaks ends it; what waits behind goes on
  waiting. `Work.exhaust` goes on behind work that breaks.
* `Loop.tick` does all that waits and then what is to be done from time to time.
-/

namespace WorkerCluster

/-- Something to do, with the work that it submits while it is done. -/
inductive Work (α : Type) where
  | item (task : α) (submits : List (Work α))

namespace Work

variable {σ α : Type}

/-- Work that submits nothing. -/
def plain (task : α) : Work α := .item task []

mutual

/-- The number of items in the work. -/
def size : Work α → Nat
  | .item _ submits => 1 + sizes submits

/-- The number of items in all work in a queue. -/
def sizes : List (Work α) → Nat
  | [] => 0
  | w :: rest => w.size + sizes rest

end

theorem sizes_append (p q : List (Work α)) : sizes (p ++ q) = sizes p + sizes q := by
  induction p with
  | nil => simp [sizes]
  | cons w p ih => simp [sizes, ih, Nat.add_assoc]

theorem sizes_after (task : α) (submits rest : List (Work α)) :
    sizes (rest ++ submits) < sizes (.item task submits :: rest) := by
  rw [sizes_append]
  simp only [sizes, size]
  omega

/-- What comes of doing all that waits. -/
structure Drained (σ α : Type) where
  state : σ
  /-- What goes on waiting. -/
  queue : List (Work α)
  /-- How many items were done. -/
  count : Nat
  /-- Whether an item broke. -/
  broken : Bool

/-- Do all that waits, in order. What an item submits comes last. Doing an item yields whether it
went through; one that breaks ends everything. -/
def drain (perform : σ → α → Bool × σ) (queue : List (Work α)) (s : σ) : Drained σ α :=
  match queue with
  | [] => ⟨s, [], 0, false⟩
  | .item task submits :: rest =>
    match perform s task with
    | (true, s) =>
      let d := drain perform (rest ++ submits) s
      { d with count := d.count + 1 }
    | (false, s) => ⟨s, rest ++ submits, 0, true⟩
termination_by sizes queue
decreasing_by exact sizes_after task submits rest

/-- Do all that waits, going on behind items that break. -/
def exhaust (perform : σ → α → Bool × σ) (queue : List (Work α)) (s : σ) : σ :=
  match queue with
  | [] => s
  | .item task submits :: rest => exhaust perform (rest ++ submits) (perform s task).2
termination_by sizes queue
decreasing_by exact sizes_after task submits rest

end Work

/-- A loop that does the work on a state. -/
structure Loop (σ α : Type) where
  state : σ
  /-- The work that waits, in the order in which it was submitted. -/
  queue : List (Work α) := []
  /-- How often the loop ticks in a second. -/
  ticksPerSecond : Nat
  /-- How often the loop has ticked. -/
  ticks : Nat := 0

namespace Loop

variable {σ α : Type}

/-- Submit work. -/
def submit (l : Loop σ α) (w : Work α) : Loop σ α := { l with queue := l.queue ++ [w] }

/-- Do all that waits: how many items were done, unless one broke. -/
def drain (perform : σ → α → Bool × σ) (l : Loop σ α) : Option Nat × Loop σ α :=
  let d := Work.drain perform l.queue l.state
  (if d.broken then none else some d.count, { l with state := d.state, queue := d.queue })

/-- Do all that waits, going on behind items that break. -/
def exhaust (perform : σ → α → Bool × σ) (l : Loop σ α) : Loop σ α :=
  { l with state := Work.exhaust perform l.queue l.state, queue := [] }

/-- Whether a second is over with the next tick. -/
def isFullSecond (l : Loop σ α) : Bool := l.ticks % l.ticksPerSecond = 0

/-- Do all that waits, then look after the state, more thoroughly once in a second. If an item
breaks, that is left to the next tick. -/
def tick (perform : σ → α → Bool × σ) (upkeep : Bool → σ → σ) (l : Loop σ α) : Loop σ α :=
  let second := l.isFullSecond
  match l.drain perform with
  | (some _, l) => { l with state := upkeep second l.state, ticks := l.ticks + 1 }
  | (none, l) => { l with ticks := l.ticks + 1 }

/-- Tick a number of times. -/
def run (perform : σ → α → Bool × σ) (upkeep : Bool → σ → σ) : Nat → Loop σ α → Loop σ α
  | 0, l => l
  | n + 1, l => run perform upkeep n (l.tick perform upkeep)

end Loop

end WorkerCluster
