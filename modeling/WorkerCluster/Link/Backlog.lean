import WorkerCluster.Link.Event

/-!
# Backlogs of events

Events of links wait until they are taken, but no more than so many of them: of a longer row the
oldest are lost.
-/

namespace WorkerCluster

/-- The events that wait, the oldest first. -/
structure Backlog where
  events : List LinkEvent := []
  deriving DecidableEq, Inhabited

namespace Backlog

/-- How many events may wait. -/
def capacity : Nat := 256

/-- Add an event. -/
def push (b : Backlog) (e : LinkEvent) : Backlog :=
  let all := b.events ++ [e]
  ⟨all.drop (all.length - capacity)⟩

/-- Take the oldest event. -/
def pop? (b : Backlog) : Option (LinkEvent × Backlog) :=
  match b.events with
  | [] => none
  | e :: rest => some (e, ⟨rest⟩)

end Backlog

end WorkerCluster
