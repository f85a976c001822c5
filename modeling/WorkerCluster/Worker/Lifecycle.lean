import WorkerCluster.Json.Codec

/-!
# Lifecycles of workers

A worker is prepared, then running, then stopped; a stopped one may run again, and any of them may
be deleted. A deleted worker stays deleted.
-/

namespace WorkerCluster

/-- The state of a worker. -/
inductive Lifecycle
  | prepared
  | running
  | stopped
  | deleted
  deriving DecidableEq, Inhabited

namespace Lifecycle

/-- Whether a worker may go from one state directly to another. -/
def canBecome : Lifecycle → Lifecycle → Bool
  | .prepared, .running => true
  | .running, .stopped => true
  | .stopped, .running => true
  | .prepared, .deleted => true
  | .running, .deleted => true
  | .stopped, .deleted => true
  | _, _ => false

/-- Whether no other state can follow. -/
def isTerminal (s : Lifecycle) : Bool := s = .deleted

/-- The name of a state. -/
def text : Lifecycle → String
  | .prepared => "prepared"
  | .running => "running"
  | .stopped => "stopped"
  | .deleted => "deleted"

instance : ToString Lifecycle := ⟨text⟩

/-- The state with a name. -/
def ofText? : String → Option Lifecycle
  | "prepared" => some .prepared
  | "running" => some .running
  | "stopped" => some .stopped
  | "deleted" => some .deleted
  | _ => none

theorem ofText?_text (s : Lifecycle) : ofText? s.text = some s := by cases s <;> rfl

open Json (Source Fault Reading) in
/-- Read a state. It is written as its name, or as an object whose only field has that name and
holds `null`. In a text nothing else can begin a state; in a copy an empty object may stand for
the `null`. -/
def read (r : Reading) : Source → Except Fault Lifecycle
  | .atom a =>
    match a.opening, r with
    | .missing, _ => .error .truncated
    | .quote, _ => do named (← a.string?)
    | .other, .streamed _ => .error .malformed
    | .other, _ => .error .mismatched
  | .array _ _ =>
    match r with
    | .streamed _ => .error .malformed
    | _ => .error .mismatched
  | .fields entries ending =>
    match r, entries with
    | .streamed _, [] => do
      let _ ← r.enter
      .error (ending.getD .malformed)
    | .streamed _, (name, value) :: rest => do
      let _ ← r.enter
      let s ← match name.opening with
        | .quote => do named (← name.string?)
        | .missing => .error .truncated
        | .other => .error value.mismatch
      match value with
      | .atom { meaning := .ok .null, .. } => .ok ()
      | _ => .error value.mismatch
      if rest.isEmpty then Json.closed ending else .error .malformed
      return s
    | _, [(name, value)] => do
      let s ← named (← name.string?)
      match value with
      | .atom { meaning := .ok .null, .. } | .fields [] _ => .ok s
      | _ => .error .mismatched
    | _, _ => .error .mismatched
where
  /-- The state with a name, which must be one. -/
  named (s : String) : Except Fault Lifecycle :=
    match ofText? s with
    | some l => .ok l
    | none => .error .mismatched

/-- States are written as their names. -/
def codec : Json.Codec Lifecycle where
  encode s := .string s.text
  decode := read

instance : Json.Coded Lifecycle := ⟨Lifecycle.codec⟩

end Lifecycle

end WorkerCluster
