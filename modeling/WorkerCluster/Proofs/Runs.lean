import Mathlib.Data.List.Induction
import Mathlib.Logic.Relation

/-!
# Runs

A run is a path from state to state, or a walk along a list.

* `path_keeps`, `path_lifts` and `path_eq` take what is known of every step to whole paths.
  `foldl_lifts` does so for walks that count beside the state.
* What holds after a walk has held since some step of it, which `foldl_since` finds.
-/

namespace WorkerCluster

section

open Relation (ReflTransGen)

variable {σ α β : Type} {r R : σ → σ → Prop} {s t : σ}

/-- What every step keeps, a path keeps. -/
theorem path_keeps {P : σ → Prop} (step : ∀ s t, P s → r s t → P t) (hs : P s)
    (path : ReflTransGen r s t) : P t := by
  induction path with
  | refl => exact hs
  | tail _ last ih => exact step _ _ ih last

/-- **What is known of every step is known of every path**, if it is known of no step at all, and of
one path after another. -/
theorem path_lifts (refl : ∀ s, R s s) (trans : ∀ {s t u}, R s t → R t u → R s u)
    (step : ∀ s t, r s t → R s t) (path : ReflTransGen r s t) : R s t :=
  path_keeps (fun u v before last => trans before (step u v last)) (refl s) path

/-- What no step changes, no path changes. -/
theorem path_eq {f : σ → α} (step : ∀ s t, r s t → f t = f s) (path : ReflTransGen r s t) :
    f t = f s :=
  path_keeps (P := fun u => f u = f s) (fun u v before last => (step u v last).trans before) rfl
    path

/-- What is known of every step of a walk that counts is known of the walk. -/
theorem foldl_lifts (refl : ∀ s, R s s) (trans : ∀ {s t u}, R s t → R t u → R s u)
    {f : α × σ → β → α × σ} (step : ∀ x b, R x.2 (f x b).2) (l : List β) (x : α × σ) :
    R x.2 (l.foldl f x).2 :=
  List.foldlRecOn l f (motive := fun y => R x.2 y.2) (refl x.2)
    fun y before b _ => trans before (step y b)

end

/-- What holds in the end and did not hold in the beginning was brought about by some step, and has
held ever since. -/
theorem foldl_since {σ μ : Type} {f : σ → μ → σ} {P : σ → Prop} {Brings : σ → μ → Prop}
    (step : ∀ s m, P (f s m) → P s ∨ Brings s m) {s : σ} (before : ¬ P s) {moves : List μ}
    (now : P (moves.foldl f s)) :
    ∃ past m later, moves = past ++ m :: later ∧ Brings (past.foldl f s) m ∧
      ∀ h, h <+: later → P ((past ++ m :: h).foldl f s) := by
  -- from the end, since it is the last such step that counts
  induction moves using List.reverseRecOn with
  | nil => exact absurd now before
  | append_singleton moves m ih =>
    have last := now
    rw [List.foldl_append] at last
    rcases step _ _ last with held | brings
    · obtain ⟨past, n, later, rfl, brings, since⟩ := ih held
      refine ⟨past, n, later ++ [m], by simp, brings, fun h part => ?_⟩
      rcases List.prefix_concat_iff.1 part with rfl | part
      · rwa [List.append_assoc] at now
      · exact since h part
    · refine ⟨moves, m, [], rfl, brings, fun h part => ?_⟩
      rw [List.prefix_nil.1 part]
      exact now

end WorkerCluster
