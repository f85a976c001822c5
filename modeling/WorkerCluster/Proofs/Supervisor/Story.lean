import WorkerCluster.Proofs.Supervisor.History

/-!
# Stories of workers

What everybody is told about the states of a worker, from its beginning to its end.

* `Lifecycle.IsLife` says that the states of a list may follow each other in a life;
  `IsLife.start` and `IsLife.next` are the two ways to make one.
* `Supervisor.story` lists the states that were told of a worker, in order; `Supervisor.lifecycle`
  is the state in which it is.
* `Truthful.silent`, `Truthful.tell` and `Truthful.create` are the three ways in which stories go
  on; `lasting_truthful` puts them together.
* `story_of_fresh` is the main statement: whatever happens, the story of a worker is a life, up to
  the state in which the worker is.
-/

namespace WorkerCluster

namespace Lifecycle

/-- The states through which a worker has gone that is in a given one now. -/
structure IsLife (states : List Lifecycle) (now : Lifecycle) : Prop where
  /-- The worker was prepared first. -/
  born : states.head? = some .prepared
  /-- States that follow each other are the same, or the worker may go from one to the other. -/
  steps : states.IsChain fun a b => a = b ∨ a.canBecome b = true
  /-- Nothing follows when the worker has been deleted. -/
  final : .deleted ∉ states.dropLast
  /-- The last state is the present one. -/
  current : states.getLast? = some now

/-- Whatever is not deleted may be. -/
theorem canBecome_deleted {a : Lifecycle} (h : a ≠ .deleted) : a.canBecome .deleted = true := by
  cases a with
  | deleted => exact absurd rfl h
  | _ => rfl

theorem IsLife.start : IsLife [.prepared] .prepared where
  born := rfl
  steps := .singleton _
  final := List.not_mem_nil
  current := rfl

theorem IsLife.next {states : List Lifecycle} {a b : Lifecycle} (h : IsLife states a)
    (alive : a ≠ .deleted) (step : a = b ∨ a.canBecome b = true) : IsLife (states ++ [b]) b where
  born := by rw [List.head?_append, h.born, Option.some_or]
  steps := by
    refine List.isChain_append.2 ⟨h.steps, .singleton b, fun x last y first => ?_⟩
    cases h.current.symm.trans last
    cases first
    exact step
  final := by
    rw [List.dropLast_concat]
    obtain ⟨before, rfl⟩ := List.getLast?_eq_some_iff.1 h.current
    have final := h.final
    rw [List.dropLast_concat] at final
    simpa [final] using alive.symm
  current := List.getLast?_concat

end Lifecycle

theorem OwnedWorker.IsDown.canBecome {w : OwnedWorker} (down : w.IsDown) :
    w.record.lifecycle.canBecome .running = true := by
  rcases down with h | h <;> rw [h] <;> rfl

namespace Supervisor

/-- What everybody was told about the states of a worker. -/
def story (s : Supervisor) (id : Uuid) : List Lifecycle :=
  (s.outbox.filter (·.uuid = id)).map (·.lifecycle)

/-- The state in which a worker is. One that is not there is deleted. -/
def lifecycle (s : Supervisor) (id : Uuid) : Lifecycle :=
  ((s.owned.find? id).map (·.record.lifecycle)).getD .deleted

/-- Everything was told of the workers that were made under some ids, and nothing of others. -/
def Truthful (made : List Uuid) (s : Supervisor) : Prop :=
  ∀ id, if id ∈ made then Lifecycle.IsLife (s.story id) (s.lifecycle id) else s.story id = []

variable {s t : Supervisor} {id : Uuid} {w : OwnedWorker} {made : List Uuid}

/-! ### States and stories -/

theorem lifecycle_found (found : s.owned.find? id = some w) :
    s.lifecycle id = w.record.lifecycle := by
  rw [lifecycle, found]
  rfl

theorem lifecycle_insert (ht : t.owned = s.owned.insert id w) (id' : Uuid) :
    t.lifecycle id' = if id' = id then w.record.lifecycle else s.lifecycle id' := by
  rw [lifecycle, ht, SortedMap.find?_insert]
  split <;> rfl

theorem lifecycle_erase (ht : t.owned = s.owned.erase id) (id' : Uuid) :
    t.lifecycle id' = if id' = id then .deleted else s.lifecycle id' := by
  rw [lifecycle, ht, SortedMap.find?_erase]
  split <;> rfl

theorem story_concat {r : WorkerRecord} (ht : t.outbox = s.outbox ++ [r]) (id' : Uuid) :
    t.story id' = if id' = r.uuid then s.story id' ++ [r.lifecycle] else s.story id' := by
  rw [story, ht, List.filter_append, List.map_append]
  by_cases e : r.uuid = id'
  · simp [e, story]
  · simp [e, Ne.symm e, story]

/-- Only workers that were made are not deleted. -/
theorem Known.mem_made (h : s.Known made) (alive : s.lifecycle id ≠ .deleted) : id ∈ made := by
  by_contra unmade
  rw [lifecycle, h.unknown id unmade] at alive
  exact alive rfl

/-! ### Turns -/

/-- Nothing is told, and nothing is to be told. -/
theorem Truthful.silent (h : s.Truthful made) (outbox : t.outbox = s.outbox)
    (lifecycle : ∀ id, t.lifecycle id = s.lifecycle id) : t.Truthful made := by
  intro id
  rw [lifecycle, show t.story id = s.story id by rw [story, outbox, story]]
  exact h id

/-- A worker may change in all but its state. -/
theorem Truthful.keep (h : s.Truthful made) {v : OwnedWorker} (found : s.owned.find? id = some w)
    (outbox : t.outbox = s.outbox) (owned : t.owned = s.owned.insert id v)
    (same : v.record.lifecycle = w.record.lifecycle) : t.Truthful made := by
  refine h.silent outbox fun id' => ?_
  rw [lifecycle_insert owned, same]
  split
  · rename_i e
    rw [e, lifecycle_found found]
  · rfl

/-- The state of a worker is told into which it goes, or in which it stays. -/
theorem Truthful.tell (h : s.Truthful made) (known : s.Known made) (r : WorkerRecord)
    (found : s.owned.find? id = some w) (sound : w.Sound s.node.id id) (uuid : r.uuid = id)
    (outbox : t.outbox = s.outbox ++ [r])
    (states : ∀ id', t.lifecycle id' = if id' = id then r.lifecycle else s.lifecycle id')
    (step : w.record.lifecycle = r.lifecycle ∨
      w.record.lifecycle.canBecome r.lifecycle = true) : t.Truthful made := by
  have now := lifecycle_found found
  have alive : s.lifecycle id ≠ .deleted := now ▸ sound.present
  intro id'
  rw [story_concat outbox, states, uuid]
  by_cases e : id' = id
  · subst e
    have life := h id'
    rw [if_pos (known.mem_made alive)] at life ⊢
    rw [if_pos rfl, if_pos rfl]
    exact life.next alive (now ▸ step)
  · rw [if_neg e, if_neg e]
    exact h id'

/-- A new worker is prepared, and everybody is told. -/
theorem Truthful.create (h : s.Truthful made) (fresh : s.host.ids.draw.1 ∉ made)
    (plan : WorkerPlan) (port : UInt16) :
    (s.withNew plan port).Truthful (made ++ [s.host.ids.draw.1]) := by
  intro id
  have states : (s.withNew plan port).lifecycle id = if id = s.host.ids.draw.1 then .prepared else
    s.lifecycle id :=
    lifecycle_insert (w := s.newWorker plan s.host.ids.draw.1 port) rfl id
  have stories : (s.withNew plan port).story id = if id = s.host.ids.draw.1 then
    s.story id ++ [.prepared] else s.story id :=
    story_concat (r := (s.newWorker plan s.host.ids.draw.1 port).record) rfl id
  rw [states, stories]
  by_cases e : id = s.host.ids.draw.1
  · subst e
    have none := h s.host.ids.draw.1
    rw [if_neg fresh] at none
    rw [if_pos (List.mem_append_right made (List.mem_singleton_self _)), if_pos rfl, if_pos rfl,
      none]
    exact .start
  · simpa [e] using h id

theorem lasting_truthful : Lasting Truthful where
  create _ h fresh := h.create fresh _ _
  life {made s t} known h turn := by
    obtain ⟨turn, ids⟩ := turn
    cases turn with
    | create accepted room free => exact absurd ids (IdSupply.draw_ne _)
    | applyQueued found down => exact h.keep found rfl rfl rfl
    | files files => exact h.silent rfl fun _ => rfl
    | @launch id w pid launcher found down launched =>
      have sound := known.sound _ _ found
      exact h.tell known (w.launched pid).record found sound sound.uuid rfl (lifecycle_insert rfl)
        (.inr down.canBecome)
    | @stop id w force found running =>
      have sound := known.sound _ _ found
      have record := ended_record s.launcher force w
      have before : w.record.lifecycle = .running := by
        simpa [WorkerRecord.isRunning] using running
      refine h.tell known _ found sound ?_ rfl (lifecycle_insert rfl) (.inr ?_)
      · rw [record]
        exact sound.uuid
      · rw [record, before]
        rfl
    | @delete id w launcher found released =>
      have sound := known.sound _ _ found
      exact h.tell known (w.record.down .deleted) found sound sound.uuid rfl
        (lifecycle_erase rfl) (.inr (Lifecycle.canBecome_deleted sound.present))
    | write found process written => exact h.silent rfl fun _ => rfl
    | enqueue templates inclusions deployments found => exact h.keep found rfl rfl rfl
    | @connect id w connected found changes =>
      have sound := known.sound _ _ found
      exact h.tell known (w.connect connected).record found sound sound.uuid rfl
        (lifecycle_insert rfl) (.inl rfl)
    | flush found process => exact h.keep found rfl rfl rfl
    | happen event => exact h.silent (by cases event <;> rfl) fun _ => by cases event <;> rfl
  hearing _ h hearing :=
    h.silent hearing.outbox_eq fun id => by rw [lifecycle, hearing.owned_eq, lifecycle]

/-! ### Whole stories -/

theorem IsNew.truthful (new : s.IsNew) : s.Truthful [] := by
  intro id
  rw [if_neg List.not_mem_nil, story, new.outbox]
  rfl

/-- **Whatever happens, the story of a worker is a life, up to the state in which it is**, if no id
is drawn twice. Nothing is told of a worker that is not made. -/
theorem story_of_fresh (new : s.IsNew) (history : List Moment) (fresh : (s.drawn history).Nodup)
    (id : Uuid) :
    if id ∈ s.drawn history then
      Lifecycle.IsLife ((s.live history).story id) ((s.live history).lifecycle id)
    else (s.live history).story id = [] ∧ (s.live history).owned.find? id = none := by
  obtain ⟨known, truthful⟩ := lasting_truthful.live new new.truthful history fresh
  have told := truthful id
  split at told
  · rename_i made
    rwa [if_pos made]
  · rename_i unmade
    rw [if_neg unmade]
    exact ⟨told, known.unknown id unmade⟩

/-! ### A small history -/

/-- A worker is restarted when nothing can be launched, started later and found to have exited;
then it is deleted. -/
def wholeLife : List Moment := [
  .perform (.create lobbyPlan),
  .perform (.start lobbyId),
  .perform (.setConnected lobbyId true),
  .happen (.failLaunches true),
  .perform (.restart lobbyId),
  .happen (.failLaunches false),
  .perform (.start lobbyId),
  .happen (.exit lobbyId),
  .perform .sweep,
  .perform (.delete lobbyId)]

/-- Everything is told of that life. -/
theorem story_wholeLife :
    ((lobbyEmpty.drawn wholeLife).Nodup ∧ (lobbyEmpty.live wholeLife).story lobbyId =
      [.prepared, .running, .running, .stopped, .running, .stopped, .deleted]) ∧
      Lifecycle.IsLife ((lobbyEmpty.live wholeLife).story lobbyId)
        ((lobbyEmpty.live wholeLife).lifecycle lobbyId) := by
  refine ⟨by decide +kernel, ?_⟩
  have told := story_of_fresh isNew_lobbyEmpty wholeLife (by decide +kernel) lobbyId
  rwa [if_pos (by decide +kernel)] at told

end Supervisor

end WorkerCluster
