import WorkerCluster.Proofs.Supervisor.Sound

/-!
# Histories of supervisors

What happens to a supervisor, moment by moment, and the ids that are drawn on the way.

* `Supervisor.live` is the state after a history; `reachable_iff_live` says that the reachable
  states are those after the histories of new supervisors.
* `pass_cases` takes a moment apart: a worker is made, or everything that happens is in the lives of
  those that there are or in what is remembered of others.
* `Supervisor.drawn` lists the ids under which workers are made in a history. A history in which
  none is drawn twice makes no worker under an id that was ever used before.
* `Lasting` is a property that everything keeps that may happen in such a history; `Lasting.live` is
  the induction.
-/

namespace WorkerCluster

/-- Drawing an identifier uses up a supply. -/
theorem IdSupply.draw_ne (ids : IdSupply) : ids.draw.2 ≠ ids := by
  obtain ⟨given, drawn⟩ := ids
  cases given with
  | nil => simp [draw]
  | cons bits rest => simp [draw]

namespace Supervisor

/-- Something that happens to a supervisor. -/
inductive Moment
  /-- It performs an operation. -/
  | perform (step : Step)
  /-- The script lets something happen. -/
  | happen (event : Event)
  /-- The files of its host change. -/
  | files (files : FileTree)
  deriving Inhabited

/-- The state after a moment. -/
def pass (s : Supervisor) : Moment → Supervisor
  | .perform step => (s.perform step).2
  | .happen event => (s.happen event).2
  | .files files => { s with host := { s.host with files } }

/-- The state after a history. -/
def live (s : Supervisor) (history : List Moment) : Supervisor := history.foldl pass s

/-- The id under which a worker is made at a moment, if one is. -/
def drawnAt (s : Supervisor) : Moment → List Uuid
  | .perform (.create plan) => ((s.create plan).1.map (·.uuid)).toList
  | _ => []

/-- The ids under which workers are made in a history, in order. -/
def drawn (s : Supervisor) : List Moment → List Uuid
  | [] => []
  | m :: history => s.drawnAt m ++ (s.pass m).drawn history

/-- Nothing has happened yet. -/
structure IsNew (s : Supervisor) : Prop where
  owned : s.owned = .empty
  remote : s.remote = .empty
  outbox : s.outbox = []
  runs : s.launcher.runs = []

variable {s t : Supervisor}

/-! ### Reachable states -/

theorem live_append (s : Supervisor) (h k : List Moment) :
    s.live (h ++ k) = (s.live h).live k := List.foldl_append

theorem live_concat (s : Supervisor) (h : List Moment) (m : Moment) :
    s.live (h ++ [m]) = (s.live h).pass m := live_append s h [m]

theorem drawn_concat (s : Supervisor) (h : List Moment) (m : Moment) :
    s.drawn (h ++ [m]) = s.drawn h ++ (s.live h).drawnAt m := by
  induction h generalizing s with
  | nil => exact List.append_nil _
  | cons m' h ih => rw [List.cons_append, drawn, drawn, ih, List.append_assoc, live, live,
      List.foldl_cons]

theorem isNew_lobbyEmpty : lobbyEmpty.IsNew := ⟨rfl, rfl, rfl, rfl⟩

theorem IsNew.reachable (new : s.IsNew) : Reachable s.node s.settings s := by
  obtain ⟨node, settings, owned, remote, launcher, host, outbox⟩ := s
  obtain ⟨rfl, rfl, rfl, fresh⟩ := new
  exact .start launcher host fresh

theorem Reachable.live {node : NodeIdentity} {settings : Settings} (h : Reachable node settings s)
    (history : List Moment) : Reachable node settings (s.live history) := by
  induction history generalizing s with
  | nil => exact h
  | cons m history ih =>
    have next : Reachable node settings (s.pass m) := by
      cases m with
      | perform step => exact .perform h step
      | happen event => exact .happen h event
      | files files => exact .files h files
    exact ih next

/-- **The reachable states are those after the histories of new supervisors.** -/
theorem reachable_iff_live {node : NodeIdentity} {settings : Settings} :
    Reachable node settings t ↔
      ∃ s history, IsNew s ∧ s.node = node ∧ s.settings = settings ∧ s.live history = t := by
  constructor
  · intro h
    induction h with
    | start launcher host fresh => exact ⟨_, [], ⟨rfl, rfl, rfl, fresh⟩, rfl, rfl, rfl⟩
    | perform _ step ih =>
      obtain ⟨s, history, new, hn, hs, rfl⟩ := ih
      exact ⟨s, history ++ [.perform step], new, hn, hs, live_concat ..⟩
    | happen _ event ih =>
      obtain ⟨s, history, new, hn, hs, rfl⟩ := ih
      exact ⟨s, history ++ [.happen event], new, hn, hs, live_concat ..⟩
    | files _ files ih =>
      obtain ⟨s, history, new, hn, hs, rfl⟩ := ih
      exact ⟨s, history ++ [.files files], new, hn, hs, live_concat ..⟩
  · rintro ⟨s, history, new, rfl, rfl, rfl⟩
    exact new.reachable.live history

/-! ### Fresh ids -/

/-- The state in which a worker has just been made from a plan. -/
def withNew (s : Supervisor) (plan : WorkerPlan) (port : UInt16) : Supervisor :=
  ({ s with host := { s.host with ids := s.host.ids.draw.2 } }.setOwned s.host.ids.draw.1
    (s.newWorker plan s.host.ids.draw.1 port)).publish
    (s.newWorker plan s.host.ids.draw.1 port).record

/-- **Whoever is there after a worker has been made is the new one, or was there before.** -/
theorem create_find? {plan : WorkerPlan} {id : Uuid} {w : OwnedWorker}
    (found : (s.create plan).2.owned.find? id = some w) :
    (s.drawnAt (.perform (.create plan)) = [id] ∧ ∃ port, w = s.newWorker plan id port) ∨
      id ∉ s.drawnAt (.perform (.create plan)) ∧ s.owned.find? id = some w := by
  have drawn : s.drawnAt (.perform (.create plan)) =
    ((s.create plan).1.map (·.uuid)).toList := rfl
  rw [drawn]
  obtain refused | ⟨port, -, -, -, made⟩ := create_cases s plan
  · rw [refused] at found ⊢
    exact .inr ⟨List.not_mem_nil, found⟩
  · rw [made] at found ⊢
    let new := s.newWorker plan s.host.ids.draw.1 port
    change (s.owned.insert s.host.ids.draw.1 new).find? id = some w at found
    change [s.host.ids.draw.1] = [id] ∧ _ ∨ id ∉ [s.host.ids.draw.1] ∧ _
    rw [SortedMap.find?_insert] at found
    split at found
    · next same =>
      subst same
      exact .inl ⟨rfl, port, (Option.some.inj found).symm⟩
    · next other => exact .inr ⟨by simpa using other, found⟩

/-- Making a worker has nothing to do with processes. -/
theorem create_launcher (s : Supervisor) (plan : WorkerPlan) :
    (s.create plan).2.launcher = s.launcher := by
  obtain refused | ⟨port, -, -, -, made⟩ := create_cases s plan
  · rw [refused]
  · rw [made]
    rfl

/-- At a moment a worker is made, or what happens is a sequence of turns in the lives of the workers
or one of hearings. -/
theorem pass_cases (s : Supervisor) (m : Moment) :
    (∃ plan port, m = .perform (.create plan) ∧ s.accepts plan = true ∧ s.hasMemory plan = true ∧
      s.allocatePort (plan.port.getD s.settings.startPort) = some port ∧
      s.drawnAt m = [s.host.ids.draw.1] ∧ s.pass m = s.withNew plan port) ∨
    s.drawnAt m = [] ∧ (LifeTurns s (s.pass m) ∨ Hearings s (s.pass m)) := by
  cases m with
  | happen event => exact .inr ⟨rfl, .inl (.single ⟨.happen event, by cases event <;> rfl⟩)⟩
  | files files => exact .inr ⟨rfl, .inl (.single ⟨.files files, rfl⟩)⟩
  | perform step =>
    by_cases makes : ∃ plan, step = .create plan
    · obtain ⟨plan, rfl⟩ := makes
      have drawn : s.drawnAt (.perform (.create plan)) =
        ((s.create plan).1.map (·.uuid)).toList := rfl
      have after : s.pass (.perform (.create plan)) = (s.create plan).2 := rfl
      rw [drawn, after]
      obtain refused | ⟨port, accepted, room, free, made⟩ := create_cases s plan
      · rw [refused]
        exact .inr ⟨rfl, .inl .refl⟩
      · rw [made]
        exact .inl ⟨plan, port, rfl, accepted, room, free, rfl, rfl⟩
    · have none : s.drawnAt (.perform step) = [] := by
        cases step with
        | create plan => exact absurd ⟨plan, rfl⟩ makes
        | _ => rfl
      refine .inr ⟨none, ?_⟩
      by_cases own : step.IsOwn
      · exact .inl (perform_life s own fun plan h => makes ⟨plan, h⟩)
      · exact .inr (perform_hearings s own)

/-- What is known of a supervisor that has made workers under some ids: its workers fit together,
and it has none under another id. -/
structure Known (made : List Uuid) (s : Supervisor) : Prop where
  sound : AllOwned (fun id w => w.Sound s.node.id id) s
  unknown : ∀ id, id ∉ made → s.owned.find? id = none

variable {made : List Uuid}

theorem Turn.sound (hs : AllOwned (fun id w => w.Sound s.node.id id) s) (h : Turn s t) :
    AllOwned (fun id w => w.Sound t.node.id id) t := by
  rw [h.node_eq]
  exact h.kept (kept_sound s.node s.settings) hs

theorem IsNew.known (new : s.IsNew) : s.Known [] where
  sound _ _ found := by
    rw [new.owned] at found
    cases found
  unknown _ _ := by rw [new.owned]; rfl

/-- Whoever makes a worker knows it. -/
theorem Known.withNew (h : s.Known made) {plan : WorkerPlan} {port : UInt16}
    (turn : Turn s (s.withNew plan port)) :
    (s.withNew plan port).Known (made ++ [s.host.ids.draw.1]) where
  sound := turn.sound h.sound
  unknown id hid := by
    rw [List.mem_append, List.mem_singleton, not_or] at hid
    show (s.owned.insert _ _).find? id = none
    rw [SortedMap.find?_insert, if_neg hid.2]
    exact h.unknown id hid.1

/-- A turn in the lives of the workers takes up no id. -/
theorem LifeTurn.find?_eq_none (h : LifeTurn s t) {id : Uuid} (unknown : s.owned.find? id = none) :
    t.owned.find? id = none := by
  have insert {id' : Uuid} {w v : OwnedWorker} (found : s.owned.find? id' = some w) :
      (s.owned.insert id' v).find? id = none := by
    have ne : id ≠ id' := by
      rintro rfl
      rw [unknown] at found
      cases found
    rw [SortedMap.find?_insert, if_neg ne, unknown]
  obtain ⟨turn, ids⟩ := h
  cases turn with
  | create accepted room free => exact absurd ids (IdSupply.draw_ne _)
  | applyQueued found down => exact insert found
  | files files => exact unknown
  | launch found down launched => exact insert found
  | stop force found running => exact insert found
  | @delete id' w launcher found released =>
    show (s.owned.erase id').find? id = none
    rw [SortedMap.find?_erase]
    split
    · rfl
    · exact unknown
  | write found process written => exact unknown
  | enqueue t i d found => exact insert found
  | connect found changes => exact insert found
  | flush found process => exact insert found
  | happen event => cases event <;> exact unknown

theorem LifeTurn.known (h : LifeTurn s t) (known : s.Known made) : t.Known made where
  sound := h.1.sound known.sound
  unknown id hid := h.find?_eq_none (known.unknown id hid)

theorem Hearing.known (h : Hearing s t) (known : s.Known made) : t.Known made where
  sound := by
    rw [h.node_eq]
    exact known.sound.congr h.owned_eq
  unknown id hid := by
    rw [h.owned_eq]
    exact known.unknown id hid

/-- A property of supervisors and of the ids under which they have made workers that everything
keeps that happens to them. The ids of new workers are fresh. -/
structure Lasting (P : List Uuid → Supervisor → Prop) : Prop where
  create {made : List Uuid} {s : Supervisor} {plan : WorkerPlan} {port : UInt16} :
    s.Known made → P made s → s.host.ids.draw.1 ∉ made →
      P (made ++ [s.host.ids.draw.1]) (s.withNew plan port)
  life {made : List Uuid} {s t : Supervisor} : s.Known made → P made s → LifeTurn s t → P made t
  hearing {made : List Uuid} {s t : Supervisor} : s.Known made → P made s → Hearing s t → P made t

section

variable {P : List Uuid → Supervisor → Prop}

/-- Together with what is known anyway, such a property is kept along paths. -/
theorem Lasting.path (hP : Lasting P) (known : s.Known made) (hs : P made s) :
    (LifeTurns s t → t.Known made ∧ P made t) ∧ (Hearings s t → t.Known made ∧ P made t) := by
  constructor
  · refine path_keeps (P := fun t => t.Known made ∧ P made t) (fun u v h turn => ?_) ⟨known, hs⟩
    exact ⟨turn.known h.1, hP.life h.1 h.2 turn⟩
  · refine path_keeps (P := fun t => t.Known made ∧ P made t) (fun u v h hearing => ?_) ⟨known, hs⟩
    exact ⟨hearing.known h.1, hP.hearing h.1 h.2 hearing⟩

theorem Lasting.pass (hP : Lasting P) (known : s.Known made) (hs : P made s) (m : Moment)
    (fresh : (made ++ s.drawnAt m).Nodup) :
    (s.pass m).Known (made ++ s.drawnAt m) ∧ P (made ++ s.drawnAt m) (s.pass m) := by
  obtain ⟨plan, port, -, accepted, room, free, drawn, after⟩ | ⟨drawn, path⟩ := pass_cases s m
  · rw [drawn] at fresh ⊢
    rw [after]
    have new : s.host.ids.draw.1 ∉ made := fun hm =>
      List.disjoint_of_nodup_append fresh hm (List.mem_singleton_self _)
    exact ⟨known.withNew (.create accepted room free), hP.create known hs new⟩
  · rw [drawn, List.append_nil]
    exact path.elim (hP.path known hs).1 (hP.path known hs).2

/-- **What is true of a new supervisor and lasts is true after every history in which no id is drawn
twice.** -/
theorem Lasting.live (hP : Lasting P) (new : s.IsNew) (start : P [] s) (history : List Moment)
    (fresh : (s.drawn history).Nodup) :
    (s.live history).Known (s.drawn history) ∧ P (s.drawn history) (s.live history) := by
  suffices later : ∀ (history : List Moment) (made : List Uuid) (s : Supervisor), s.Known made →
      P made s → (made ++ s.drawn history).Nodup →
      (s.live history).Known (made ++ s.drawn history) ∧
        P (made ++ s.drawn history) (s.live history) from
    later history [] s new.known start fresh
  intro history
  induction history with
  | nil =>
    intro made s known hs _
    rw [drawn, List.append_nil]
    exact ⟨known, hs⟩
  | cons m history ih =>
    intro made s known hs fresh
    rw [drawn, ← List.append_assoc] at fresh ⊢
    obtain ⟨known, hs⟩ := hP.pass known hs m (List.Nodup.of_append_left fresh)
    exact ih _ _ known hs fresh

end

end Supervisor

end WorkerCluster
