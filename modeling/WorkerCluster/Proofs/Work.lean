import Mathlib.Tactic
import WorkerCluster.Work

/-!
# Work is done once and in order

A loop does what waits in its queue, also what items submit while they are done. An item that breaks
ends the tick.

* `Loop.Event` is something that happens to a loop. `Work.record` lists what happens while all that
  waits is done, `Loop.history` what happens while work is submitted and the loop ticks.
* `Fitting` says that a history explains the states of the loop.
* `runs_record` and `tasks_record` compare what is done with what is submitted; `Loop.Prompt` is
  what one tick does for every item that waits before it.
* `work_once_in_order` is the statement about whole runs.
-/

namespace WorkerCluster

open List (Perm)

namespace Work

variable {α : Type}

/-- What is to be done. -/
def task : Work α → α
  | .item task _ => task

/-- The work that is submitted while it is done. -/
def submits : Work α → List (Work α)
  | .item _ submits => submits

mutual

/-- All that is to be done, also by the work that is submitted in between. -/
def tasks : Work α → List α
  | .item task submits => task :: tasksOf submits

/-- All that is to be done by all work in a queue. -/
def tasksOf : List (Work α) → List α
  | [] => []
  | w :: rest => w.tasks ++ tasksOf rest

end

theorem tasks_eq (w : Work α) : w.tasks = w.task :: tasksOf w.submits := by
  cases w
  rfl

@[simp] theorem tasksOf_cons (w : Work α) (rest : List (Work α)) :
    tasksOf (w :: rest) = w.task :: (tasksOf w.submits ++ tasksOf rest) := by
  rw [tasksOf, tasks_eq, List.cons_append]

@[simp] theorem tasksOf_append (p q : List (Work α)) :
    tasksOf (p ++ q) = tasksOf p ++ tasksOf q := by
  induction p with
  | nil => rfl
  | cons w p ih => simp [ih]

end Work

namespace Loop

variable {σ α : Type}

/-! ### Events -/

/-- Something that happens to a loop. -/
inductive Event (α : Type)
  /-- Work is submitted from outside. -/
  | submitted (work : Work α)
  /-- An item is done, and submits its work. It goes through or breaks. -/
  | ran (work : Work α) (through : Bool)
  /-- The loop looks after the state. -/
  | lookedAfter (second : Bool)

namespace Event

/-- The item that is done. -/
def run? : Event α → Option (Work α)
  | .ran w _ => some w
  | _ => none

/-- The work that is submitted, from outside or by an item. -/
def submits : Event α → List (Work α)
  | .submitted w => [w]
  | .ran w _ => w.submits
  | .lookedAfter _ => []

/-- What becomes of the state. -/
def act (perform : σ → α → Bool × σ) (upkeep : Bool → σ → σ) (s : σ) : Event α → σ
  | .submitted _ => s
  | .ran w _ => (perform s w.task).2
  | .lookedAfter second => upkeep second s

/-- Whether it can happen in a state: an item goes through exactly if doing it says so. -/
def Fits (perform : σ → α → Bool × σ) (s : σ) : Event α → Prop
  | .ran w through => (perform s w.task).1 = through
  | _ => True

end Event

/-- The items that are done, in order. -/
def runs (h : List (Event α)) : List (Work α) := h.filterMap Event.run?

/-- All that is submitted, in order. -/
def submissions (h : List (Event α)) : List (Work α) := h.flatMap Event.submits

@[simp] theorem runs_append (h k : List (Event α)) : runs (h ++ k) = runs h ++ runs k :=
  List.filterMap_append

@[simp] theorem submissions_append (h k : List (Event α)) :
    submissions (h ++ k) = submissions h ++ submissions k := List.flatMap_append

@[simp] theorem runs_ran (w : Work α) (through : Bool) (h : List (Event α)) :
    runs (.ran w through :: h) = w :: runs h := rfl

@[simp] theorem submissions_ran (w : Work α) (through : Bool) (h : List (Event α)) :
    submissions (.ran w through :: h) = w.submits ++ submissions h := rfl

variable {perform : σ → α → Bool × σ} {upkeep : Bool → σ → σ}

/-- Every event can happen in the state to which those before it lead. -/
def Fitting (perform : σ → α → Bool × σ) (upkeep : Bool → σ → σ) : σ → List (Event α) → Prop
  | _, [] => True
  | s, e :: rest => e.Fits perform s ∧ Fitting perform upkeep (e.act perform upkeep s) rest

theorem Fitting.append {s : σ} {h k : List (Event α)} (first : Fitting perform upkeep s h)
    (rest : Fitting perform upkeep (h.foldl (Event.act perform upkeep) s) k) :
    Fitting perform upkeep s (h ++ k) := by
  induction h generalizing s with
  | nil => exact rest
  | cons e h ih => exact ⟨first.1, ih first.2 rest⟩

end Loop

open Loop

/-! ### Doing all that waits -/

namespace Work

variable {σ α : Type} {perform : σ → α → Bool × σ} {s s' : σ} {w : Work α}
  {rest : List (Work α)}

/-- What happens while all that waits is done. -/
def record (perform : σ → α → Bool × σ) (queue : List (Work α)) (s : σ) : List (Event α) :=
  match queue with
  | [] => []
  | .item task submits :: rest =>
    match perform s task with
    | (true, s) => .ran (.item task submits) true :: record perform (rest ++ submits) s
    | (false, _) => [.ran (.item task submits) false]
termination_by sizes queue
decreasing_by exact sizes_after task submits rest

theorem drain_nil : drain perform [] s = ⟨s, [], 0, false⟩ := by rw [drain]

theorem drain_through (h : perform s w.task = (true, s')) :
    drain perform (w :: rest) s =
      { drain perform (rest ++ w.submits) s' with
        count := (drain perform (rest ++ w.submits) s').count + 1 } := by
  obtain ⟨task, submits⟩ := w
  have h : perform s task = (true, s') := h
  rw [drain, h]
  rfl

theorem drain_broken (h : perform s w.task = (false, s')) :
    drain perform (w :: rest) s = ⟨s', rest ++ w.submits, 0, true⟩ := by
  obtain ⟨task, submits⟩ := w
  have h : perform s task = (false, s') := h
  rw [drain, h]
  rfl

theorem record_nil : record perform [] s = [] := by rw [record]

theorem record_through (h : perform s w.task = (true, s')) :
    record perform (w :: rest) s = .ran w true :: record perform (rest ++ w.submits) s' := by
  obtain ⟨task, submits⟩ := w
  have h : perform s task = (true, s') := h
  rw [record, h]
  rfl

theorem record_broken (h : perform s w.task = (false, s')) :
    record perform (w :: rest) s = [.ran w false] := by
  obtain ⟨task, submits⟩ := w
  have h : perform s task = (false, s') := h
  rw [record, h]

/-- Nothing waits, or the first item goes through and what it submits waits behind the others, or
it breaks. -/
theorem drain_induction (perform : σ → α → Bool × σ) {motive : List (Work α) → σ → Prop}
    (nil : ∀ s, motive [] s)
    (through : ∀ w rest s s', perform s w.task = (true, s') → motive (rest ++ w.submits) s' →
      motive (w :: rest) s)
    (broken : ∀ w rest s s', perform s w.task = (false, s') → motive (w :: rest) s)
    (queue : List (Work α)) (s : σ) : motive queue s := by
  induction queue, s using drain.induct perform with
  | case1 s => exact nil s
  | case2 s task submits rest s' h ih => exact through (.item task submits) rest s s' h ih
  | case3 s task submits rest s' h => exact broken (.item task submits) rest s s' h

variable (perform : σ → α → Bool × σ) (upkeep : Bool → σ → σ) (queue : List (Work α)) (s : σ)

/-- What happens leads to the state in which the queue is left. -/
theorem drain_state : (drain perform queue s).state =
    (record perform queue s).foldl (Event.act perform upkeep) s := by
  induction queue, s using drain_induction perform with
  | nil s => rw [drain_nil, record_nil]; rfl
  | through w rest s s' h ih =>
    rw [drain_through h, record_through h, List.foldl_cons, Event.act, h]
    exact ih
  | broken w rest s s' h =>
    rw [drain_broken h, record_broken h, List.foldl_cons, Event.act, h]
    rfl

theorem fitting_record : Fitting perform upkeep s (record perform queue s) := by
  induction queue, s using drain_induction perform with
  | nil s => rw [record_nil]; trivial
  | through w rest s s' h ih =>
    rw [record_through h]
    refine ⟨congrArg Prod.fst h, ?_⟩
    rw [Event.act, h]
    exact ih
  | broken w rest s s' h =>
    rw [record_broken h]
    exact ⟨congrArg Prod.fst h, trivial⟩

/-- **What is done, and then what goes on waiting, is what waited before and then what is
submitted**, in the same order. -/
theorem runs_record : runs (record perform queue s) ++ (drain perform queue s).queue =
    queue ++ submissions (record perform queue s) := by
  induction queue, s using drain_induction perform with
  | nil s => rw [drain_nil, record_nil]; rfl
  | through w rest s s' h ih =>
    rw [drain_through h, record_through h, runs_ran, submissions_ran, List.cons_append, ih]
    simp
  | broken w rest s s' h =>
    rw [drain_broken h, record_broken h]
    simp [runs, submissions, Event.run?, Event.submits]

/-- **Nothing is done twice or lost**, items counted with all that they submit. -/
theorem tasks_record : Perm ((runs (record perform queue s)).map task ++
    tasksOf (drain perform queue s).queue) (tasksOf queue) := by
  induction queue, s using drain_induction perform with
  | nil s => rw [drain_nil, record_nil]; exact .refl _
  | through w rest s s' h ih =>
    rw [drain_through h, record_through h, runs_ran, tasksOf_cons]
    rw [tasksOf_append] at ih
    exact (ih.trans List.perm_append_comm).cons w.task
  | broken w rest s s' h =>
    rw [drain_broken h, record_broken h, tasksOf_cons]
    dsimp only
    rw [tasksOf_append]
    exact (List.perm_append_comm.cons w.task : Perm (w.task :: (tasksOf rest ++ _)) _)

/-- Nothing goes on waiting unless an item breaks, which is the last one that is done then. -/
theorem drain_cases :
    ((drain perform queue s).broken = false ∧ (drain perform queue s).queue = []) ∨
      ((drain perform queue s).broken = true ∧
        ∃ done w, record perform queue s = done ++ [.ran w false]) := by
  induction queue, s using drain_induction perform with
  | nil s => rw [drain_nil]; exact .inl ⟨rfl, rfl⟩
  | through w rest s s' h ih =>
    rw [drain_through h, record_through h]
    rcases ih with all | ⟨broken, done, v, last⟩
    · exact .inl all
    · exact .inr ⟨broken, .ran w true :: done, v, by rw [last]; rfl⟩
  | broken w rest s s' h =>
    rw [drain_broken h, record_broken h]
    exact .inr ⟨rfl, [], w, rfl⟩

/-- If nothing goes on waiting, all that waited has been done first. -/
theorem prefix_runs_record (done : (drain perform queue s).queue = []) :
    queue <+: runs (record perform queue s) := by
  have order := runs_record perform queue s
  rw [done, List.append_nil] at order
  exact ⟨_, order.symm⟩

/-- Only items are done. -/
theorem not_lookedAfter_of_record {second : Bool} :
    .lookedAfter second ∉ record perform queue s := by
  induction queue, s using drain_induction perform with
  | nil s => rw [record_nil]; exact List.not_mem_nil
  | through w rest s s' h ih =>
    rw [record_through h]
    simpa using ih
  | broken w rest s s' h =>
    rw [record_broken h]
    simp

end Work

namespace Loop

variable {σ α : Type}

/-! ### Moves -/

/-- Something that is done with a loop. -/
inductive Move (α : Type)
  /-- Work is submitted. -/
  | submit (work : Work α)
  /-- The loop ticks. -/
  | tick

/-- The work that is submitted from outside. -/
def Move.works : Move α → List (Work α)
  | .submit w => [w]
  | .tick => []

/-- Whether the loop ticks. -/
def Move.isTick : Move α → Bool
  | .submit _ => false
  | .tick => true

section

variable (perform : σ → α → Bool × σ) (upkeep : Bool → σ → σ)

/-- Let it be done. -/
def make (l : Loop σ α) : Move α → Loop σ α
  | .submit w => l.submit w
  | .tick => l.tick perform upkeep

/-- What happens then. A tick looks after the state when all has gone through. -/
def events (l : Loop σ α) : Move α → List (Event α)
  | .submit w => [.submitted w]
  | .tick => Work.record perform l.queue l.state ++
      if (Work.drain perform l.queue l.state).broken then [] else [.lookedAfter l.isFullSecond]

/-- The loop when moves have been made one after the other. -/
def after (l : Loop σ α) (moves : List (Move α)) : Loop σ α := moves.foldl (make perform upkeep) l

/-- All that happens while moves are made. -/
def history (l : Loop σ α) : List (Move α) → List (Event α)
  | [] => []
  | m :: moves => l.events perform m ++ (l.make perform upkeep m).history moves

/-- **All that waits before a tick is done in it, in order, unless an item breaks.** Then all up to
that item have been done, and those behind it go on waiting, in order, before what has been
submitted in between. -/
def Prompt (l : Loop σ α) : Prop :=
  l.queue <+: runs (l.events perform .tick) ∨
    ∃ j v, l.queue[j]? = some v ∧ runs (l.events perform .tick) = l.queue.take (j + 1) ∧
      (l.events perform .tick).getLast? = some (.ran v false) ∧
      (l.tick perform upkeep).queue = l.queue.drop (j + 1) ++ submissions (l.events perform .tick)

/-- **The loop looks after the state last**, when all that waited has been done. -/
def LooksLast (l : Loop σ α) : Prop :=
  ∀ before second later, l.events perform .tick = before ++ .lookedAfter second :: later →
    l.queue <+: runs before ∧ later = []

end

/-! ### One move -/

section

variable (perform : σ → α → Bool × σ) (upkeep : Bool → σ → σ) (l : Loop σ α)

theorem tick_eq : l.tick perform upkeep =
    { l with
      state := if (Work.drain perform l.queue l.state).broken then
          (Work.drain perform l.queue l.state).state
        else upkeep l.isFullSecond (Work.drain perform l.queue l.state).state
      queue := (Work.drain perform l.queue l.state).queue
      ticks := l.ticks + 1 } := by
  unfold tick drain
  dsimp only
  obtain ⟨state, queue, count, broken⟩ := Work.drain perform l.queue l.state
  cases broken <;> rfl

theorem make_state (m : Move α) : (l.make perform upkeep m).state =
    (l.events perform m).foldl (Event.act perform upkeep) l.state := by
  cases m with
  | submit w => rfl
  | tick =>
    rw [make, tick_eq, events, List.foldl_append, ← Work.drain_state]
    dsimp only
    split <;> rfl

theorem fitting_events (m : Move α) : Fitting perform upkeep l.state (l.events perform m) := by
  cases m with
  | submit w => exact ⟨trivial, trivial⟩
  | tick =>
    refine (Work.fitting_record perform upkeep l.queue l.state).append ?_
    split
    · trivial
    · exact ⟨trivial, trivial⟩

/-- Looking after the state is no work. -/
theorem runs_events_tick :
    runs (l.events perform .tick) = runs (Work.record perform l.queue l.state) := by
  rw [events, runs_append]
  split <;> exact List.append_nil _

theorem submissions_events_tick :
    submissions (l.events perform .tick) = submissions (Work.record perform l.queue l.state) := by
  rw [events, submissions_append]
  split <;> exact List.append_nil _

theorem runs_events (m : Move α) : runs (l.events perform m) ++ (l.make perform upkeep m).queue =
    l.queue ++ submissions (l.events perform m) := by
  cases m with
  | submit w => rfl
  | tick =>
    rw [runs_events_tick, submissions_events_tick, make, tick_eq]
    exact Work.runs_record ..

theorem tasks_events (m : Move α) : Perm ((runs (l.events perform m)).map Work.task ++
    Work.tasksOf (l.make perform upkeep m).queue)
      (Work.tasksOf l.queue ++ Work.tasksOf m.works) := by
  cases m with
  | submit w =>
    rw [make, submit, Work.tasksOf_append]
    exact .refl _
  | tick =>
    rw [runs_events_tick, make, tick_eq, Move.works, Work.tasksOf, List.append_nil]
    exact Work.tasks_record ..

theorem prompt : l.Prompt perform upkeep := by
  rcases Work.drain_cases perform l.queue l.state with ⟨-, all⟩ | ⟨broken, done, v, last⟩
  · left
    rw [runs_events_tick]
    exact Work.prefix_runs_record perform l.queue l.state all
  · have order := runs_events perform upkeep l .tick
    have events : l.events perform .tick = done ++ [.ran v false] := by
      rw [events, last, if_pos broken, List.append_nil]
    have runs : runs (l.events perform .tick) = runs done ++ [v] := by
      rw [events, runs_append]
      rfl
    -- either the item that breaks has been submitted in between, or it waited before the tick
    have waited : l.queue <+: Loop.runs (l.events perform .tick) ∨
        Loop.runs (l.events perform .tick) <+: l.queue :=
      List.prefix_or_prefix_of_prefix ⟨_, rfl⟩ ⟨_, order⟩
    refine waited.imp_right fun ⟨behind, split⟩ => ?_
    rw [← split, List.append_assoc, List.append_cancel_left_eq] at order
    rw [runs] at split
    refine ⟨(Loop.runs done).length, v, ?_, ?_, ?_, ?_⟩
    · simp [← split]
    · rw [runs, ← split, List.take_left' (by simp)]
    · rw [events, List.getLast?_concat]
    · rw [← split, List.drop_left' (by simp)]
      exact order

theorem looksLast : l.LooksLast perform := by
  intro before second later split
  have none : .lookedAfter second ∉ Work.record perform l.queue l.state :=
    Work.not_lookedAfter_of_record perform l.queue l.state
  rcases Work.drain_cases perform l.queue l.state with ⟨through, all⟩ | ⟨broken, -⟩
  · rw [events, if_neg (by simp [through])] at split
    -- what stands last is the only look after the state
    rcases later.eq_nil_or_concat with rfl | ⟨between, e, rfl⟩
    · obtain ⟨rfl, -⟩ := List.append_inj' split rfl
      exact ⟨Work.prefix_runs_record perform l.queue l.state all, rfl⟩
    · rw [List.concat_eq_append, ← List.cons_append, ← List.append_assoc] at split
      obtain ⟨record, -⟩ := List.append_inj' split rfl
      exact absurd (record ▸ List.mem_append_right _ (List.mem_cons_self ..)) none
  · rw [events, if_pos broken, List.append_nil] at split
    exact absurd (split ▸ List.mem_append_right _ (List.mem_cons_self ..)) none

end

/-! ### Whole runs -/

section

variable (perform : σ → α → Bool × σ) (upkeep : Bool → σ → σ)

theorem history_append (l : Loop σ α) (past future : List (Move α)) :
    l.history perform upkeep (past ++ future) = l.history perform upkeep past ++
      (l.after perform upkeep past).history perform upkeep future := by
  induction past generalizing l with
  | nil => rfl
  | cons m past ih => rw [List.cons_append, history, ih, history, List.append_assoc]; rfl

theorem after_state (l : Loop σ α) (moves : List (Move α)) : (l.after perform upkeep moves).state =
    (l.history perform upkeep moves).foldl (Event.act perform upkeep) l.state := by
  induction moves generalizing l with
  | nil => rfl
  | cons m moves ih => rw [history, List.foldl_append, ← make_state]; exact ih _

theorem fitting_history (l : Loop σ α) (moves : List (Move α)) :
    Fitting perform upkeep l.state (l.history perform upkeep moves) := by
  induction moves generalizing l with
  | nil => trivial
  | cons m moves ih =>
    refine (fitting_events perform upkeep l m).append ?_
    rw [← make_state]
    exact ih _

theorem runs_history (l : Loop σ α) (moves : List (Move α)) :
    runs (l.history perform upkeep moves) ++ (l.after perform upkeep moves).queue =
      l.queue ++ submissions (l.history perform upkeep moves) := by
  induction moves generalizing l with
  | nil => exact (List.append_nil _).symm
  | cons m moves ih =>
    calc runs (l.history perform upkeep (m :: moves)) ++ (l.after perform upkeep (m :: moves)).queue
        = runs (l.events perform m) ++
            (runs ((l.make perform upkeep m).history perform upkeep moves) ++
              ((l.make perform upkeep m).after perform upkeep moves).queue) := by
          rw [history, runs_append, List.append_assoc]
          rfl
      _ = (runs (l.events perform m) ++ (l.make perform upkeep m).queue) ++
            submissions ((l.make perform upkeep m).history perform upkeep moves) := by
          rw [ih, List.append_assoc]
      _ = l.queue ++ submissions (l.history perform upkeep (m :: moves)) := by
          rw [runs_events, history, submissions_append, List.append_assoc]

theorem tasks_history (l : Loop σ α) (moves : List (Move α)) :
    Perm ((runs (l.history perform upkeep moves)).map Work.task ++
      Work.tasksOf (l.after perform upkeep moves).queue)
        (Work.tasksOf (l.queue ++ moves.flatMap Move.works)) := by
  induction moves generalizing l with
  | nil => simp [history, after, runs]
  | cons m moves ih =>
    have rest := ih (l.make perform upkeep m)
    have first := (tasks_events perform upkeep l m).append_right
      (Work.tasksOf (moves.flatMap Move.works))
    rw [Work.tasksOf_append] at rest
    rw [List.append_assoc, List.append_assoc] at first
    rw [history, runs_append, List.map_append, List.append_assoc, List.flatMap_cons,
      Work.tasksOf_append, Work.tasksOf_append]
    exact (rest.append_left _).trans first

theorem after_ticks (l : Loop σ α) (moves : List (Move α)) :
    (l.after perform upkeep moves).ticks = l.ticks + moves.countP Move.isTick := by
  induction moves generalizing l with
  | nil => rfl
  | cons m moves ih =>
    rw [after, List.foldl_cons]
    refine (ih _).trans ?_
    cases m with
    | submit w => rfl
    | tick =>
      rw [make, tick_eq, List.countP_cons_of_pos rfl]
      dsimp only
      omega

/-- **Work is done once and in order.** Whatever items do, whichever of them break, and however
submissions and ticks follow each other:

* what happens leads from state to state;
* what has been done, and then what waits, is all that waited and has been submitted, in the same
  order;
* an item is done as often as it has been submitted, or waits; one that stands there once is done
  once at most;
* every tick counts;
* a tick does all that waits before it, unless an item breaks: then those behind that item go on
  waiting, in order, before whatever has been submitted in between;
* and a tick looks after the state only when all that waited before it has been done. -/
theorem work_once_in_order (l : Loop σ α) (moves : List (Move α)) :
    (Fitting perform upkeep l.state (l.history perform upkeep moves) ∧
      (l.after perform upkeep moves).state =
        (l.history perform upkeep moves).foldl (Event.act perform upkeep) l.state) ∧
    runs (l.history perform upkeep moves) ++ (l.after perform upkeep moves).queue =
      l.queue ++ submissions (l.history perform upkeep moves) ∧
    (Perm ((runs (l.history perform upkeep moves)).map Work.task ++
        Work.tasksOf (l.after perform upkeep moves).queue)
        (Work.tasksOf (l.queue ++ moves.flatMap Move.works)) ∧
      ((Work.tasksOf (l.queue ++ moves.flatMap Move.works)).Nodup →
        ((runs (l.history perform upkeep moves)).map Work.task).Nodup)) ∧
    (l.after perform upkeep moves).ticks = l.ticks + moves.countP Move.isTick ∧
    ∀ past future, moves = past ++ .tick :: future →
      l.history perform upkeep moves = l.history perform upkeep past ++
        ((l.after perform upkeep past).events perform .tick ++
          (l.after perform upkeep (past ++ [.tick])).history perform upkeep future) ∧
      (l.after perform upkeep past).Prompt perform upkeep ∧
      (l.after perform upkeep past).LooksLast perform := by
  have tasks := tasks_history perform upkeep l moves
  refine ⟨⟨fitting_history perform upkeep l moves, after_state perform upkeep l moves⟩,
    runs_history perform upkeep l moves, ⟨tasks, fun distinct => ?_⟩,
    after_ticks perform upkeep l moves, ?_⟩
  · exact (tasks.nodup_iff.2 distinct).sublist (List.sublist_append_left ..)
  · rintro past future rfl
    refine ⟨?_, prompt perform upkeep _, looksLast perform _⟩
    rw [history_append, history, after, after, List.foldl_concat]

end

/-! ### A small run -/

/-- Write down what is done; two breaks. -/
def noteDown (notes : List ℕ) (task : ℕ) : Bool × List ℕ := (task != 2, notes ++ [task])

/-- Write down that the state has been looked after. -/
def noteUpkeep (_ : Bool) (notes : List ℕ) : List ℕ := notes ++ [0]

/-- A loop without work. -/
def notes : Loop (List ℕ) ℕ := { state := [], ticksPerSecond := 1 }

/-- Three items, of which the first one submits a fourth and the second one breaks, and a fifth
after the first tick. -/
def noteMoves : List (Move ℕ) :=
  [.submit (.item 1 [.plain 4]), .submit (.plain 2), .submit (.plain 3), .tick,
    .submit (.plain 5), .tick]

/-- All five are done, the three that go on waiting in the second tick; only that one looks after
the state. -/
theorem notes_once_in_order :
    (notes.after noteDown noteUpkeep noteMoves).state = [1, 2, 3, 4, 5, 0] ∧
      (Work.tasksOf (notes.queue ++ noteMoves.flatMap Move.works)).Nodup ∧
      ((runs (notes.history noteDown noteUpkeep noteMoves)).map Work.task).Nodup ∧
      (notes.after noteDown noteUpkeep noteMoves).ticks = 2 ∧
      (notes.after noteDown noteUpkeep (noteMoves.take 5)).Prompt noteDown noteUpkeep ∧
      (notes.after noteDown noteUpkeep (noteMoves.take 5)).LooksLast noteDown := by
  have ⟨_, _, ⟨_, once⟩, ticks, tick⟩ := work_once_in_order noteDown noteUpkeep notes noteMoves
  have distinct : (Work.tasksOf (notes.queue ++ noteMoves.flatMap Move.works)).Nodup := by decide
  exact ⟨by decide +kernel, distinct, once distinct, ticks, (tick (noteMoves.take 5) [] rfl).2⟩

end Loop

end WorkerCluster
