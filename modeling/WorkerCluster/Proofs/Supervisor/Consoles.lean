import Mathlib.Data.List.DropRight
import WorkerCluster.Proofs.Supervisor.Holding
import WorkerCluster.Proofs.Supervisor.Starting

/-!
# Consoles of workers

What becomes of the lines that the processes of a worker write.

* `LogTail.lines_extend` says that the last lines are kept of those that were there and those that
  come.
* `Supervisor.written` lists what the processes of a worker write in a history while the worker
  holds them. `Supervisor.Takes` holds for the moments at which the worker takes it over: all
  consoles are flushed, or the worker lets its process go.
* `pass_console` says what happens to the last lines of a worker at a moment, and to those that are
  still to be taken; `Quiet` is what most operations have in common there.
* `logs_exact` is the main statement, for whole histories.
-/

namespace WorkerCluster

namespace LogTail

/-- Of a list and what follows, the last elements are among those of its end and what follows. -/
theorem rtake_append_of_rtake {α : Type} (l m : List α) (n : ℕ) :
    (l.rtake n ++ m).rtake n = (l ++ m).rtake n := by
  have front : l.drop (l.length - n) ++ m = (l ++ m).drop (l.length - n) :=
    (List.drop_append_of_le_length (Nat.sub_le ..)).symm
  rw [List.rtake, List.rtake, front, List.drop_drop, List.rtake, List.length_drop,
    List.length_append]
  congr 1
  omega

theorem capacity_push (t : LogTail) (line : String) : (t.push line).capacity = t.capacity := by
  unfold push
  split
  · rfl
  · split <;> rfl

/-- A new line drives out the oldest one if no more lines fit. -/
theorem lines_push (t : LogTail) (line : String) :
    (t.push line).lines = (t.lines ++ [line]).rtake t.capacity := by
  have fits := t.fits
  unfold push
  split
  · next none =>
    rw [none, List.rtake_zero]
    rw [none] at fits
    exact List.length_eq_zero_iff.1 (Nat.le_zero.1 fits)
  · split
    · next room =>
      have all : (t.lines ++ [line]).length - t.capacity = 0 := by simp; omega
      rw [List.rtake, all, List.drop_zero]
    · next full _ =>
      have one : (t.lines ++ [line]).length - t.capacity = 1 := by simp; omega
      rw [List.rtake, one, List.drop_append_of_le_length (by omega)]

theorem extend_cons (t : LogTail) (line : String) (lines : List String) :
    t.extend (line :: lines) = (t.push line).extend lines := rfl

@[simp] theorem extend_nil (t : LogTail) : t.extend [] = t := rfl

theorem capacity_extend (t : LogTail) (lines : List String) :
    (t.extend lines).capacity = t.capacity := by
  induction lines generalizing t with
  | nil => rfl
  | cons line lines ih => rw [extend_cons, ih, capacity_push]

/-- **Of all lines, those before and those that come, the last ones are kept.** -/
theorem lines_extend (t : LogTail) (lines : List String) :
    (t.extend lines).lines = (t.lines ++ lines).rtake t.capacity := by
  induction lines generalizing t with
  | nil =>
    have all : t.lines.length - t.capacity = 0 := Nat.sub_eq_zero_of_le t.fits
    rw [extend_nil, List.append_nil, List.rtake, all, List.drop_zero]
  | cons line lines ih =>
    rw [extend_cons, ih, capacity_push, lines_push, rtake_append_of_rtake, List.append_assoc,
      List.singleton_append]

end LogTail

namespace Supervisor

/-- The line that the process which a worker holds writes at a moment, if it does. -/
def writtenAt (s : Supervisor) (id : Uuid) : Moment → List String
  | .happen (.emit worker line) =>
    if ∃ pid ∈ s.launcher.last? worker, s.processOf? id = some pid then [line] else []
  | _ => []

/-- The lines that the processes of a worker write in a history while the worker holds them. -/
def written (s : Supervisor) (id : Uuid) : List Moment → List String
  | [] => []
  | m :: history => s.writtenAt id m ++ (s.pass m).written id history

/-- At a moment a worker lets the process go that it holds. -/
def LetsGo (s : Supervisor) (id : Uuid) (m : Moment) : Prop :=
  ∃ pid, s.processOf? id = some pid ∧ (s.pass m).processOf? id ≠ some pid

/-- At a moment the lines are taken that the process of a worker has written. -/
def Takes (s : Supervisor) (id : Uuid) (m : Moment) : Prop :=
  m = .perform .flushAll ∨ s.LetsGo id m

/-- In a history lines were taken last after its first part, if they were taken at all. -/
structure LastTaken (s : Supervisor) (id : Uuid) (taken rest : List Moment) : Prop where
  ends : taken = [] ∨ ∃ before m, taken = before ++ [m] ∧ (s.live before).Takes id m
  since : ∀ before m after, rest = before ++ m :: after →
    ¬ ((s.live taken).live before).Takes id m

/-- The state in which a worker has been made from a plan, after some history. -/
abbrev madeAfter (s : Supervisor) (past : List Moment) (plan : WorkerPlan) : Supervisor :=
  (s.live past).pass (.perform (.create plan))

/-- How the console of a worker has come about in a history. The worker was made between two parts
of it; `taken` and `rest` are what has happened since. -/
structure Recorded (s : Supervisor) (id : Uuid) (history past : List Moment) (plan : WorkerPlan)
    (taken rest : List Moment) : Prop where
  split : history = past ++ .perform (.create plan) :: (taken ++ rest)
  made : (s.live past).drawnAt (.perform (.create plan)) = [id]
  /-- No other worker has been made under the id since. -/
  alone : id ∉ (s.madeAfter past plan).drawn (taken ++ rest)
  last : (s.madeAfter past plan).LastTaken id taken rest
  /-- Of what has been taken, the last lines are kept. -/
  lines : (s.live history).logs? id =
    some (((s.madeAfter past plan).written id taken).rtake s.settings.logLines.toNat)
  /-- Everything else is still to be taken. -/
  unread : (s.live history).unread id =
    ((s.madeAfter past plan).live taken).written id rest

/-- What happens to the console of a worker at a moment. -/
inductive Handed (s : Supervisor) (id : Uuid) (m : Moment) (v w : OwnedWorker) : Prop
  /-- Its process goes on writing. -/
  | going (on : ¬ s.Takes id m) (logs : w.logs = v.logs)
      (unread : (s.pass m).unread id = s.unread id ++ s.writtenAt id m)
  /-- What its process has written is taken. -/
  | taken (takes : s.Takes id m) (logs : w.logs = v.logs.extend (s.unread id))
      (unread : (s.pass m).unread id = []) (silent : s.writtenAt id m = [])

/-- From one state to the other no process has been launched, and no console has changed but those
of workers that have let their processes go and have taken what was left to take. -/
def Quiet (s t : Supervisor) : Prop :=
  ∀ id w, t.owned.find? id = some w → ∃ v, s.owned.find? id = some v ∧
    (w.process = v.process ∧ w.logs = v.logs ∧ t.unread id = s.unread id ∨
      w.process = none ∧ w.logs = v.logs.extend (s.unread id))

/-- No console has changed from one state to the other, nor what is to be taken. -/
def Still (s t : Supervisor) : Prop :=
  ∀ id w, t.owned.find? id = some w → ∃ v, s.owned.find? id = some v ∧
    w.process = v.process ∧ w.logs = v.logs ∧ t.unread id = s.unread id

variable {s t u : Supervisor} {id id' : Uuid} {v w : OwnedWorker} {m : Moment}

/-! ### Operations in which no console changes -/

theorem unread_of_idle (found : s.owned.find? id = some w) (idle : w.process = none) :
    s.unread id = [] := by
  rw [unread_found found, idle]
  rfl

theorem unread_congr (process : t.processOf? id = s.processOf? id)
    (output : ∀ pid, s.processOf? id = some pid → t.launcher.output pid = s.launcher.output pid) :
    t.unread id = s.unread id := by
  rw [unread, unread, process]
  cases held : s.processOf? id with
  | none => rfl
  | some pid => exact output pid held

theorem Still.refl (s : Supervisor) : s.Still s := fun _ w found => ⟨w, found, rfl, rfl, rfl⟩

theorem Still.trans (h : s.Still t) (h' : t.Still u) : s.Still u := by
  intro id w found
  obtain ⟨v, there, process, logs, unread⟩ := h' id w found
  obtain ⟨v', before, process', logs', unread'⟩ := h id v there
  exact ⟨v', before, process.trans process', logs.trans logs', unread.trans unread'⟩

/-- The workers stay as they are, and so does what their processes have written. -/
theorem still_of_owned_eq (owned : t.owned = s.owned)
    (output : ∀ pid, t.launcher.output pid = s.launcher.output pid) : s.Still t := by
  intro id w found
  rw [owned] at found
  refine ⟨w, found, rfl, rfl, unread_congr ?_ fun pid _ => output pid⟩
  rw [processOf?, owned, processOf?]

/-- A worker may change in all but its process and its console. -/
theorem still_of_edit (found : s.owned.find? id = some w) (owned : t.owned = s.owned.insert id v)
    (process : v.process = w.process) (logs : v.logs = w.logs)
    (launcher : t.launcher = s.launcher) : s.Still t := by
  intro id' w' found'
  have unread : t.unread id' = s.unread id' :=
    unread_congr
      (processOf?_insert_of_process owned ((processOf?_found found).trans process.symm) id')
      fun pid _ => by rw [launcher]
  rw [owned, SortedMap.find?_insert] at found'
  split at found'
  · next e =>
    cases found'
    exact ⟨w, e ▸ found, process, logs, unread⟩
  · exact ⟨w', found', rfl, rfl, unread⟩

theorem still_run (s : Supervisor) (id : Uuid) (command : String) :
    s.Still (s.run id command).2 := by
  unfold run
  split
  · exact .refl s
  · split
    · next launcher written =>
      obtain ⟨pid, -, written⟩ := Option.bind_eq_some_iff.1 written
      exact still_of_owned_eq rfl (Launcher.output_write written)
    · exact .refl s

theorem still_setConnected (s : Supervisor) (id : Uuid) (connected : Bool) :
    s.Still (s.setConnected id connected).2 := by
  unfold setConnected
  split
  · exact .refl s
  · next w found =>
    split
    · exact .refl s
    · exact still_of_edit found rfl rfl rfl rfl

theorem still_queue (s : Supervisor) (id : Uuid) {f : OwnedWorker → OwnedWorker}
    (hf : ∀ w, (f w).process = w.process ∧ (f w).logs = w.logs) : s.Still (s.queue id f).2 := by
  unfold queue
  split
  · exact .refl s
  · next w found => exact still_of_edit found rfl (hf w).1 (hf w).2 rfl

theorem Hearings.still (h : Hearings s t) : s.Still t :=
  still_of_owned_eq h.owned_eq fun pid => by rw [h.launcher_eq]

/-! ### Workers that let their processes go -/

theorem Still.quiet (h : s.Still t) : s.Quiet t := fun id w found =>
  let ⟨v, before, same⟩ := h id w found
  ⟨v, before, .inl same⟩

theorem Quiet.trans (h : s.Quiet t) (h' : t.Quiet u) : s.Quiet u := by
  intro id w found
  obtain ⟨v, there, now⟩ := h' id w found
  obtain ⟨v', before, first⟩ := h id v there
  refine ⟨v', before, ?_⟩
  obtain ⟨process, logs, unread⟩ | ⟨idle, logs⟩ := first <;>
    obtain ⟨process', logs', unread'⟩ | ⟨idle', logs'⟩ := now
  · exact .inl ⟨process'.trans process, logs'.trans logs, unread'.trans unread⟩
  · exact .inr ⟨idle', by rw [logs', logs, unread]⟩
  · exact .inr ⟨process'.trans idle, logs'.trans logs⟩
  · -- nothing was left to take any more
    refine .inr ⟨idle', ?_⟩
    rw [logs', unread_of_idle there idle, LogTail.extend_nil, logs]

/-- When a worker lets its process go, nothing is taken from the others. -/
theorem Tended.unread_of_released (h : s.Tended) (found : s.owned.find? id = some w)
    (released : Released w s.launcher t.launcher) (other : id' ≠ id)
    (process : t.processOf? id' = s.processOf? id') : t.unread id' = s.unread id' := by
  refine unread_congr process fun pid holds => released.output fun held => other ?_
  exact h.injective holds ((processOf?_found found).trans held)

theorem Tended.quiet_withStopped (h : s.Tended) (force : Bool) (found : s.owned.find? id = some w) :
    s.Quiet (s.withStopped force id w) := by
  intro id' w' found'
  by_cases e : id' = id
  · subst e
    have worker : w' = (ended s.launcher force w).1 := by
      simpa [withStopped, setOwned, publish, eq_comm] using found'
    refine ⟨w, found, .inr ⟨worker ▸ ended_process .., ?_⟩⟩
    rw [worker, ended_eq, unread_found found]
  · have before : s.owned.find? id' = some w' := by
      simpa [withStopped, setOwned, publish, e] using found'
    refine ⟨w', before, .inl ⟨rfl, rfl, ?_⟩⟩
    exact h.unread_of_released found (ended_released s.launcher force w) e
      (by rw [processOf?_found found', processOf?_found before])

theorem Tended.quiet_without (h : s.Tended) {launcher : Launcher}
    (found : s.owned.find? id = some w) (released : Released w s.launcher launcher) :
    s.Quiet (s.without id w launcher) := by
  intro id' w' found'
  have there := found'
  change (s.owned.erase id).find? id' = some w' at there
  rw [SortedMap.find?_erase] at there
  split at there
  · cases there
  · next e =>
    refine ⟨w', there, .inl ⟨rfl, rfl, ?_⟩⟩
    exact h.unread_of_released found released e
      (by rw [processOf?_found found', processOf?_found there])

theorem Tended.quiet_halt (h : s.Tended) (force deleting : Bool) (id : Uuid) :
    s.Quiet (s.halt force deleting id).2 := by
  obtain same | ⟨w, found, -, after⟩ := halt_cases s force deleting id
  · rw [same]
    exact (Still.refl s).quiet
  · split at after <;> rw [after]
    · exact h.quiet_without found (ended_released _ _ _)
    · exact h.quiet_withStopped force found

theorem Tended.quiet_delete (h : s.Tended) (id : Uuid) : s.Quiet (s.delete id).2 := by
  obtain same | ⟨w, launcher, found, released, after⟩ := delete_cases s id
  · rw [same]
    exact (Still.refl s).quiet
  · rw [after]
    exact h.quiet_without found released

theorem Tended.quiet_sweep (h : s.Tended) : s.Quiet s.sweep.2 := by
  refine (List.foldlRecOn s.exited _ (motive := fun t => t.Tended ∧ s.Quiet t)
    ⟨h, (Still.refl s).quiet⟩ ?_).2
  rintro t ⟨tended, before⟩ id -
  exact ⟨(halt_turns t false true id).turns.tended tended,
    before.trans (tended.quiet_halt false true id)⟩

theorem delete_turns (s : Supervisor) (id : Uuid) : LifeTurns s (s.delete id).2 :=
  stable_lifeTurns.of_delete s id

theorem Tended.quiet_deleteAll (h : s.Tended) : s.Quiet s.deleteAll.2 := by
  refine (List.foldlRecOn s.owned.keys _ (b := (0, s))
    (motive := fun x => x.2.Tended ∧ s.Quiet x.2) ⟨h, (Still.refl s).quiet⟩ ?_).2
  rintro x ⟨tended, before⟩ id -
  have deleted : (x.2.delete id).2.Tended ∧ s.Quiet (x.2.delete id).2 :=
    ⟨(delete_turns x.2 id).turns.tended tended, before.trans (tended.quiet_delete id)⟩
  dsimp only
  split <;> rename_i answer <;> rwa [answer] at deleted

/-! ### Flushes -/

/-- What some processes have written has been taken, and nothing else has changed. -/
def Flushed (ids : List Uuid) (s t : Supervisor) : Prop :=
  ∀ id w, t.owned.find? id = some w → ∃ v, s.owned.find? id = some v ∧ w.process = v.process ∧
    w.logs = v.logs.extend (if id ∈ ids then s.unread id else []) ∧
    t.unread id = if id ∈ ids then [] else s.unread id

/-- Either there is nothing to take, or it is taken. -/
theorem flush_cases (s : Supervisor) (id : Uuid) :
    (s.flush id).2 = s ∧ s.unread id = [] ∨
      ∃ w pid, s.owned.find? id = some w ∧ w.process = some pid ∧
        (s.flush id).2 = { s with launcher := (s.launcher.drain pid).2 }.setOwned id
          { w with logs := w.logs.extend (s.launcher.drain pid).1 } := by
  unfold flush
  split
  · next none => exact .inl ⟨rfl, by rw [unread, processOf?, none]; rfl⟩
  · next w found =>
    split
    · next idle => exact .inl ⟨rfl, unread_of_idle found idle⟩
    · next pid process => exact .inr ⟨w, pid, found, process, rfl⟩

theorem Tended.flushed_flush (h : s.Tended) (id : Uuid) : Flushed [id] s (s.flush id).2 := by
  obtain ⟨same, nothing⟩ | ⟨w, pid, found, process, after⟩ := flush_cases s id
  · rw [same]
    intro id' w' found'
    refine ⟨w', found', rfl, ?_⟩
    by_cases e : id' = id
    · simp [e, nothing]
    · simp [e]
  · rw [after]
    intro id' w' found'
    have holds := (processOf?_found found).trans process
    change (s.owned.insert id _).find? id' = some w' at found'
    rw [SortedMap.find?_insert] at found'
    split at found'
    · next e =>
      subst e
      cases found'
      have lines : s.unread id' = s.launcher.output pid := by rw [unread, holds]; rfl
      refine ⟨w, found, rfl, ?_, ?_⟩
      · simp [lines, Launcher.drain_fst]
      · simp [unread, setOwned, processOf?, process, Launcher.output_drain]
    · next e =>
      refine ⟨w', found', rfl, by simp [e], ?_⟩
      rw [if_neg (by simpa using e)]
      refine unread_congr ?_ fun q held => ?_
      · simp [processOf?, setOwned, e]
      · show (s.launcher.drain pid).2.output q = _
        rw [Launcher.output_drain, if_neg]
        rintro rfl
        exact e (h.injective held holds)

theorem flush_turns (s : Supervisor) (id : Uuid) : LifeTurns s (s.flush id).2 :=
  stable_lifeTurns.of_flush s id

/-- What one flush takes, the others do not find any more. -/
theorem Flushed.append {ids ids' : List Uuid} (h : Flushed ids s t) (h' : Flushed ids' t u) :
    Flushed (ids ++ ids') s u := by
  intro id w found
  obtain ⟨v, there, process, logs, unread⟩ := h' id w found
  obtain ⟨v', before, process', logs', unread'⟩ := h id v there
  refine ⟨v', before, process.trans process', ?_, ?_⟩
  · rw [logs, logs', unread']
    by_cases first : id ∈ ids <;> simp [first]
  · rw [unread, unread']
    by_cases first : id ∈ ids <;> simp [first]

theorem Tended.flushed_foldl (ids : List Uuid) (x : ℕ × Supervisor) (h : x.2.Tended) :
    Flushed ids x.2 (ids.foldl (fun (n, s) id =>
      let (m, s) := s.flush id
      (n + m, s)) x).2 := by
  induction ids generalizing x with
  | nil => exact fun _ w found => ⟨w, found, rfl, by simp⟩
  | cons id ids ih =>
    have next := (flush_turns x.2 id).turns.tended h
    exact (h.flushed_flush id).append (ih _ next)

/-- **A flush of all consoles takes everything that has been written.** -/
theorem Tended.flushAll_console (h : s.Tended) (found : s.flushAll.2.owned.find? id = some w) :
    ∃ v, s.owned.find? id = some v ∧ w.process = v.process ∧
      w.logs = v.logs.extend (s.unread id) ∧ s.flushAll.2.unread id = [] := by
  obtain ⟨v, before, process, logs, unread⟩ := h.flushed_foldl s.owned.keys (0, s) id w found
  have there : id ∈ s.owned.keys := SortedMap.mem_keys.2 ⟨v, before⟩
  rw [if_pos there] at logs unread
  exact ⟨v, before, process, logs, unread⟩

/-! ### Starts -/

theorem launch_of_succeeds {l : Launcher} {what : Launch} (succeeds : ¬ l.failing what = true) :
    l.launch what = some (l.runs.length + 1, { l with runs := l.runs ++ [(what, {})] }) :=
  if_neg succeeds

/-- A start goes on from what there is: only a worker that holds no process can get one, which has
written nothing yet and is none of those that were there. -/
theorem Tended.start_console (h : s.Tended) (id : Uuid)
    (found : (s.start id).2.owned.find? id' = some w) :
    ∃ v, s.owned.find? id' = some v ∧ w.logs = v.logs ∧
      (s.start id).2.unread id' = s.unread id' ∧
      (w.process = v.process ∨ v.process = none ∧
        ∀ pid, (s.launcher.workerOf? pid).isSome → w.process ≠ some pid) := by
  have still (h : s.Still (s.start id).2) : ∃ v, s.owned.find? id' = some v ∧ w.logs = v.logs ∧
      (s.start id).2.unread id' = s.unread id' ∧
      (w.process = v.process ∨ v.process = none ∧
        ∀ pid, (s.launcher.workerOf? pid).isSome → w.process ≠ some pid) :=
    let ⟨v, before, process, logs, unread⟩ := h id' w found
    ⟨v, before, logs, unread, .inl process⟩
  obtain same | ⟨w₀, files, before, down, -, ⟨-, after⟩ | ⟨can, after⟩⟩ := start_cases s id
  · exact still (by rw [same]; exact .refl s)
  · exact still (by rw [after]; exact still_of_edit before rfl rfl rfl rfl)
  · clear still
    rw [after] at found ⊢
    have launched : s.launcher.launch ((s.setOwned id w₀.applyQueued).launchOf w₀.applyQueued) =
        some (s.launcher.runs.length + 1, _) := launch_of_succeeds (mt .inr can)
    have process := processOf?_insert
      (s := s.setOwned id w₀.applyQueued)
      (w := w₀.applyQueued.launched (s.launcher.runs.length + 1))
      (t := (s.setOwned id w₀.applyQueued).withLaunched id w₀.applyQueued files) rfl id'
    have idle : w₀.process = none := (h.sound id w₀ before).idle_of_down down
    by_cases e : id' = id
    · subst e
      have worker : w = w₀.applyQueued.launched (s.launcher.runs.length + 1) := by
        simpa [withLaunched, setOwned, publish, eq_comm] using found
      subst worker
      refine ⟨w₀, before, rfl, ?_, .inr ⟨idle, fun pid known holds => ?_⟩⟩
      · rw [unread, process, if_pos rfl, unread_of_idle before idle]
        exact (Launcher.launch_output launched _).trans (if_pos rfl)
      · obtain ⟨worker, known⟩ := Option.isSome_iff_exists.1 known
        exact Launcher.launch_ne launched known (Option.some_injective _ holds).symm
    · have there : s.owned.find? id' = some w := by
        simpa [withLaunched, setOwned, publish, e] using found
      refine ⟨w, there, rfl, unread_congr ?_ fun pid holds => ?_, .inl rfl⟩
      · rw [processOf?_found found, processOf?_found there]
      · exact (Launcher.launch_output launched pid).trans
          (if_neg (Launcher.launch_ne launched (h.own id' pid holds)))

/-! ### Moments -/

theorem letsGo_iff (before : s.owned.find? id = some v)
    (found : (s.pass m).owned.find? id = some w) :
    s.LetsGo id m ↔ ∃ pid, v.process = some pid ∧ w.process ≠ some pid := by
  rw [LetsGo, processOf?_found before, processOf?_found found]

/-- A process that is still held goes on writing, if it is not flushed. -/
theorem handed_of_going (other : m ≠ .perform .flushAll) (silent : s.writtenAt id m = [])
    (before : s.owned.find? id = some v) (found : (s.pass m).owned.find? id = some w)
    (keeps : ∀ pid, v.process = some pid → w.process = some pid) (logs : w.logs = v.logs)
    (unread : (s.pass m).unread id = s.unread id) : Handed s id m v w := by
  refine .going ?_ logs (by rw [silent, List.append_nil, unread])
  rintro (flush | letsGo)
  · exact other flush
  · obtain ⟨pid, held, gone⟩ := (letsGo_iff before found).1 letsGo
    exact gone (keeps pid held)

theorem Still.handed (h : s.Still (s.pass m)) (other : m ≠ .perform .flushAll)
    (silent : s.writtenAt id m = []) (found : (s.pass m).owned.find? id = some w) :
    ∃ v, s.owned.find? id = some v ∧ Handed s id m v w := by
  obtain ⟨v, before, process, logs, unread⟩ := h id w found
  exact ⟨v, before, handed_of_going other silent before found
    (fun pid held => process.trans held) logs unread⟩

/-- What is known of a worker that has let its process go, if it had one. -/
theorem handed_of_gone (other : m ≠ .perform .flushAll) (silent : s.writtenAt id m = [])
    (before : s.owned.find? id = some v) (found : (s.pass m).owned.find? id = some w)
    (gone : ∀ pid, v.process = some pid → w.process ≠ some pid)
    (logs : w.logs = v.logs.extend (s.unread id)) (unread : (s.pass m).unread id = []) :
    Handed s id m v w := by
  cases held : v.process with
  | none =>
    have nothing := unread_of_idle before held
    rw [nothing, LogTail.extend_nil] at logs
    refine handed_of_going other silent before found (fun pid some => ?_) logs
      (by rw [unread, nothing])
    rw [held] at some
    cases some
  | some pid =>
    exact .taken (.inr ((letsGo_iff before found).2 ⟨pid, held, gone pid held⟩)) logs unread silent

theorem Quiet.handed (h : s.Quiet (s.pass m)) (other : m ≠ .perform .flushAll)
    (silent : s.writtenAt id m = []) (found : (s.pass m).owned.find? id = some w) :
    ∃ v, s.owned.find? id = some v ∧ Handed s id m v w := by
  obtain ⟨v, before, ⟨process, logs, unread⟩ | ⟨idle, logs⟩⟩ := h id w found
  · exact ⟨v, before, handed_of_going other silent before found
      (fun pid held => process.trans held) logs unread⟩
  · refine ⟨v, before, handed_of_gone other silent before found (fun pid _ => ?_) logs
      (unread_of_idle found idle)⟩
    rw [idle]
    exact nofun

theorem Tended.start_handed (h : s.Tended) (after : s.pass m = (s.start id').2)
    (other : m ≠ .perform .flushAll) (silent : s.writtenAt id m = [])
    (found : (s.pass m).owned.find? id = some w) :
    ∃ v, s.owned.find? id = some v ∧ Handed s id m v w := by
  obtain ⟨v, before, logs, unread, process⟩ := h.start_console id' (after ▸ found)
  refine ⟨v, before, handed_of_going other silent before found (fun pid held => ?_) logs
    (after ▸ unread)⟩
  obtain process | ⟨idle, -⟩ := process
  · rw [process, held]
  · rw [idle] at held
    cases held

/-- A restart takes what the old process has left, and the new one is another. -/
theorem Tended.restart_handed (h : s.Tended) (id' : Uuid)
    (found : (s.restart id').2.owned.find? id = some w) :
    ∃ v, s.owned.find? id = some v ∧ Handed s id (.perform (.restart id')) v w := by
  have halted : s.Quiet (s.halt false false id').2 := h.quiet_halt false false id'
  have turns : LifeTurns s (s.halt false false id').2 := halt_turns s false false id'
  have now : (s.pass (.perform (.restart id'))).owned.find? id = some w := found
  obtain after | after := restart_cases s id'
  · have after : s.pass (.perform (.restart id')) = (s.halt false false id').2 := after
    rw [← after] at halted
    exact halted.handed nofun rfl now
  · have after : s.pass (.perform (.restart id')) =
        ((s.halt false false id').2.start id').2 := after
    obtain ⟨v', there, logs', unread', process'⟩ :=
      (turns.turns.tended h).start_console id' (after ▸ now)
    rw [← after] at unread'
    obtain ⟨v, before, ⟨process, logs, unread⟩ | ⟨idle, logs⟩⟩ := halted id v' there
    · refine ⟨v, before, handed_of_going nofun rfl before now (fun pid held => ?_)
        (logs'.trans logs) (unread'.trans unread)⟩
      obtain process' | ⟨idle, -⟩ := process'
      · rw [process', process, held]
      · rw [process, held] at idle
        cases idle
    · refine ⟨v, before, handed_of_gone nofun rfl before now (fun pid held => ?_)
        (logs'.trans logs) (unread'.trans (unread_of_idle there idle))⟩
      obtain process' | ⟨-, new⟩ := process'
      · rw [process', idle]
        exact nofun
      · refine new pid ?_
        rw [(halt_ages s false false id').workerOf?,
          h.own id pid ((processOf?_found before).trans held)]
        rfl

/-- A new worker has an empty console, and no other one changes. -/
theorem create_console {plan : WorkerPlan} (found : (s.create plan).2.owned.find? id = some w) :
    (s.drawnAt (.perform (.create plan)) = [id] ∧ w.process = none ∧
        w.logs = .empty s.settings.logLines.toNat) ∨
      id ∉ s.drawnAt (.perform (.create plan)) ∧
        ∃ v, s.owned.find? id = some v ∧ Handed s id (.perform (.create plan)) v w := by
  obtain ⟨drawn, port, rfl⟩ | ⟨old, before⟩ := create_find? found
  · exact .inl ⟨drawn, rfl, rfl⟩
  · have process : (s.create plan).2.processOf? id = s.processOf? id :=
      (processOf?_found found).trans (processOf?_found before).symm
    have unread : (s.create plan).2.unread id = s.unread id :=
      unread_congr process fun _ _ => by rw [create_launcher]
    exact .inr ⟨old, w, before,
      handed_of_going nofun rfl before found (fun _ held => held) rfl unread⟩

theorem emit_handed (s : Supervisor) (worker : Uuid) (line : String) (w : OwnedWorker) :
    Handed s id (.happen (.emit worker line)) w w := by
  have same : (s.pass (.happen (.emit worker line))).processOf? id = s.processOf? id := rfl
  refine .going ?_ rfl ?_
  · rintro (flush | ⟨pid, held, gone⟩)
    · cases flush
    · exact gone (same.trans held)
  · rw [unread, same, unread, writtenAt]
    cases held : s.processOf? id with
    | none => simp
    | some pid =>
      refine (Launcher.output_emit s.launcher worker line pid).trans ?_
      simp

/-- **At every moment a worker has just been made, or its process goes on writing, or what it has
written is taken.** -/
theorem Tended.pass_console (h : s.Tended) (found : (s.pass m).owned.find? id = some w) :
    (∃ plan, m = .perform (.create plan) ∧ s.drawnAt m = [id] ∧ w.process = none ∧
      w.logs = .empty s.settings.logLines.toNat) ∨
      id ∉ s.drawnAt m ∧ ∃ v, s.owned.find? id = some v ∧ Handed s id m v w := by
  cases m with
  | files files =>
    have still : s.Still (s.pass (.files files)) := still_of_owned_eq rfl fun _ => rfl
    exact .inr ⟨List.not_mem_nil, still.handed nofun rfl found⟩
  | happen event =>
    refine .inr ⟨List.not_mem_nil, ?_⟩
    have still (silent : s.writtenAt id (.happen event) = [])
        (output : ∀ pid, (s.happen event).2.launcher.output pid = s.launcher.output pid) :
        ∃ v, s.owned.find? id = some v ∧ Handed s id (.happen event) v w :=
      Still.handed (still_of_owned_eq (by cases event <;> rfl) output) nofun silent found
    cases event with
    | emit worker line => exact ⟨w, found, emit_handed s worker line w⟩
    | exit worker => exact still rfl (Launcher.output_script fun _ => rfl)
    | failLaunches failing => exact still rfl fun _ => rfl
    | failSome failing => exact still rfl fun _ => rfl
    | now time => exact still rfl fun _ => rfl
  | perform step =>
    have quiet (drawn : s.drawnAt (.perform step) = []) (other : step ≠ .flushAll)
        (silent : s.writtenAt id (.perform step) = []) (quiet : s.Quiet (s.pass (.perform step))) :
        (∃ plan, Moment.perform step = .perform (.create plan) ∧
          s.drawnAt (.perform step) = [id] ∧ w.process = none ∧
          w.logs = .empty s.settings.logLines.toNat) ∨
        id ∉ s.drawnAt (.perform step) ∧
          ∃ v, s.owned.find? id = some v ∧ Handed s id (.perform step) v w :=
      .inr ⟨drawn ▸ List.not_mem_nil,
        quiet.handed (fun e => other (Moment.perform.inj e)) silent found⟩
    cases step with
    | create plan =>
      obtain new | old := create_console found
      · exact .inl ⟨plan, rfl, new⟩
      · exact .inr old
    | start id' => exact .inr ⟨List.not_mem_nil, h.start_handed rfl nofun rfl found⟩
    | restart id' => exact .inr ⟨List.not_mem_nil, h.restart_handed id' found⟩
    | stop id' => exact quiet rfl nofun rfl (h.quiet_halt false true id')
    | kill id' => exact quiet rfl nofun rfl (h.quiet_halt true true id')
    | delete id' => exact quiet rfl nofun rfl (h.quiet_delete id')
    | reach id' target =>
      cases target with
      | running => exact .inr ⟨List.not_mem_nil, h.start_handed rfl nofun rfl found⟩
      | stopped => exact quiet rfl nofun rfl (h.quiet_halt false true id')
      | deleted => exact quiet rfl nofun rfl (h.quiet_delete id')
      | prepared => exact quiet rfl nofun rfl (Still.refl s).quiet
    | deleteAll => exact quiet rfl nofun rfl h.quiet_deleteAll
    | run id' command => exact quiet rfl nofun rfl (still_run s id' command).quiet
    | addTemplate id' c | addInclusion id' c | addDeployment id' c =>
      exact quiet rfl nofun rfl (still_queue s id' fun _ => ⟨by rfl, by rfl⟩).quiet
    | setConnected id' c => exact quiet rfl nofun rfl (still_setConnected s id' c).quiet
    | sweep => exact quiet rfl nofun rfl h.quiet_sweep
    | flushAll =>
      obtain ⟨v, before, -, logs, unread⟩ := h.flushAll_console found
      exact .inr ⟨List.not_mem_nil, v, before, .taken (.inl rfl) logs unread rfl⟩
    | hear w' => exact quiet rfl nofun rfl (hear_hearings s w').still.quiet
    | replace node l => exact quiet rfl nofun rfl (replace_hearings s node l).still.quiet
    | forget node =>
      exact quiet rfl nofun rfl (still_of_owned_eq rfl fun _ => rfl).quiet

/-! ### Whole histories -/

theorem written_append (s : Supervisor) (id : Uuid) (h k : List Moment) :
    s.written id (h ++ k) = s.written id h ++ (s.live h).written id k := by
  induction h generalizing s with
  | nil => rfl
  | cons m h ih => rw [List.cons_append, written, written, ih, List.append_assoc]; rfl

theorem written_concat (s : Supervisor) (id : Uuid) (h : List Moment) (m : Moment) :
    s.written id (h ++ [m]) = s.written id h ++ (s.live h).writtenAt id m := by
  rw [written_append, written, written, List.append_nil]

/-- Nothing has been taken from a worker that has just been made. -/
theorem lastTaken_nil (s : Supervisor) (id : Uuid) : LastTaken s id [] [] where
  ends := .inl rfl
  since before m after split := by simp at split

theorem LastTaken.going {taken rest : List Moment} (h : LastTaken s id taken rest)
    (on : ¬ ((s.live taken).live rest).Takes id m) : LastTaken s id taken (rest ++ [m]) where
  ends := h.ends
  since before m' after split := by
    obtain ⟨k, rfl, rest'⟩ | ⟨k, rfl, rest'⟩ := List.append_eq_append_iff.1 split
    · cases k with
      | nil =>
        cases rest'
        rwa [List.append_nil]
      | cons x k => simp at rest'
    · cases k with
      | nil =>
        cases rest'
        rwa [List.append_nil] at on
      | cons x k =>
        obtain ⟨rfl, -⟩ := List.cons_eq_cons.1 rest'
        exact h.since before m' k rfl

theorem lastTaken_taken {later : List Moment} (takes : (s.live later).Takes id m) :
    LastTaken s id (later ++ [m]) [] where
  ends := .inr ⟨later, m, rfl, takes⟩
  since before m after split := by simp at split

theorem logs?_found (found : s.owned.find? id = some w) : s.logs? id = some w.logs.lines := by
  rw [logs?, found, Option.map_some]

section

variable {history past taken rest : List Moment} {plan : WorkerPlan}

theorem recorded_create (made : (s.live history).drawnAt (.perform (.create plan)) = [id])
    (found : (s.live (history ++ [.perform (.create plan)])).owned.find? id = some w)
    (idle : w.process = none) (logs : w.logs = .empty s.settings.logLines.toNat) :
    Recorded s id (history ++ [.perform (.create plan)]) history plan [] [] where
  split := rfl
  made
  alone := List.not_mem_nil
  last := lastTaken_nil _ id
  lines := by
    rw [logs?_found found, logs, written, List.rtake_nil]
    rfl
  unread := unread_of_idle found idle

/-- What has happened since a worker was made leads to where it is now. -/
theorem Recorded.live (h : Recorded s id history past plan taken rest) :
    ((s.madeAfter past plan).live taken).live rest = s.live history := by
  rw [← live_append, h.split, live_append s]
  rfl

theorem Recorded.alone_concat (h : Recorded s id history past plan taken rest)
    (other : id ∉ (s.live history).drawnAt m) :
    id ∉ (s.madeAfter past plan).drawn (taken ++ rest ++ [m]) := by
  rw [drawn_concat, List.mem_append, not_or, live_append, h.live]
  exact ⟨h.alone, other⟩

theorem Recorded.going (h : Recorded s id history past plan taken rest)
    (other : id ∉ (s.live history).drawnAt m)
    (before : (s.live history).owned.find? id = some v)
    (found : (s.live (history ++ [m])).owned.find? id = some w)
    (on : ¬ (s.live history).Takes id m) (logs : w.logs = v.logs)
    (unread : (s.live (history ++ [m])).unread id =
      (s.live history).unread id ++ (s.live history).writtenAt id m) :
    Recorded s id (history ++ [m]) past plan taken (rest ++ [m]) where
  split := by rw [h.split]; simp
  made := h.made
  alone := by
    rw [← List.append_assoc]
    exact h.alone_concat other
  last := h.last.going (by rwa [h.live])
  lines := by
    rw [logs?_found found, logs, ← logs?_found before]
    exact h.lines
  unread := by rw [unread, h.unread, written_concat, h.live]

theorem Recorded.takes (h : Recorded s id history past plan taken rest)
    (other : id ∉ (s.live history).drawnAt m)
    (before : (s.live history).owned.find? id = some v)
    (found : (s.live (history ++ [m])).owned.find? id = some w)
    (capacity : v.logs.capacity = s.settings.logLines.toNat)
    (takes : (s.live history).Takes id m)
    (logs : w.logs = v.logs.extend ((s.live history).unread id))
    (unread : (s.live (history ++ [m])).unread id = [])
    (silent : (s.live history).writtenAt id m = []) :
    Recorded s id (history ++ [m]) past plan (taken ++ rest ++ [m]) [] where
  split := by rw [h.split]; simp
  made := h.made
  alone := by
    rw [List.append_nil]
    exact h.alone_concat other
  last := by
    refine lastTaken_taken ?_
    rwa [live_append, h.live]
  lines := by
    have lines : v.logs.lines =
        ((s.madeAfter past plan).written id _).rtake s.settings.logLines.toNat :=
      Option.some_injective _ ((logs?_found before).symm.trans h.lines)
    rw [logs?_found found, logs, LogTail.lines_extend, capacity, lines, h.unread,
      LogTail.rtake_append_of_rtake, ← written_append, written_concat, live_append, h.live, silent,
      List.append_nil]
  unread := unread

end

/-- **No line of a console is lost, and none is repeated.** Whatever happens, the last lines of a
worker are the last ones of all that its processes have written while it held them, up to when
lines were taken last, that is up to the last flush or the last time that it let a process go; what
they have written since is still to be taken. If no lines fit, there are none. -/
theorem logs_exact (new : s.IsNew) (history : List Moment)
    (found : (s.live history).owned.find? id = some w) :
    (∃ past plan taken rest, Recorded s id history past plan taken rest) ∧
      (s.settings.logLines = 0 → (s.live history).logs? id = some []) := by
  suffices all : w.logs.capacity = s.settings.logLines.toNat ∧
      ∃ past plan taken rest, Recorded s id history past plan taken rest by
    obtain ⟨past, plan, taken, rest, recorded⟩ := all.2
    refine ⟨⟨past, plan, taken, rest, recorded⟩, fun none => ?_⟩
    rw [recorded.lines, none]
    exact congrArg some (List.rtake_zero _)
  induction history using List.reverseRecOn generalizing w with
  | nil =>
    have before : s.owned.find? id = some w := found
    rw [new.owned] at before
    cases before
  | append_singleton history m ih =>
    have reachable := new.reachable.live history
    have now := found
    rw [live_concat] at now
    obtain ⟨plan, rfl, made, idle, logs⟩ | ⟨other, v, before, handed⟩ :=
      reachable.tended.pass_console now
    · rw [reachable.settings_eq] at logs
      exact ⟨logs ▸ rfl, history, plan, [], [], recorded_create made found idle logs⟩
    · obtain ⟨capacity, past, plan, taken, rest, recorded⟩ := ih before
      cases handed with
      | going on logs unread =>
        rw [← live_concat] at unread
        exact ⟨logs ▸ capacity, past, plan, taken, rest ++ [m],
          recorded.going other before found on logs unread⟩
      | taken takes logs unread silent =>
        rw [← live_concat] at unread
        refine ⟨?_, past, plan, taken ++ rest ++ [m], [],
          recorded.takes other before found capacity takes logs unread silent⟩
        rw [logs, LogTail.capacity_extend, capacity]

/-- A worker writes lines before and after a flush, after its process has exited, when it holds
none, and before and after a restart. -/
def noisy : List Moment := [
  .perform (.create lobbyPlan),
  .perform (.start lobbyId),
  .happen (.emit lobbyId "one"),
  .happen (.emit lobbyId "two"),
  .perform .flushAll,
  .happen (.emit lobbyId "three"),
  .happen (.exit lobbyId),
  .happen (.emit lobbyId "four"),
  .perform .sweep,
  .happen (.emit lobbyId "lost"),
  .perform (.start lobbyId),
  .happen (.emit lobbyId "five"),
  .perform (.restart lobbyId),
  .happen (.emit lobbyId "six")]

/-- Four of the five lines that have been taken are kept then, and one is still to be taken. -/
theorem logs_noisy :
    (lobbyEmpty.IsNew ∧
      (lobbyEmpty.live noisy).logs? lobbyId = some ["two", "three", "four", "five"] ∧
      (lobbyEmpty.live noisy).unread lobbyId = ["six"]) ∧
    ∃ w, (lobbyEmpty.live noisy).owned.find? lobbyId = some w ∧
      (∃ past plan taken rest, Recorded lobbyEmpty lobbyId noisy past plan taken rest) ∧
      (lobbyEmpty.settings.logLines = 0 → (lobbyEmpty.live noisy).logs? lobbyId = some []) := by
  have there : ((lobbyEmpty.live noisy).owned.find? lobbyId).isSome = true := by decide +kernel
  obtain ⟨w, found⟩ := Option.isSome_iff_exists.1 there
  exact ⟨⟨isNew_lobbyEmpty, by decide +kernel, by decide +kernel⟩, w, found,
    logs_exact isNew_lobbyEmpty noisy found⟩

end Supervisor

end WorkerCluster
