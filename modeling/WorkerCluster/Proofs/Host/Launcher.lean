import Mathlib.Tactic
import WorkerCluster.Host.Launcher

/-!
# Processes of a launcher

* `Launcher.launches` is what has been launched, and `Launcher.workerOf?` the worker for which it
  was.
* `Launcher.Ages` holds if nothing has been launched and no process has come back to life; all that
  is done to processes has this.
* `Launcher.output` is what a process has written and nobody has taken yet.
* `launch_last?` and the lemmas beside it say what a launch adds.
-/

namespace WorkerCluster.Launcher

/-- What has been launched, in order. -/
def launches (l : Launcher) : List Launch := l.runs.map (·.1)

/-- The worker for which a process was launched. -/
def workerOf? (l : Launcher) (pid : ℕ) : Option Uuid :=
  if pid = 0 then none else l.launches[pid - 1]?.map (·.worker.uuid)

/-- Nothing has been launched, and no process has come back to life. -/
structure Ages (l l' : Launcher) : Prop where
  launches : l'.launches = l.launches
  alive : ∀ pid, l'.isAlive pid = true → l.isAlive pid = true

variable {l l' : Launcher} {pid q : ℕ} {id : Uuid} {what : Launch} {f : Process → Process}

theorem last?_eq (l : Launcher) (id : Uuid) :
    l.last? id =
      (l.launches.reverse.findIdx? fun what => what.worker.uuid = id).map
        (l.launches.length - ·) := by
  rw [last?, launches, List.length_map, ← List.map_reverse, List.findIdx?_map]
  rfl

theorem isAlive_iff : l.isAlive pid = true ↔ ∃ p, l.process? pid = some p ∧ p.alive = true := by
  unfold isAlive
  cases l.process? pid <;> simp

theorem process?_isSome : (l.process? pid).isSome = (l.workerOf? pid).isSome := by
  unfold process? workerOf? launches
  split <;> simp

/-- Every process that is alive was launched for a worker. -/
theorem exists_workerOf? (alive : l.isAlive pid = true) : ∃ id, l.workerOf? pid = some id := by
  obtain ⟨p, hp, -⟩ := isAlive_iff.1 alive
  rw [← Option.isSome_iff_exists, ← process?_isSome, hp]
  rfl

/-- The last process of a worker was launched for it. -/
theorem workerOf?_last? (last : l.last? id = some pid) : l.workerOf? pid = some id := by
  rw [last?_eq] at last
  obtain ⟨i, hi, rfl⟩ := Option.map_eq_some_iff.1 last
  obtain ⟨short, hid, -⟩ := List.findIdx?_eq_some_iff_getElem.1 hi
  rw [List.length_reverse] at short
  rw [workerOf?, if_neg (by omega)]
  rw [List.getElem_reverse, decide_eq_true_eq] at hid
  rw [show l.launches.length - i - 1 = l.launches.length - 1 - i by omega,
    List.getElem?_eq_getElem (by omega), Option.map_some, hid]

/-! ### What is done to processes -/

theorem launches_update : (l.update pid f).launches = l.launches := by
  unfold update launches
  split
  · rfl
  · apply List.ext_getElem?
    intro i
    rw [List.getElem?_map, List.getElem?_map, List.getElem?_modify]
    split <;> cases l.runs[i]? <;> rfl

theorem process?_update :
    (l.update pid f).process? q = if q = pid then (l.process? q).map f else l.process? q := by
  unfold process? update
  by_cases hp : pid = 0
  · subst hp
    by_cases hq : q = 0 <;> simp [hq]
  · by_cases hq : q = 0
    · subst hq
      simp [Ne.symm hp]
    · rw [if_neg hp, if_neg hq, if_neg hq, List.getElem?_modify]
      by_cases h : q = pid
      · subst h
        simp [Function.comp_def]
      · have : pid - 1 ≠ q - 1 := by omega
        simp [h, this]

theorem isAlive_update_self (hf : ∀ p, (f p).alive = false) :
    (l.update pid f).isAlive pid = false := by
  unfold isAlive
  rw [process?_update, if_pos rfl]
  cases l.process? pid with
  | none => rfl
  | some p => exact hf p

theorem Ages.refl (l : Launcher) : l.Ages l := ⟨rfl, fun _ h => h⟩

theorem Ages.trans {l'' : Launcher} (h : l.Ages l') (h' : l'.Ages l'') : l.Ages l'' :=
  ⟨h'.launches.trans h.launches, fun pid alive => h.alive pid (h'.alive pid alive)⟩

theorem Ages.last? (h : l.Ages l') (id : Uuid) : l'.last? id = l.last? id := by
  rw [last?_eq, last?_eq, h.launches]

theorem Ages.workerOf? (h : l.Ages l') (pid : ℕ) : l'.workerOf? pid = l.workerOf? pid := by
  rw [Launcher.workerOf?, Launcher.workerOf?, h.launches]

theorem ages_update (hf : ∀ p, (f p).alive = true → p.alive = true) : l.Ages (l.update pid f) where
  launches := launches_update
  alive q alive := by
    obtain ⟨p, hp, ha⟩ := isAlive_iff.1 alive
    rw [process?_update] at hp
    split at hp
    · obtain ⟨p', hp', rfl⟩ := Option.map_eq_some_iff.1 hp
      exact isAlive_iff.2 ⟨p', hp', hf p' ha⟩
    · exact isAlive_iff.2 ⟨p, hp, ha⟩

theorem ages_stop (l : Launcher) (pid : ℕ) : l.Ages (l.stop pid) :=
  ages_update fun _ h => nomatch h

theorem ages_kill (l : Launcher) (pid : ℕ) : l.Ages (l.kill pid) :=
  ages_update fun _ h => nomatch h

theorem ages_drain (l : Launcher) (pid : ℕ) : l.Ages (l.drain pid).2 := by
  show l.Ages (l.update pid fun p => { p with output := [] })
  exact ages_update fun _ h => h

theorem ages_write {line : String} (h : l.write pid line = some l') : l.Ages l' := by
  unfold write at h
  split at h
  · cases h
    exact ages_update fun _ h => h
  · cases h

theorem ages_script (hf : ∀ p, (f p).alive = true → p.alive = true) : l.Ages (l.script id f).2 := by
  unfold script
  split
  · exact ages_update hf
  · exact .refl l

theorem isAlive_stop (l : Launcher) (pid : ℕ) : (l.stop pid).isAlive pid = false :=
  isAlive_update_self fun _ => rfl

theorem isAlive_kill (l : Launcher) (pid : ℕ) : (l.kill pid).isAlive pid = false :=
  isAlive_update_self fun _ => rfl

/-! ### What processes have written -/

/-- The lines that a process has written and nobody has taken yet. -/
def output (l : Launcher) (pid : ℕ) : List String :=
  match l.process? pid with
  | some p => p.output
  | none => []

theorem drain_fst (l : Launcher) (pid : ℕ) : (l.drain pid).1 = l.output pid := rfl

theorem output_update_of_ne (ne : q ≠ pid) : (l.update pid f).output q = l.output q := by
  rw [output, process?_update, if_neg ne, output]

theorem output_update (hf : ∀ p, (f p).output = p.output) (q : ℕ) :
    (l.update pid f).output q = l.output q := by
  by_cases same : q = pid
  · rw [output, process?_update, if_pos same, output]
    cases l.process? q with
    | none => rfl
    | some p => exact hf p
  · exact output_update_of_ne same

theorem output_stop (l : Launcher) (pid q : ℕ) : (l.stop pid).output q = l.output q :=
  output_update (fun _ => by rfl) q

theorem output_kill (l : Launcher) (pid q : ℕ) : (l.kill pid).output q = l.output q :=
  output_update (fun _ => by rfl) q

theorem output_write {line : String} (h : l.write pid line = some l') (q : ℕ) :
    l'.output q = l.output q := by
  unfold write at h
  split at h
  · cases h
    exact output_update (fun _ => by rfl) q
  · cases h

/-- Nothing is left of what has been taken, and nobody else's lines are taken. -/
theorem output_drain (l : Launcher) (pid q : ℕ) :
    (l.drain pid).2.output q = if q = pid then [] else l.output q := by
  show (l.update pid fun p => { p with output := [] }).output q = _
  split
  · next same =>
    rw [output, process?_update, if_pos same]
    cases l.process? q <;> rfl
  · next ne => exact output_update_of_ne ne

theorem output_script (hf : ∀ p, (f p).output = p.output) (q : ℕ) :
    (l.script id f).2.output q = l.output q := by
  unfold script
  split
  · exact output_update hf q
  · rfl

/-- A line that the last process of a worker writes stands behind those that it has written. -/
theorem output_emit (l : Launcher) (id : Uuid) (line : String) (q : ℕ) :
    (l.emit id line).2.output q =
      l.output q ++ if l.last? id = some q then [line] else [] := by
  unfold emit script
  cases last : l.last? id with
  | none => simp
  | some pid =>
    show (l.update pid _).output q = _
    by_cases same : q = pid
    · subst same
      obtain ⟨p, there⟩ : ∃ p, l.process? q = some p := by
        rw [← Option.isSome_iff_exists, process?_isSome, workerOf?_last? last]
        rfl
      simp [output, process?_update, there]
    · simp [output_update_of_ne same, Ne.symm same]

/-! ### Launches -/

theorem launch_eq (h : l.launch what = some (pid, l')) :
    pid = l.launches.length + 1 ∧ l'.runs = l.runs ++ [(what, { alive := true })] := by
  unfold launch at h
  split at h
  · cases h
  · cases h
    exact ⟨by rw [launches, List.length_map], rfl⟩

theorem launch_launches (h : l.launch what = some (pid, l')) :
    l'.launches = l.launches ++ [what] := by
  rw [launches, (launch_eq h).2, List.map_append]
  rfl

/-- The last process of a worker is the one that has just been launched for it. -/
theorem launch_last? (h : l.launch what = some (pid, l')) (id : Uuid) :
    l'.last? id = if what.worker.uuid = id then some pid else l.last? id := by
  obtain ⟨rfl, -⟩ := launch_eq h
  rw [last?_eq, last?_eq, launch_launches h, List.reverse_append, List.reverse_singleton,
    List.singleton_append, List.findIdx?_cons, List.length_append, List.length_singleton]
  by_cases hid : what.worker.uuid = id
  · simp [hid]
  · rw [if_neg (by simpa using hid), if_neg hid, Option.map_map]
    congr 1
    funext i
    exact Nat.add_sub_add_right ..

theorem getElem?_concat {α : Type} (l : List α) (a : α) (i : ℕ) :
    (l ++ [a])[i]? = if i = l.length then some a else l[i]? := by
  rcases Nat.lt_trichotomy i l.length with lt | rfl | gt
  · rw [List.getElem?_append_left lt, if_neg lt.ne]
  · rw [List.getElem?_append_right le_rfl, if_pos rfl, Nat.sub_self]
    rfl
  · rw [List.getElem?_eq_none (by simpa using gt), List.getElem?_eq_none gt.le, if_neg gt.ne']

theorem launch_workerOf? (h : l.launch what = some (pid, l')) (q : ℕ) :
    l'.workerOf? q = if q = pid then some what.worker.uuid else l.workerOf? q := by
  obtain ⟨rfl, -⟩ := launch_eq h
  unfold workerOf?
  rw [launch_launches h, getElem?_concat]
  by_cases hq : q = 0
  · simp [hq]
  · have place : q - 1 = l.launches.length ↔ q = l.launches.length + 1 := by omega
    simp only [hq, place, if_false]
    split <;> rfl

theorem launch_process? (h : l.launch what = some (pid, l')) (q : ℕ) :
    l'.process? q = if q = pid then some { alive := true } else l.process? q := by
  obtain ⟨hpid, runs⟩ := launch_eq h
  rw [launches, List.length_map] at hpid
  subst hpid
  unfold process?
  rw [runs, getElem?_concat]
  by_cases hq : q = 0
  · simp [hq]
  · have place : q - 1 = l.runs.length ↔ q = l.runs.length + 1 := by omega
    simp only [hq, place, if_false]
    split <;> rfl

/-- No process that was launched before has the number of the new one. -/
theorem launch_ne (h : l.launch what = some (pid, l')) (known : l.workerOf? q = some id) :
    q ≠ pid := by
  rintro rfl
  obtain ⟨rfl, -⟩ := launch_eq h
  rw [workerOf?, if_neg (Nat.succ_ne_zero _), Nat.add_sub_cancel,
    List.getElem?_eq_none le_rfl] at known
  cases known

/-- A new process has written nothing. -/
theorem launch_output (h : l.launch what = some (pid, l')) (q : ℕ) :
    l'.output q = if q = pid then [] else l.output q := by
  unfold output
  rw [launch_process? h]
  by_cases new : q = pid <;> simp [new]

/-- A launch adds a process, which is alive. -/
theorem launch_isAlive (h : l.launch what = some (pid, l')) (q : ℕ) :
    l'.isAlive q = true ↔ q = pid ∨ l.isAlive q = true := by
  rw [isAlive_iff, isAlive_iff, launch_process? h]
  split
  · rename_i e
    simp [e]
  · rename_i ne
    simp [ne]

end WorkerCluster.Launcher
