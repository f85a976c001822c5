import WorkerCluster.Proofs.Node.Budget
import WorkerCluster.Proofs.Node.Placing
import WorkerCluster.Proofs.Supervisor.Growth

/-!
# Instances that are started unasked

A node goes once through its tasks and makes an instance of each of which there are too few. What it
knows of its workers changes on the way, what it knows of its peers does not.

* `Node.Wanted` says when an instance is to be made, by what the node knows before it begins;
  `wants_iff` compares the decision with it.
* `Node.drawn` lists the ids under which instances are made.
* `scale_scaled` is what happens for one task, `foldl_scaled` for several of different names: an
  instance of one changes nothing about the others.
* `Scaled.gains_iff`, `Scaled.length_filter_le_one`, … say what that means for the workers there
  are.
* `Node.Autoscaled` says what has happened in the end. `autoscale_bounded` is the main statement.
-/

namespace WorkerCluster

namespace Node

open Placement (Offers beats)
open Supervisor (Grown)

/-- An instance of a task is to be made: the task is not in maintenance and admits the node, there
are too few instances, and no connected peer that the task admits has said anything that beats what
the node has said. -/
structure Wanted (n : Node) (here : NodeStatus) (t : TaskSpec) : Prop where
  active : t.maintenance = false
  admitted : t.admits n.identity.id = true
  few : n.supervisor.count t.name < t.minCount.toNat
  unbeaten : ∀ peer s, t.admits peer = true → n.roster.isConnected peer = true →
    n.roster.heard? peer = some s → beats s here = false

/-- The id under which an instance of a task is made, if one is. -/
def drawnFor (n : Node) (here : NodeStatus) (groups : List GroupSpec) (t : TaskSpec) : List Uuid :=
  if n.wants here t then ((n.supervisor.create (t.plan groups)).1.map (·.uuid)).toList else []

/-- The ids under which instances of tasks are made, one task after the other. -/
def drawnIn (here : NodeStatus) (groups : List GroupSpec) : Node → List TaskSpec → List Uuid
  | _, [] => []
  | n, t :: tasks =>
    n.drawnFor here groups t ++ drawnIn here groups (n.scale here groups t).2 tasks

/-- The ids under which instances are made that nobody has asked for. -/
def drawn (n : Node) : List Uuid :=
  match n.roster.current with
  | none => []
  | some here => drawnIn here n.replica.groups.values n n.replica.tasks.values

/-- A worker is one of the node now and was not before. -/
def Gains (n m : Node) (id : Uuid) (w : OwnedWorker) : Prop :=
  m.supervisor.owned.find? id = some w ∧ n.supervisor.owned.find? id = none

/-- What has happened when a node has started instances that it found wanting. -/
structure Autoscaled (n : Node) (here : NodeStatus) (started : ℕ) (m : Node) : Prop where
  /-- What the node holds of the cluster, and what it knows of its peers, is as it was. -/
  replica : m.replica = n.replica
  roster : m.roster = n.roster
  /-- So are the workers of peers. -/
  remote : m.supervisor.remote = n.supervisor.remote
  /-- So are those of the node. -/
  owned : ∀ id w, n.supervisor.owned.find? id = some w → m.supervisor.owned.find? id = some w
  /-- Everybody who was known is known by the same id. -/
  known : ∀ id r, n.supervisor.record? id = some r → m.supervisor.record? id = some r
  /-- A new worker is an instance of a task of which one was wanted. -/
  wanted : ∀ id w, n.Gains m id w →
    ∃ t, n.replica.tasks.find? w.record.task = some t ∧ n.Wanted here t
  /-- It is the only new one of its task. -/
  single : ∀ id v id' w, n.Gains m id v → n.Gains m id' w → v.record.task = w.record.task → id = id'
  /-- It runs if it could be launched, and is prepared otherwise. -/
  begun : ∀ id w, n.Gains m id w → n.supervisor.Begun w
  /-- There are not more instances than there were, or than there are to be at least. -/
  bounded : ∀ task t, n.replica.tasks.find? task = some t →
    m.supervisor.count task ≤ max (n.supervisor.count task) t.minCount.toNat
  /-- There are as many instances of unknown tasks as there were. -/
  others : ∀ task, n.replica.tasks.find? task = none →
    m.supervisor.count task = n.supervisor.count task
  /-- If an instance was wanted and none has been made, none can be made. -/
  complete : ∀ task t, n.replica.tasks.find? task = some t → n.Wanted here t →
    (∃ id w, n.Gains m id w ∧ w.record.task = task) ∨
      ¬ m.supervisor.CanCreate (t.plan n.replica.groups.values)
  /-- The new workers that run have been counted. -/
  number : started = (m.supervisor.owned.entries.filter fun e =>
    (n.supervisor.owned.find? e.1).isNone && e.2.record.isRunning).length

variable {c : Config} {n m : Node} {here : NodeStatus} {groups : List GroupSpec} {t : TaskSpec}

/-! ### What is wanted -/

theorem wants_iff (h : Reachable c n) (current : n.roster.current = some here) :
    n.wants here t = true ↔ n.Wanted here t := by
  have unbeaten : Placement.competes t here n.roster.candidates = true ↔
      ∀ peer s, t.admits peer = true → n.roster.isConnected peer = true →
        n.roster.heard? peer = some s → beats s here = false := by
    rw [Placement.competes_iff_offers, h.named_current current]
    constructor
    · intro all peer s admitted linked heard
      exact all s ((offers_iff h).2 ⟨peer, admitted, linked, heard⟩)
    · intro all s offered
      obtain ⟨peer, admitted, linked, heard⟩ := (offers_iff h).1 offered
      exact all peer s admitted linked heard
  rw [wants, Bool.and_eq_true, Bool.and_eq_true, Bool.and_eq_true, Bool.not_eq_true',
    decide_eq_true_iff, unbeaten]
  constructor
  · rintro ⟨⟨⟨active, admitted⟩, few⟩, unbeaten⟩
    exact ⟨active, admitted, few, unbeaten⟩
  · rintro ⟨active, admitted, few, unbeaten⟩
    exact ⟨⟨⟨active, admitted⟩, few⟩, unbeaten⟩

/-- Whether an instance of a task is wanted does not change when instances of others are made. -/
theorem wants_congr (roster : m.roster = n.roster)
    (count : m.supervisor.count t.name = n.supervisor.count t.name) :
    m.wants here t = n.wants here t := by
  rw [wants, wants, identity, identity, roster, count]

/-! ### One task -/

/-- What has happened once a node has gone through some tasks. -/
structure Scaled (here : NodeStatus) (groups : List GroupSpec) (n : Node) (visited : List TaskSpec)
    (made : List (Uuid × OwnedWorker)) (m : Node) : Prop where
  grown : Grown made n.supervisor m.supervisor
  roster : m.roster = n.roster
  replica : m.replica = n.replica
  /-- There is one new worker at most for every task. -/
  tasks : (made.map (·.2.record.task)).Sublist (visited.map (·.name))
  wanted : ∀ e ∈ made, ∃ t ∈ visited, t.name = e.2.record.task ∧ n.wants here t = true
  begun : ∀ e ∈ made, n.supervisor.Begun e.2
  complete : ∀ t ∈ visited, n.wants here t = true →
    (∃ e ∈ made, e.2.record.task = t.name) ∨ (m.supervisor.create (t.plan groups)).1 = none

/-- How many of the workers run that have been made. -/
def running (made : List (Uuid × OwnedWorker)) : ℕ :=
  (made.filter (·.2.record.isRunning)).length

/-- A node makes no instances if of every task none is wanted or none can be made. -/
theorem Scaled.of_nothing {visited : List TaskSpec} (grown : Grown [] n.supervisor m.supervisor)
    (roster : m.roster = n.roster) (replica : m.replica = n.replica)
    (refused : ∀ t ∈ visited, n.wants here t = true →
      (m.supervisor.create (t.plan groups)).1 = none) : Scaled here groups n visited [] m where
  grown := grown
  roster := roster
  replica := replica
  tasks := List.nil_sublist _
  wanted := List.forall_mem_nil _
  begun := List.forall_mem_nil _
  complete t mem wanted := .inr (refused t mem wanted)

theorem scale_of_refused {s : Supervisor} (wanted : n.wants here t = true)
    (refused : n.supervisor.create (t.plan groups) = (none, s)) :
    n.scale here groups t = (false, n.supervised s) := by
  rw [scale, if_pos wanted]
  simp only [onSupervisor, refused]
  rfl

theorem scale_of_created {s : Supervisor} {r : WorkerRecord} (wanted : n.wants here t = true)
    (created : n.supervisor.create (t.plan groups) = (some r, s)) :
    n.scale here groups t =
      (({ s with outbox := [] }.start r.uuid).1.isSome,
        (n.supervised s).supervised ({ s with outbox := [] }.start r.uuid).2) := by
  rw [scale, if_pos wanted]
  simp only [onSupervisor, created]
  rfl

/-- **An instance of a task is made and started if one is wanted.** -/
theorem scale_scaled (fresh : ∀ id ∈ n.drawnFor here groups t, n.supervisor.owned.find? id = none) :
    ∃ made, Scaled here groups n [t] made (n.scale here groups t).2 ∧
      made.map Prod.fst = n.drawnFor here groups t ∧
      running made = if (n.scale here groups t).1 then 1 else 0 := by
  unfold drawnFor at *
  cases wanted : n.wants here t with
  | false =>
    have after : n.scale here groups t = (false, n) := by
      rw [scale, wanted, if_neg Bool.false_ne_true]
    rw [after, if_neg Bool.false_ne_true]
    refine ⟨[], .of_nothing (.refl _) rfl rfl fun t' mem wants => ?_, rfl,
      (if_neg Bool.false_ne_true).symm⟩
    rw [List.mem_singleton.1 mem, wanted] at wants
    cases wants
  | true =>
    rw [wanted, if_pos rfl] at fresh
    rw [if_pos rfl]
    cases created : n.supervisor.create (t.plan groups) with
    | mk answer s =>
      rw [created] at fresh
      cases answer with
      | none =>
        have same : s = n.supervisor := by
          obtain refused | ⟨port, -, -, -, made⟩ :=
            Supervisor.create_cases n.supervisor (t.plan groups)
          · exact congrArg Prod.snd (created.symm.trans refused)
          · cases (congrArg Prod.fst (created.symm.trans made) : none = some _)
        rw [scale_of_refused wanted created, same]
        refine ⟨[], .of_nothing ((Grown.refl _).tell []) rfl rfl fun t' mem _ => ?_, rfl,
          (if_neg Bool.false_ne_true).symm⟩
        rw [List.mem_singleton.1 mem]
        exact ((Grown.refl n.supervisor).tell []).create_none (by rw [created])
      | some r =>
        obtain ⟨w, grown, task, begun, started⟩ :=
          Supervisor.grown_start created (fresh r.uuid (List.mem_singleton_self _)) []
        rw [scale_of_created wanted created]
        refine ⟨[(r.uuid, w)], ⟨grown.tell [], rfl, rfl, ?_, ?_, ?_, ?_⟩, rfl, ?_⟩
        · show [w.record.task].Sublist [t.name]
          rw [task]
          exact .refl _
        · rintro e new
          rw [List.mem_singleton.1 new]
          exact ⟨t, List.mem_singleton_self t, task.symm, wanted⟩
        · rintro e new
          rw [List.mem_singleton.1 new]
          exact begun
        · rintro t' mem -
          rw [List.mem_singleton.1 mem]
          exact .inl ⟨_, List.mem_singleton_self _, task⟩
        · rw [started]
          cases runs : w.record.isRunning <;> simp [running, runs]

/-! ### All tasks -/

theorem running_append (made made' : List (Uuid × OwnedWorker)) :
    running (made ++ made') = running made + running made' := by
  rw [running, List.filter_append, List.length_append, running, running]

/-- What was done for one task changes nothing about those that follow. -/
theorem Scaled.cons {visited : List TaskSpec} {made made' : List (Uuid × OwnedWorker)} {u : Node}
    (first : Scaled here groups n [t] made m) (rest : Scaled here groups m visited made' u)
    (other : t.name ∉ visited.map (·.name)) :
    Scaled here groups n (t :: visited) (made ++ made') u := by
  have wants {t' : TaskSpec} (mem : t' ∈ visited) : m.wants here t' = n.wants here t' := by
    refine wants_congr first.roster ?_
    have none : made.filter (·.2.record.task = t'.name) = [] := by
      refine List.filter_eq_nil_iff.2 fun e new same => other ?_
      obtain ⟨t'', one, task, -⟩ := first.wanted e new
      rw [List.mem_singleton.1 one] at task
      exact List.mem_map.2 ⟨t', mem, (task.trans (of_decide_eq_true same)).symm⟩
    rw [first.grown.count, none, List.length_nil, Nat.zero_add]
  refine ⟨first.grown.trans rest.grown, rest.roster.trans first.roster,
    rest.replica.trans first.replica, ?_, fun e new => ?_, fun e new => ?_, fun t' mem wanted => ?_⟩
  · rw [List.map_append]
    exact first.tasks.append rest.tasks
  · obtain new | new := List.mem_append.1 new
    · obtain ⟨t', one, task, wanted⟩ := first.wanted e new
      exact ⟨t', List.mem_cons.2 (.inl (List.mem_singleton.1 one)), task, wanted⟩
    · obtain ⟨t', mem, task, wanted⟩ := rest.wanted e new
      exact ⟨t', List.mem_cons_of_mem t mem, task, wants mem ▸ wanted⟩
  · obtain new | new := List.mem_append.1 new
    · exact first.begun e new
    · obtain ⟨running, prepared⟩ := rest.begun e new
      rw [first.grown.cannotLaunch_iff] at running prepared
      exact ⟨running, prepared⟩
  · obtain rfl | mem := List.mem_cons.1 mem
    · obtain ⟨e, new, task⟩ | refused := first.complete t' (List.mem_singleton_self t') wanted
      · exact .inl ⟨e, List.mem_append_left _ new, task⟩
      · exact .inr (rest.grown.create_none refused)
    · obtain ⟨e, new, task⟩ | refused := rest.complete t' mem ((wants mem).trans wanted)
      · exact .inl ⟨e, List.mem_append_right _ new, task⟩
      · exact .inr refused

/-- Go on with one more task, and count if an instance has been started. -/
def scaleNext (here : NodeStatus) (groups : List GroupSpec) (x : ℕ × Node) (t : TaskSpec) :
    ℕ × Node :=
  (if (x.2.scale here groups t).1 then x.1 + 1 else x.1, (x.2.scale here groups t).2)

/-- **Instances of tasks of different names are made independently of each other**, if their ids are
new. -/
theorem foldl_scaled (visited : List TaskSpec) (different : (visited.map (·.name)).Nodup) (n : Node)
    (fresh : (drawnIn here groups n visited).Nodup)
    (unknown : ∀ id ∈ drawnIn here groups n visited, n.supervisor.owned.find? id = none)
    (count : ℕ) :
    ∃ made m, visited.foldl (scaleNext here groups) (count, n) = (count + running made, m) ∧
      Scaled here groups n visited made m ∧ made.map Prod.fst = drawnIn here groups n visited := by
  induction visited generalizing n count with
  | nil =>
    exact ⟨[], n, rfl, .of_nothing (.refl _) rfl rfl (List.forall_mem_nil _), rfl⟩
  | cons t visited ih =>
    rw [List.map_cons, List.nodup_cons] at different
    rw [drawnIn] at fresh unknown ⊢
    obtain ⟨made, first, drawn, counted⟩ := scale_scaled fun id new =>
      unknown id (List.mem_append_left _ new)
    obtain ⟨-, fresh', apart⟩ := List.nodup_append.1 fresh
    have unknown' : ∀ id ∈ drawnIn here groups (n.scale here groups t).2 visited,
        (n.scale here groups t).2.supervisor.owned.find? id = none := fun id later =>
      first.grown.find?_eq_none (unknown id (List.mem_append_right _ later)) fun new =>
        apart id (drawn ▸ new) id later rfl
    obtain ⟨made', m, went, rest, drawn'⟩ := ih different.2 _ fresh' unknown'
      (if (n.scale here groups t).1 then count + 1 else count)
    refine ⟨made ++ made', m, ?_, first.cons rest different.1, ?_⟩
    · rw [List.foldl_cons, scaleNext, went, running_append, counted]
      split <;> simp [Nat.add_assoc]
    · rw [List.map_append, drawn, drawn']

/-! ### Who is new -/

namespace Scaled

variable {visited : List TaskSpec} {made : List (Uuid × OwnedWorker)} {task : String}

/-- The workers that have been made are those that are new. -/
theorem gains_iff (h : Scaled here groups n visited made m)
    (fresh : ∀ id ∈ made.map Prod.fst, n.supervisor.owned.find? id = none) {id : Uuid}
    {w : OwnedWorker} : n.Gains m id w ↔ (id, w) ∈ made := by
  rw [Gains, h.grown.mem_iff]
  constructor
  · rintro ⟨new | old, unknown⟩
    · exact new
    · rw [unknown] at old
      cases old
  · intro new
    exact ⟨.inl new, fresh id (List.mem_map.2 ⟨_, new, rfl⟩)⟩

/-- One instance of a task at most has been made. -/
theorem length_filter_le_one (h : Scaled here groups n visited made m)
    (different : (visited.map (·.name)).Nodup) (task : String) :
    (made.filter (·.2.record.task = task)).length ≤ 1 := by
  have once := List.nodup_iff_count_le_one.1 (different.sublist h.tasks) task
  rwa [List.count, List.countP_map, List.countP_eq_length_filter] at once

/-- Of a task of which nothing was wanted there are as many instances as there were. -/
theorem count_eq (h : Scaled here groups n visited made m)
    (unwanted : ∀ t ∈ visited, t.name = task → n.wants here t = false) :
    m.supervisor.count task = n.supervisor.count task := by
  have none : made.filter (·.2.record.task = task) = [] := by
    refine List.filter_eq_nil_iff.2 fun e new same => ?_
    obtain ⟨t, mem, name, wanted⟩ := h.wanted e new
    rw [unwanted t mem (name.trans (of_decide_eq_true same))] at wanted
    cases wanted
  rw [h.grown.count, none, List.length_nil, Nat.zero_add]

/-- There are not more instances of a task than there were, or than there are to be at least. -/
theorem count_le (h : Scaled here groups n visited made m)
    (different : (visited.map (·.name)).Nodup) (mem : t ∈ visited) :
    m.supervisor.count t.name ≤ max (n.supervisor.count t.name) t.minCount.toNat := by
  cases wanted : n.wants here t with
  | false =>
    refine le_max_of_le_left (h.count_eq fun t' mem' same => ?_).le
    rw [List.inj_on_of_nodup_map different mem' mem same, wanted]
  | true =>
    have few : n.supervisor.count t.name < t.minCount.toNat := by
      rw [wants, Bool.and_eq_true, Bool.and_eq_true, decide_eq_true_iff] at wanted
      exact wanted.1.2
    have once := h.length_filter_le_one different t.name
    rw [h.grown.count]
    omega

/-- There are as many new workers that run as running workers have been made. -/
theorem length_filter_entries (h : Scaled here groups n visited made m)
    (fresh : ∀ id ∈ made.map Prod.fst, n.supervisor.owned.find? id = none) :
    (m.supervisor.owned.entries.filter fun e =>
      (n.supervisor.owned.find? e.1).isNone && e.2.record.isRunning).length = running made := by
  have new : (made.filter fun e =>
      (n.supervisor.owned.find? e.1).isNone && e.2.record.isRunning) =
      made.filter (·.2.record.isRunning) := by
    refine List.filter_congr fun e mem => ?_
    rw [fresh e.1 (List.mem_map.2 ⟨e, mem, rfl⟩)]
    rfl
  have old : (n.supervisor.owned.entries.filter fun e =>
      (n.supervisor.owned.find? e.1).isNone && e.2.record.isRunning) = [] := by
    refine List.filter_eq_nil_iff.2 fun e mem => ?_
    rw [SortedMap.mem_entries.1 mem]
    exact Bool.false_ne_true
  rw [(h.grown.owned.filter _).length_eq, List.filter_append, new, old, List.append_nil, running]

end Scaled

/-! ### The whole call -/

/-- Every task stands under its name at all times. -/
theorem Reachable.keyed_tasks (h : Reachable c n) : n.replica.tasks.KeyedBy (·.name) := by
  refine h.ind (motive := fun n => n.replica.tasks.KeyedBy (·.name))
    (fun n store probe host new => ?_) fun n t hn turn => ?_
  · unfold Node.new at new
    obtain ⟨replica, opened, new⟩ := Json.bind_eq_ok new
    obtain rfl := Except.ok.inj new
    exact Replica.keyed_tasks_open opened
  · cases turn with
    | change c => exact Replica.keyed_tasks_change hn c
    | apply m => exact Replica.keyed_tasks_apply hn m
    | _ => exact hn

theorem autoscale_eq (current : n.roster.current = some here) :
    n.autoscale = n.replica.tasks.values.foldl (scaleNext here n.replica.groups.values) (0, n) := by
  rw [autoscale, current]
  rfl

/-- **Instances are started unasked within bounds, and nothing is lost.** Whatever has happened to a
node, and whichever launches fail, if it starts instances of its tasks under ids that nobody has, it
makes one at most of every task, and only of those of which one is wanted. Of no task are there more
instances then than before, unless they are as many as there are to be at least. A new instance runs
if it could be launched and is prepared otherwise; those that run are counted. Every other worker is
as it was. -/
theorem autoscale_bounded (h : Reachable c n) (fresh : n.drawn.Nodup)
    (unknown : ∀ id ∈ n.drawn, n.supervisor.record? id = none) :
    ∃ here, n.roster.current = some here ∧ n.Autoscaled here n.autoscale.1 n.autoscale.2 := by
  obtain ⟨here, current, -⟩ := h.sound_roster.current
  refine ⟨here, current, ?_⟩
  have keyed : n.replica.tasks.KeyedBy (·.name) := h.keyed_tasks
  have different : (n.replica.tasks.values.map (·.name)).Nodup := keyed.nodup_values
  have drawn : n.drawn = drawnIn here n.replica.groups.values n n.replica.tasks.values := by
    rw [Node.drawn, current]
  obtain ⟨made, m, went, scaled, ids⟩ := foldl_scaled n.replica.tasks.values different n
    (drawn ▸ fresh) (fun id new => Supervisor.find?_owned_eq_none (unknown id (drawn ▸ new))) 0
  rw [drawn, ← ids] at unknown
  have unowned : ∀ id ∈ made.map Prod.fst, n.supervisor.owned.find? id = none := fun id new =>
    Supervisor.find?_owned_eq_none (unknown id new)
  rw [autoscale_eq current, went, Nat.zero_add]
  have within : m.supervisor.WithinBudget := by
    have after := (h.make .autoscale).withinBudget
    rwa [show n.make .autoscale = n.autoscale.2 from rfl, autoscale_eq current, went] at after
  have gains {id : Uuid} {w : OwnedWorker} : n.Gains m id w ↔ (id, w) ∈ made :=
    scaled.gains_iff unowned
  exact {
    replica := scaled.replica
    roster := scaled.roster
    remote := scaled.grown.remote
    owned := fun id w found => scaled.grown.mem_iff.2 (.inr found)
    known := fun id r known => scaled.grown.record? unknown known
    wanted := fun id w new => by
      obtain ⟨t, mem, name, wanted⟩ := scaled.wanted _ (gains.1 new)
      exact ⟨t, name ▸ keyed.mem_values.1 mem, (wants_iff h current).1 wanted⟩
    single := fun id v id' w one other same => congrArg Prod.fst <|
      List.inj_on_of_nodup_map (different.sublist scaled.tasks) (gains.1 one) (gains.1 other) same
    begun := fun id w new => scaled.begun _ (gains.1 new)
    bounded := fun task t found => by
      obtain rfl : t.name = task := keyed task t found
      exact scaled.count_le different (keyed.mem_values.2 found)
    others := fun task missing => scaled.count_eq fun t mem name => by
      rw [← name, keyed.mem_values.1 mem] at missing
      cases missing
    complete := fun task t found wanted => by
      obtain rfl : t.name = task := keyed task t found
      obtain ⟨e, new, same⟩ | refused :=
        scaled.complete t (keyed.mem_values.2 found) ((wants_iff h current).2 wanted)
      · exact .inl ⟨e.1, e.2, gains.2 new, same⟩
      · refine .inr fun can => ?_
        obtain ⟨accepted, room, port, free⟩ := (Supervisor.canCreate_iff within).1 can
        rw [Supervisor.create_of_room accepted room free] at refused
        cases refused
    number := (scaled.length_filter_entries unowned).symm }

/-! ### A crowded node -/

/-- A task of small instances, of which there are to be two. -/
def pairOf (name : String) (nodes : List NodeId) : TaskSpec :=
  { taskOn name nodes with
    minCount := 2
    program := { Supervisor.lobbyPlan.program with memory := 160 } }

/-- A host on which no worker can be launched that keeps its files. -/
def blockedHost : Host := { files := { files := [(["temp", "services", "static"], "")] } }

/-- A half busy node on such a host, before anything has happened. -/
def idleShort : Node :=
  (Node.new spreadConfig {} { last := { cpuUsage := .ofNat 50 } } blockedHost).toOption.getD default

/-- Half of the memory is promised, a peer has less to do, and tasks are added: the peer suits the
first one better, instances of the second one keep their files, the third one is in maintenance, and
the command of the fourth one is missing. -/
def shortening : List Move := [
  .errand (.handle (.create Supervisor.lobbyPlan)),
  .publishStatus,
  .errand (.notice (.peerConnected "node-2")),
  .errand (.hear "node-2" (.status (Placement.oneWorker "node-2" 2048 20))),
  .errand (.handle (.addTask (pairOf "Lobby" []))),
  .errand (.handle (.addTask { pairOf "Archive" ["node-1"] with keepsFiles := true })),
  .errand (.handle (.addTask { pairOf "Attic" ["node-1"] with maintenance := true })),
  .happen (.failSome fun what => what.command = "crusher"),
  .errand (.handle (.addTask
    { pairOf "Quarry" ["node-1"] with program := ⟨"crusher", [], 160, .empty⟩ })),
  .errand (.handle (.addTask (pairOf "Vault" ["node-1"]))),
  .errand (.handle (.addTask (pairOf "Yard" ["node-1"])))]

/-- The node after that. -/
def short : Node := idleShort.run shortening

theorem reachable_short : Reachable spreadConfig short :=
  Reachable.run (.start {} { last := { cpuUsage := .ofNat 50 } } blockedHost rfl) shortening

/-- Of four tasks of which an instance is wanted one gets an instance that has no directory, one
gets an instance whose launch fails, one gets an instance that runs, and for the last one no memory
is left. -/
theorem short_autoscaled : Reachable spreadConfig short ∧
    short.drawn.Nodup ∧ (∀ id ∈ short.drawn, short.supervisor.record? id = none) ∧
    short.autoscale.1 = 1 ∧
    short.autoscale.2.supervisor.owned.values.map (fun w => (w.record.task, w.record.lifecycle)) =
      [("Lobby", .prepared), ("Archive", .prepared), ("Quarry", .prepared), ("Vault", .running)] ∧
    ∃ here, short.roster.current = some here ∧
      short.Autoscaled here short.autoscale.1 short.autoscale.2 := by
  have fresh : short.drawn.Nodup ∧
      ∀ id ∈ short.drawn, short.supervisor.record? id = none := by
    decide +kernel
  have outcome : short.autoscale.1 = 1 ∧
      short.autoscale.2.supervisor.owned.values.map
        (fun w => (w.record.task, w.record.lifecycle)) =
      [("Lobby", .prepared), ("Archive", .prepared), ("Quarry", .prepared),
        ("Vault", .running)] := by
    decide +kernel
  exact ⟨reachable_short, fresh.1, fresh.2, outcome.1, outcome.2,
    autoscale_bounded reachable_short fresh.1 fresh.2⟩

end Node

end WorkerCluster
