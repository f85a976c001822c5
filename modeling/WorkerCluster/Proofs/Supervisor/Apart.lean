import WorkerCluster.Proofs.Host.Files
import WorkerCluster.Proofs.Supervisor.Creation
import WorkerCluster.Proofs.Uuid

/-!
# Workers that keep apart

No two workers of a node get into each other's way.

* `WorkerId.placed` is where a worker has its directory. `not_placed_prefix` says that no other one
  has its own there, or anywhere in it.
* `OwnedWorker.Placed` says in which directory a worker is, and `OwnedWorker.Apart` what two workers
  do not share. `Supervisor.Distinct` is what has to be kept for that: ports and names.
* `LifeTurn.carries` says that whoever is there after a turn was there before it, with the same port
  and the same name; so new workers are all there is to look at.
* `apart_of_numbered` is the main statement, with what follows for the files when a worker is
  deleted.
-/

namespace WorkerCluster

/-! ### Names of directories -/

namespace WorkerId

/-- The name that no other worker ever has: task, number and id. -/
def fullName (w : WorkerId) : String := w.name ++ "-" ++ w.uuid.compact

/-- Where a worker has its directory, from that of all workers. -/
def placed (w : WorkerId) (keepsFiles : Bool) : Path :=
  if keepsFiles then ["static", w.name] else [w.fullName]

variable {v w : WorkerId}

theorem toList_fullName (w : WorkerId) :
    w.fullName.toList = w.name.toList ++ '-' :: w.uuid.compact.toList := by
  rw [fullName, String.toList_append, String.toList_append, List.append_assoc]
  rfl

theorem name_eq_of_fullName_eq (same : v.fullName = w.fullName) : v.name = w.name := by
  have hyphen (u : Uuid) : '-' ∉ u.compact.toList := fun h => by
    cases Uuid.isAlphanum_of_mem_compact h
  have split := congrArg String.toList same
  rw [toList_fullName, toList_fullName] at split
  exact String.toList_inj.1 (append_hyphen_inj (hyphen _) (hyphen _) split).1

/-- A text with a hyphen and else with characters of names may name a directory. -/
theorem isEntry_of_chars {name : String} (hyphen : '-' ∈ name.toList)
    (chars : ∀ c ∈ name.toList, isNameChar c = true) : Path.IsEntry name where
  nonempty := by rintro rfl; simp at hyphen
  here := by rintro rfl; simp at hyphen
  above := by rintro rfl; simp at hyphen
  single slash := by cases chars _ slash

theorem isEntry_name (task : IsName w.task) : Path.IsEntry w.name :=
  isEntry_of_chars (hyphen_mem_name w) fun _ => isNameChar_of_mem_name task

theorem isEntry_fullName (task : IsName w.task) : Path.IsEntry w.fullName := by
  refine isEntry_of_chars ?_ fun c h => ?_ <;> rw [toList_fullName] at *
  · exact List.mem_append_right _ (List.mem_cons_self ..)
  · rw [List.mem_append, List.mem_cons] at h
    obtain h | rfl | h := h
    · exact isNameChar_of_mem_name task h
    · rfl
    · exact isNameChar_iff.2 (.inl (Uuid.isAlphanum_of_mem_compact h))

/-- The directory of the workers that keep their files is not that of a worker. -/
theorem fullName_ne_static (w : WorkerId) : w.fullName ≠ "static" := fun same => by
  have hyphen : '-' ∈ w.fullName.toList := by
    rw [toList_fullName]
    exact List.mem_append_right _ (List.mem_cons_self ..)
  rw [same] at hyphen
  simp at hyphen

/-- **Workers of different names have their directories beside each other**, whether they keep their
files or not. -/
theorem not_placed_prefix (names : v.name ≠ w.name) (keeps keeps' : Bool) :
    ¬ v.placed keeps <+: w.placed keeps' := by
  intro within
  cases keeps <;> cases keeps'
  · have same : v.fullName = w.fullName := by simpa [placed] using within
    exact names (name_eq_of_fullName_eq same)
  · have same : v.fullName = "static" := by simpa [placed] using within
    exact fullName_ne_static v same
  · simp [placed] at within
  · have same : v.name = w.name := by simpa [placed] using within
    exact names same

end WorkerId

namespace OwnedWorker

/-- The directory of a worker is named for it, and its task has a name. -/
structure Placed (settings : Settings) (w : OwnedWorker) : Prop where
  task : IsName w.record.task
  directory : w.directory = settings.directory ++ w.record.id.placed w.record.plan.keepsFiles

/-- What two workers of a node do not share. -/
structure Apart (v w : OwnedWorker) : Prop where
  port : v.record.address.port ≠ w.record.address.port
  number : v.record.task = w.record.task → v.record.id.number ≠ w.record.id.number
  name : v.record.name ≠ w.record.name
  directory : v.directory ≠ w.directory
  /-- Neither has its directory within that of the other. -/
  beside : v.directory.isWithin w.directory = false ∧ w.directory.isWithin v.directory = false

variable {settings : Settings} {v w : OwnedWorker}

/-- A worker has its directory beside those of others: in the directory for workers, or in the one
there of the workers that keep their files. -/
theorem Placed.entry (h : w.Placed settings) : ∃ name, Path.IsEntry name ∧
    w.directory = settings.directory ++
      if w.record.plan.keepsFiles then ["static", name] else [name] := by
  rw [h.directory]
  cases w.record.plan.keepsFiles with
  | true => exact ⟨_, WorkerId.isEntry_name h.task, rfl⟩
  | false => exact ⟨_, WorkerId.isEntry_fullName h.task, rfl⟩

/-- Of two workers that have different names neither is within the directory of the other. -/
theorem Placed.isWithin (hv : v.Placed settings) (hw : w.Placed settings)
    (names : v.record.name ≠ w.record.name) : v.directory.isWithin w.directory = false := by
  rw [hv.directory, hw.directory, Bool.eq_false_iff, ne_eq, Path.isWithin_iff,
    List.prefix_append_right_inj]
  exact WorkerId.not_placed_prefix names.symm _ _

/-- A worker that does not keep its files is not where those are that do, and they are not within
its directory. -/
theorem Placed.beside_static (h : w.Placed settings) (keeps : w.record.plan.keepsFiles = false) :
    w.directory.isWithin (settings.directory ++ ["static"]) = false ∧
      Path.isWithin (settings.directory ++ ["static"]) w.directory = false := by
  have other := WorkerId.fullName_ne_static w.record.id
  simp only [h.directory, keeps, WorkerId.placed, Bool.eq_false_iff, ne_eq, Path.isWithin_iff,
    List.prefix_append_right_inj]
  constructor <;> simp [other, other.symm]

end OwnedWorker

namespace Supervisor

variable {s t : Supervisor} {id : Uuid} {w : OwnedWorker}

/-! ### Where workers are -/

theorem kept_placed (node : NodeIdentity) (settings : Settings) :
    Kept node settings fun _ w => w.Placed settings where
  create _ _ same accepted := ⟨(accepts_iff.1 accepted).1, by rw [← same]; rfl⟩
  applyQueued h _ := ⟨h.task, h.directory⟩
  launched _ h _ := ⟨h.task, h.directory⟩
  ended l force h _ := by
    constructor
    · rw [ended_record]
      exact h.task
    · rw [ended_record, ended_directory]
      exact h.directory
  enqueue _ _ _ h := ⟨h.task, h.directory⟩
  connect _ h := ⟨h.task, h.directory⟩
  log _ h := ⟨h.task, h.directory⟩

/-! ### Ports and names -/

/-- No two workers of the node have the same port or the same name. -/
def Distinct (s : Supervisor) : Prop :=
  ∀ i v j w, s.owned.find? i = some v → s.owned.find? j = some w → i ≠ j →
    v.record.address.port ≠ w.record.address.port ∧ v.record.name ≠ w.record.name

/-- Whoever is there after a turn in the lives of the workers was there before it, with the same
identity and address. -/
theorem LifeTurn.carries (h : LifeTurn s t) :
    s.Carries (fun w => (w.record.id, w.record.address)) t := by
  obtain ⟨turn, ids⟩ := h
  cases turn with
  | create accepted room free => exact absurd ids (IdSupply.draw_ne _)
  | applyQueued found down => exact continues_of_edit found rfl rfl
  | files files => exact continues_of_owned_eq rfl
  | launch found down launched => exact continues_of_edit found rfl rfl
  | stop force found running =>
    exact continues_of_edit found rfl (by rw [OwnedWorker.Same, ended_record]; rfl)
  | delete found released => exact continues_of_erase rfl
  | write found process written => exact continues_of_owned_eq rfl
  | enqueue t i d found => exact continues_of_edit found rfl rfl
  | connect found changes => exact continues_of_edit found rfl rfl
  | flush found process => exact continues_of_edit found rfl rfl
  | happen event => exact continues_of_owned_eq (by cases event <;> rfl)

theorem Distinct.carries (h : s.Distinct)
    (carries : s.Carries (fun w => (w.record.id, w.record.address)) t) : t.Distinct := by
  intro i v j w foundV foundW ne
  obtain ⟨v', beforeV, sameV⟩ := carries i v foundV
  obtain ⟨w', beforeW, sameW⟩ := carries j w foundW
  obtain ⟨idV, addressV⟩ := Prod.mk.inj sameV
  obtain ⟨idW, addressW⟩ := Prod.mk.inj sameW
  rw [WorkerRecord.name, WorkerRecord.name, idV, idW, addressV, addressW]
  exact h i v' j w' beforeV beforeW ne

/-- A new worker gets a port and a name that nobody has. -/
theorem newWorker_distinct {plan : WorkerPlan} {port : UInt16} (uuid : Uuid)
    (few : s.records.length < UInt32.size - 1)
    (free : s.allocatePort (plan.port.getD s.settings.startPort) = some port)
    (found : s.owned.find? id = some w) :
    port ≠ w.record.address.port ∧ (s.newWorker plan uuid port).record.name ≠ w.record.name := by
  have mem : w.record ∈ s.ownedRecords :=
    List.mem_map_of_mem (SortedMap.mem_values.2 ⟨id, found⟩)
  constructor
  · rintro rfl
    exact (allocatePort_eq_some_iff.1 free).1.2.2 _ mem rfl
  · intro same
    obtain ⟨task, number⟩ := WorkerId.name_inj.1 same
    have unused := (isLeast_nextNumber few plan.task).1.2 w.record (List.mem_append_left _ mem)
    exact unused task.symm (congrArg UInt32.toNat number.symm)

theorem Distinct.create {plan : WorkerPlan} {port : UInt16} (h : s.Distinct)
    (few : s.records.length < UInt32.size - 1)
    (free : s.allocatePort (plan.port.getD s.settings.startPort) = some port) :
    (s.withNew plan port).Distinct := by
  have owned : (s.withNew plan port).owned =
    s.owned.insert s.host.ids.draw.1 (s.newWorker plan s.host.ids.draw.1 port) := rfl
  intro i v j w foundV foundW ne
  rw [owned, SortedMap.find?_insert] at foundV foundW
  split at foundV
  · cases foundV
    have other : j ≠ s.host.ids.draw.1 := by rintro rfl; exact ne ‹_›
    rw [if_neg other] at foundW
    exact newWorker_distinct _ few free foundW
  · split at foundW
    · cases foundW
      obtain ⟨ports, names⟩ := newWorker_distinct s.host.ids.draw.1 few free foundV
      exact ⟨ports.symm, names.symm⟩
    · exact h i v j w foundV foundW ne

/-- What happens at a moment leaves ports and names distinct, if fewer workers are known before it
than there are numbers. -/
theorem Distinct.pass (h : s.Distinct) (few : s.records.length < UInt32.size - 1) (m : Moment) :
    (s.pass m).Distinct := by
  obtain ⟨plan, port, -, -, -, free, -, after⟩ | ⟨-, life | hearings⟩ := pass_cases s m
  · rw [after]
    exact h.create few free
  · exact path_keeps (fun _ _ h turn => h.carries turn.carries) h life
  · exact h.carries hearings.continues

theorem Distinct.live (new : s.IsNew) (history : List Moment)
    (few : ∀ past, past <+: history → (s.live past).records.length < UInt32.size - 1) :
    (s.live history).Distinct := by
  induction history using List.reverseRecOn with
  | nil =>
    intro i v j w found
    have empty : s.owned.find? i = some v := found
    rw [new.owned] at empty
    cases empty
  | append_singleton past m ih =>
    rw [live_concat]
    have before := ih fun p h => few p (h.trans (List.prefix_append past [m]))
    exact before.pass (few past (List.prefix_append past [m])) m

/-! ### Files of others -/

theorem filesWithout_sameAt {p : Path}
    (outside : w.record.plan.keepsFiles = false → p.isWithin w.directory = false) :
    s.host.files.SameAt (s.filesWithout w) p := by
  unfold filesWithout
  split
  · next removed =>
    rw [Bool.and_eq_true, Bool.not_eq_true'] at removed
    exact FileTree.sameAt_removeDir _ (outside removed.1)
  · exact .refl _ p

/-- Deleting a worker removes what it leaves, and nothing else. -/
theorem delete_files (s : Supervisor) (id : Uuid) : (s.delete id).2.host.files = s.host.files ∨
    ∃ w, s.owned.find? id = some w ∧ (s.delete id).2.host.files = s.filesWithout w := by
  obtain same | ⟨w, launcher, found, -, after⟩ := delete_cases s id
  · exact .inl (by rw [same])
  · exact .inr ⟨w, found, by rw [after]; rfl⟩

/-- So does stopping it, if it is deleted then. -/
theorem halt_files (s : Supervisor) (force deleting : Bool) (id : Uuid) :
    (s.halt force deleting id).2.host.files = s.host.files ∨
    ∃ w, s.owned.find? id = some w ∧
      (s.halt force deleting id).2.host.files = s.filesWithout w := by
  obtain same | ⟨w, found, -, after⟩ := halt_cases s force deleting id
  · exact .inl (by rw [same])
  · split at after
    · exact .inr ⟨w, found, by rw [after]; rfl⟩
    · exact .inl (by rw [after]; rfl)

/-- What belongs to other workers than a given one, and what workers keep. -/
def IsOthers (s : Supervisor) (id : Uuid) (p : Path) : Prop :=
  p.isWithin (s.settings.directory ++ ["static"]) = true ∨
    ∃ j w, j ≠ id ∧ s.owned.find? j = some w ∧ p.isWithin w.directory = true

/-- **Workers of a node do not get into each other's way**, if fewer workers are ever known than
there are numbers. Two of them share neither port nor name nor directory; every directory is one
beside the others; and when a worker is deleted, be it on a stop, nothing changes where others have
their files or where files are kept. -/
theorem apart_of_numbered (new : s.IsNew) (history : List Moment)
    (few : ∀ past, past <+: history → (s.live past).records.length < UInt32.size - 1) :
    let t := s.live history
    (∀ i v j w, t.owned.find? i = some v → t.owned.find? j = some w → i ≠ j → v.Apart w) ∧
      (∀ i w, t.owned.find? i = some w → ∃ name, Path.IsEntry name ∧
        w.directory = s.settings.directory ++
          if w.record.plan.keepsFiles then ["static", name] else [name]) ∧
      ∀ i p, t.IsOthers i p → ∀ u ∈ [(t.delete i).2, (t.stop i).2, (t.kill i).2],
        t.host.files.SameAt u.host.files p := by
  intro t
  have reachable : Reachable s.node s.settings t := new.reachable.live history
  have placed : AllOwned (fun _ w => w.Placed s.settings) t := reachable.kept (kept_placed _ _)
  have distinct : t.Distinct := .live new history few
  have beside {i j : Uuid} {v w : OwnedWorker} (hv : t.owned.find? i = some v)
      (hw : t.owned.find? j = some w) (ne : i ≠ j) : v.directory.isWithin w.directory = false :=
    (placed i v hv).isWithin (placed j w hw) (distinct i v j w hv hw ne).2
  refine ⟨fun i v j w hv hw ne => ?_, fun i w found => (placed i w found).entry, ?_⟩
  · obtain ⟨ports, names⟩ := distinct i v j w hv hw ne
    refine ⟨ports, fun task number => ?_, names, fun same => ?_, beside hv hw ne,
      beside hw hv ne.symm⟩
    · exact names (WorkerId.name_inj.2 ⟨task, number⟩)
    · have within := beside hv hw ne
      rw [same, Bool.eq_false_iff] at within
      exact within (Path.isWithin_iff.2 List.prefix_rfl)
  · intro i p others u removed
    -- whatever is removed is removed with the directory of the worker
    have files : u.host.files = t.host.files ∨
        ∃ w, t.owned.find? i = some w ∧ u.host.files = t.filesWithout w := by
      simp only [List.mem_cons, List.not_mem_nil, or_false] at removed
      obtain rfl | rfl | rfl := removed
      · exact delete_files t i
      · exact halt_files t false true i
      · exact halt_files t true true i
    obtain same | ⟨w, found, left⟩ := files
    · rw [same]
      exact .refl _ p
    · rw [left]
      refine filesWithout_sameAt fun keeps => Bool.eq_false_iff.2 fun within => ?_
      obtain static | ⟨j, v, ne, foundV, other⟩ := others
      · rw [reachable.settings_eq] at static
        have apart := (placed i w found).beside_static keeps
        obtain h | h := Path.isWithin_or_isWithin within static
        · rw [apart.2] at h; cases h
        · rw [apart.1] at h; cases h
      · obtain h | h := Path.isWithin_or_isWithin within other
        · rw [beside foundV found ne] at h; cases h
        · rw [beside found foundV ne.symm] at h; cases h

/-- A worker that keeps its files is made, then one that does not, which is deleted again, and two
more. -/
def neighbours : List Moment := [
  .perform (.create { lobbyPlan with keepsFiles := true }),
  .perform (.create { lobbyPlan with task := "Lobby-1" }),
  .perform (.create lobbyPlan),
  .perform (.delete (Uuid.ofNat 2).random),
  .perform (.create lobbyPlan),
  .perform (.create { lobbyPlan with task := "Lobby-1" })]

/-- Port and number of the worker that is gone are used again, and all keep apart. -/
theorem apart_neighbours :
    ((∀ past, past <+: neighbours →
        (lobbyEmpty.live past).records.length < UInt32.size - 1) ∧
      (lobbyEmpty.live neighbours).ownedRecords.map (fun w => (w.task, w.id.number, w.address.port))
        = [("Lobby", 1, 30000), ("Lobby", 2, 30002), ("Lobby", 3, 30001), ("Lobby-1", 1, 30003)]) ∧
      (let t := lobbyEmpty.live neighbours
      (∀ i v j w, t.owned.find? i = some v → t.owned.find? j = some w → i ≠ j → v.Apart w) ∧
      (∀ i w, t.owned.find? i = some w → ∃ name, Path.IsEntry name ∧
        w.directory = ["services"] ++
          if w.record.plan.keepsFiles then ["static", name] else [name]) ∧
      ∀ i p, t.IsOthers i p → ∀ u ∈ [(t.delete i).2, (t.stop i).2, (t.kill i).2],
        t.host.files.SameAt u.host.files p) := by
  have few : ∀ past, past <+: neighbours →
      (lobbyEmpty.live past).records.length < UInt32.size - 1 := by
    have all : ∀ past ∈ neighbours.inits,
        (lobbyEmpty.live past).records.length < UInt32.size - 1 := by decide +kernel
    exact fun past start => all past ((List.mem_inits past neighbours).2 start)
  exact ⟨⟨few, by decide +kernel⟩, apart_of_numbered isNew_lobbyEmpty neighbours few⟩

end Supervisor

end WorkerCluster
