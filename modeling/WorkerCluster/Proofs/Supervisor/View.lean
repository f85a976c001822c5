import WorkerCluster.Proofs.Supervisor.Sound

/-!
# What is told of workers

* `WorkerFace` is what others are told of a worker, its plan apart; `Faces` are those of many.
* `Supervisor.ownFaces` are those of the workers of a node, `Supervisor.facesOf` those that it
  remembers of another node.
* `Turn.told` is the step and `Turns.told` the run: whatever a node does, those who take in all that
  it tells, in order, see its workers as they are.
-/

namespace WorkerCluster

/-- What others are told of a worker, its plan apart. -/
structure WorkerFace where
  created : UInt64
  id : WorkerId
  address : Address
  connected : Bool
  lifecycle : Lifecycle
  process : ProcessUsage
  properties : Properties

/-- The face of a worker. -/
def WorkerRecord.face (w : WorkerRecord) : WorkerFace where
  created := w.created
  id := w.id
  address := w.address
  connected := w.connected
  lifecycle := w.lifecycle
  process := w.process
  properties := w.properties

/-- The faces of workers by their ids. -/
abbrev Faces := SortedMap Uuid WorkerFace

/-- Take in what is told of a worker. A deleted one is forgotten. -/
def Faces.take (f : Faces) (w : WorkerRecord) : Faces :=
  if w.lifecycle = .deleted then f.erase w.uuid else f.insert w.uuid w.face

/-- Take in all that is told, in order. -/
def Faces.takeAll (f : Faces) (l : List WorkerRecord) : Faces := l.foldl take f

namespace Faces

@[simp] theorem takeAll_nil (f : Faces) : f.takeAll [] = f := rfl

theorem takeAll_cons (f : Faces) (w : WorkerRecord) (l : List WorkerRecord) :
    f.takeAll (w :: l) = (f.take w).takeAll l := rfl

theorem takeAll_append (f : Faces) (k l : List WorkerRecord) :
    f.takeAll (k ++ l) = (f.takeAll k).takeAll l := List.foldl_append

theorem take_present (f : Faces) {w : WorkerRecord} (h : w.lifecycle ≠ .deleted) :
    f.take w = f.insert w.uuid w.face := if_neg h

theorem take_deleted (f : Faces) {w : WorkerRecord} (h : w.lifecycle = .deleted) :
    f.take w = f.erase w.uuid := if_pos h

theorem find?_take_of_ne (f : Faces) {w : WorkerRecord} {id : Uuid} (h : id ≠ w.uuid) :
    (f.take w).find? id = f.find? id := by
  unfold take
  split <;> simp [h]

end Faces

namespace WorkerRecord

/-- The last record of a worker in a list. -/
def latest (id : Uuid) (l : List WorkerRecord) : Option WorkerRecord :=
  (l.filter (·.uuid = id)).getLast?

/-- What is left of a worker when this has been told: nothing if it has been deleted. -/
def left (w : WorkerRecord) : Option WorkerFace :=
  if w.lifecycle = .deleted then none else some w.face

/-- What is left of a worker when all in a list has been told, the last of which counts. -/
def leftAfter (id : Uuid) (l : List WorkerRecord) (before : Option WorkerFace) :
    Option WorkerFace :=
  match latest id l with
  | some w => w.left
  | none => before

theorem leftAfter_some {id : Uuid} {l : List WorkerRecord} {w : WorkerRecord}
    (h : latest id l = some w) (before : Option WorkerFace) : leftAfter id l before = w.left := by
  rw [leftAfter, h]

theorem leftAfter_none {id : Uuid} {l : List WorkerRecord} (h : latest id l = none)
    (before : Option WorkerFace) : leftAfter id l before = before := by
  rw [leftAfter, h]

theorem latest_append_self (l : List WorkerRecord) (w : WorkerRecord) :
    latest w.uuid (l ++ [w]) = some w := by
  rw [latest, List.filter_append, List.filter_cons_of_pos (by simp), List.filter_nil,
    List.getLast?_concat]

theorem latest_append_of_ne (l : List WorkerRecord) {w : WorkerRecord} {id : Uuid}
    (h : w.uuid ≠ id) : latest id (l ++ [w]) = latest id l := by
  rw [latest, List.filter_append, List.filter_cons_of_neg (by simpa using h), List.filter_nil,
    List.append_nil, latest]

theorem mem_of_latest {id : Uuid} {l : List WorkerRecord} {w : WorkerRecord}
    (h : latest id l = some w) : w ∈ l ∧ w.uuid = id := by
  simpa using List.mem_filter.1 (List.mem_of_getLast? h)

theorem latest_eq_none {id : Uuid} {l : List WorkerRecord} :
    latest id l = none ↔ ∀ w ∈ l, w.uuid ≠ id := by
  rw [latest, List.getLast?_eq_none_iff, List.filter_eq_nil_iff]
  simp

theorem left_lifecycle {v w : WorkerRecord} :
    v.left.map (·.lifecycle) = w.left.map (·.lifecycle) ↔ v.lifecycle = w.lifecycle := by
  have hv : v.face.lifecycle = v.lifecycle := rfl
  have hw : w.face.lifecycle = w.lifecycle := rfl
  unfold left
  split <;> split <;> rename_i h h' <;> simp_all [eq_comm]

end WorkerRecord

/-- The last that is told of a worker is what is remembered of it. -/
theorem Faces.find?_takeAll (f : Faces) (l : List WorkerRecord) (id : Uuid) :
    (f.takeAll l).find? id = WorkerRecord.leftAfter id l (f.find? id) := by
  -- from the end, since it is the last that counts
  induction l using List.reverseRecOn with
  | nil => rfl
  | append_singleton l w ih =>
    rw [takeAll_append, takeAll_cons, takeAll_nil]
    by_cases h : w.uuid = id
    · subst h
      rw [WorkerRecord.leftAfter_some (WorkerRecord.latest_append_self l w)]
      unfold take WorkerRecord.left
      split <;> simp
    · rw [find?_take_of_ne _ (Ne.symm h), ih, WorkerRecord.leftAfter, WorkerRecord.leftAfter,
        WorkerRecord.latest_append_of_ne l h]

theorem Faces.find?_takeAll_of_ne (f : Faces) {l : List WorkerRecord} {id : Uuid}
    (h : ∀ w ∈ l, w.uuid ≠ id) : (f.takeAll l).find? id = f.find? id := by
  rw [find?_takeAll, WorkerRecord.leftAfter_none (WorkerRecord.latest_eq_none.2 h)]

namespace Supervisor

/-- The faces of the workers of the node. -/
def ownFaces (s : Supervisor) : Faces := s.owned.map fun _ w => w.record.face

/-- The faces that are remembered of the workers of another node. -/
def facesOf (s : Supervisor) (node : NodeId) : Faces :=
  (s.remote.filter fun _ w => w.owner = node).map fun _ w => w.face

variable {s t : Supervisor} {id : Uuid}

/-! ### Changes of faces -/

theorem ownFaces_insert {w : OwnedWorker} (ht : t.owned = s.owned.insert id w) :
    t.ownFaces = s.ownFaces.insert id w.record.face := by
  rw [ownFaces, ht, SortedMap.map_insert]
  rfl

/-- A worker may change in what nobody is told. -/
theorem ownFaces_insert_of_face {v w : OwnedWorker} (found : s.owned.find? id = some w)
    (ht : t.owned = s.owned.insert id v) (face : v.record.face = w.record.face) :
    t.ownFaces = s.ownFaces := by
  rw [ownFaces_insert ht, face]
  refine SortedMap.insert_eq_self ?_
  rw [ownFaces, SortedMap.find?_map, found]
  rfl

theorem ownFaces_erase (ht : t.owned = s.owned.erase id) :
    t.ownFaces = s.ownFaces.erase id := by
  rw [ownFaces, ht, SortedMap.map_erase]
  rfl

/-! ### Telling -/

/-- What is told by a node of which all listeners have hosts. -/
structure Told (node : NodeId) (w : WorkerRecord) : Prop where
  /-- The worker is one of the node. -/
  owner : w.owner = node
  /-- Its address has a host. -/
  host : w.address.host ≠ ""
  /-- Nothing is said about the use of the processor. -/
  usage : w.process.cpuUsage = .zero

/-- Every worker fits together and has an address with a host. -/
def Healthy (s : Supervisor) : Prop :=
  AllOwned (fun id w => w.Sound s.node.id id ∧ w.record.address.host ≠ "") s

theorem advertisedHost_ne (hosts : ∀ a ∈ s.node.listeners, a.host ≠ "") :
    s.advertisedHost ≠ "" := by
  unfold advertisedHost
  split
  · rename_i a rest h
    split
    · decide
    · exact hosts a (by rw [h]; exact List.mem_cons_self ..)
  · decide

theorem kept_healthy (node : NodeIdentity) (settings : Settings)
    (hosts : ∀ a ∈ node.listeners, a.host ≠ "") :
    Kept node settings fun id w => w.Sound node.id id ∧ w.record.address.host ≠ "" where
  create {s plan port} uuid hn hs accepted := by
    refine ⟨(kept_sound node settings).create uuid hn hs accepted, ?_⟩
    subst hn
    exact advertisedHost_ne hosts
  applyQueued h down := ⟨(kept_sound node settings).applyQueued h.1 down, h.2⟩
  launched pid h down := ⟨(kept_sound node settings).launched pid h.1 down, h.2⟩
  ended {id w} l force h running := by
    refine ⟨(kept_sound node settings).ended l force h.1 running, ?_⟩
    rw [ended_record]
    exact h.2
  enqueue t i d h := ⟨(kept_sound node settings).enqueue t i d h.1, h.2⟩
  connect connected h := ⟨(kept_sound node settings).connect connected h.1, h.2⟩
  log logs h := ⟨(kept_sound node settings).log logs h.1, h.2⟩

theorem Turn.healthy (hosts : ∀ a ∈ s.node.listeners, a.host ≠ "") (hs : s.Healthy)
    (h : Turn s t) : t.Healthy := by
  have := h.kept (kept_healthy s.node s.settings hosts) hs
  unfold Healthy
  rw [h.node_eq]
  exact this

theorem Turns.healthy (hosts : ∀ a ∈ s.node.listeners, a.host ≠ "") (hs : s.Healthy)
    (path : Turns s t) : t.Healthy := by
  refine (path_keeps (P := fun t => t.node = s.node ∧ t.Healthy) ?_ ⟨rfl, hs⟩ path).2
  rintro t u ⟨node, ht⟩ turn
  exact ⟨turn.node_eq.trans node, turn.healthy (by rw [node]; exact hosts) ht⟩

theorem Hearing.healthy (hs : s.Healthy) (h : Hearing s t) : t.Healthy := by
  unfold Healthy
  rw [h.node_eq]
  exact hs.congr h.owned_eq

theorem Reachable.healthy {node : NodeIdentity} {settings : Settings}
    (hosts : ∀ a ∈ node.listeners, a.host ≠ "") (h : Reachable node settings s) : s.Healthy := by
  have := h.kept (kept_healthy node settings hosts)
  unfold Healthy
  rw [h.node_eq]
  exact this

/-- What a turn tells: all that others have to take in to see the workers as they are after it. -/
structure Telling (s t : Supervisor) (l : List WorkerRecord) : Prop where
  outbox : t.outbox = s.outbox ++ l
  faces : s.ownFaces.takeAll l = t.ownFaces
  told : ∀ w ∈ l, Told s.node.id w

theorem Telling.silent (outbox : t.outbox = s.outbox) (faces : t.ownFaces = s.ownFaces) :
    Telling s t [] where
  outbox := by rw [outbox, List.append_nil]
  faces := faces.symm
  told := fun _ h => nomatch h

theorem Telling.one {r : WorkerRecord} (outbox : t.outbox = s.outbox ++ [r])
    (faces : s.ownFaces.take r = t.ownFaces) (told : Told s.node.id r) : Telling s t [r] where
  outbox := outbox
  faces := faces
  told := fun _ h => List.mem_singleton.1 h ▸ told

theorem Telling.trans {u : Supervisor} {k l : List WorkerRecord} (hst : Telling s t k)
    (htu : Telling t u l) (node : t.node = s.node) : Telling s u (k ++ l) where
  outbox := by rw [htu.outbox, hst.outbox, List.append_assoc]
  faces := by rw [Faces.takeAll_append, hst.faces, htu.faces]
  told := fun w h => (List.mem_append.1 h).elim (hst.told w) fun h => node ▸ htu.told w h

/-- A worker that is still there after a change of which everybody is told. -/
theorem Telling.insert {w : OwnedWorker} (outbox : t.outbox = s.outbox ++ [w.record])
    (owned : t.owned = s.owned.insert id w)
    (sound : w.Sound s.node.id id ∧ w.record.address.host ≠ "") : Telling s t [w.record] := by
  refine .one outbox ?_ ⟨sound.1.owner, sound.2, ?_⟩
  · rw [Faces.take_present _ sound.1.present, sound.1.uuid, ownFaces_insert owned]
  · rw [sound.1.usage]

/-- **Every turn tells all that it changes**, and nothing before it has happened. -/
theorem Turn.telling (hosts : ∀ a ∈ s.node.listeners, a.host ≠ "") (hs : s.Healthy)
    (h : Turn s t) : ∃ l, Telling s t l := by
  have kept := kept_healthy s.node s.settings hosts
  cases h with
  | create accepted room free =>
    exact ⟨_, .insert rfl rfl (kept.create _ rfl rfl accepted)⟩
  | applyQueued found down =>
    exact ⟨_, .silent rfl (ownFaces_insert_of_face found rfl rfl)⟩
  | files files => exact ⟨_, .silent rfl rfl⟩
  | launch found down launched => exact ⟨_, .insert rfl rfl (kept.launched _ (hs _ _ found) down)⟩
  | stop force found running =>
    exact ⟨_, .insert rfl rfl (kept.ended _ _ (hs _ _ found) running)⟩
  | @delete id w launcher found released =>
    obtain ⟨sound, host⟩ := hs _ _ found
    -- what is told of a deleted worker takes it away on either side
    refine ⟨[w.record.down .deleted], .one rfl ?_ ⟨sound.owner, host, rfl⟩⟩
    rw [Faces.take_deleted _ rfl]
    exact (congrArg s.ownFaces.erase sound.uuid).trans (ownFaces_erase rfl).symm
  | write found process written => exact ⟨_, .silent rfl rfl⟩
  | enqueue templates inclusions deployments found =>
    exact ⟨_, .silent rfl (ownFaces_insert_of_face found rfl rfl)⟩
  | connect found changes => exact ⟨_, .insert rfl rfl (kept.connect _ (hs _ _ found))⟩
  | flush found process => exact ⟨_, .silent rfl (ownFaces_insert_of_face found rfl rfl)⟩
  | happen event => exact ⟨_, .silent (by cases event <;> rfl) (by cases event <;> rfl)⟩

theorem Hearing.telling (h : Hearing s t) : Telling s t [] := by
  refine .silent h.outbox_eq ?_
  rw [ownFaces, h.owned_eq]
  rfl

/-! ### Nothing is taken back -/

theorem Turn.outbox_grows (h : Turn s t) : s.outbox <+: t.outbox := by
  cases h with
  | create | launch | stop | delete | connect => exact List.prefix_append _ _
  | happen event => cases event <;> exact List.prefix_rfl
  | _ => exact List.prefix_rfl

theorem Turns.outbox_grows (h : Turns s t) : s.outbox <+: t.outbox :=
  path_lifts (R := fun s t => s.outbox <+: t.outbox) (fun _ => List.prefix_rfl)
    List.IsPrefix.trans (fun _ _ h => h.outbox_grows) h

theorem perform_outbox_grows (s : Supervisor) (step : Step) :
    s.outbox <+: (s.perform step).2.outbox := by
  by_cases own : step.IsOwn
  · exact (perform_turns s own).outbox_grows
  · rw [(perform_hearings s own).outbox_eq]

/-! ### Operations tell what they change -/

/-- A step that tells what it changes, between states in which all is well. -/
def Tells (s t : Supervisor) : Prop :=
  t.node = s.node ∧ t.Healthy ∧ ∃ l, Telling s t l

theorem Tells.refl (hs : s.Healthy) : Tells s s := ⟨rfl, hs, [], .silent rfl rfl⟩

theorem Tells.trans {u : Supervisor} (hst : Tells s t) (htu : Tells t u) : Tells s u := by
  obtain ⟨hn, _, k, hk⟩ := hst
  obtain ⟨hn', healthy, l, hl⟩ := htu
  exact ⟨hn'.trans hn, healthy, k ++ l, hk.trans hl hn⟩

theorem Turns.tells (hosts : ∀ a ∈ s.node.listeners, a.host ≠ "") (hs : s.Healthy)
    (h : Turns s t) : Tells s t := by
  induction h with
  | refl => exact .refl hs
  | tail _ last ih =>
    have hosts := ih.1 ▸ hosts
    exact ih.trans ⟨last.node_eq, last.healthy hosts ih.2.1, last.telling hosts ih.2.1⟩

theorem Hearings.tells (hs : s.Healthy) (h : Hearings s t) : Tells s t := by
  induction h with
  | refl => exact .refl hs
  | tail _ last ih => exact ih.trans ⟨last.node_eq, last.healthy ih.2.1, [], last.telling⟩

/-- **Every operation tells all that it changes.** -/
theorem perform_tells (hosts : ∀ a ∈ s.node.listeners, a.host ≠ "") (hs : s.Healthy)
    (step : Step) : Tells s (s.perform step).2 := by
  by_cases own : step.IsOwn
  · exact (perform_turns s own).tells hosts hs
  · exact (perform_hearings s own).tells hs

/-- Anything that happens to a supervisor. -/
inductive Change (s : Supervisor) : Supervisor → Prop
  /-- It performs an operation. -/
  | perform (step : Step) : Change s (s.perform step).2
  /-- The script lets something happen. -/
  | happen (event : Event) : Change s (s.happen event).2
  /-- The files change. -/
  | files (files : FileTree) : Change s { s with host := { s.host with files } }

theorem Change.outbox_grows (h : Change s t) : s.outbox <+: t.outbox := by
  cases h with
  | perform step => exact perform_outbox_grows s step
  | happen event => exact Turn.outbox_grows (.happen event)
  | files files => exact List.prefix_rfl

theorem Change.tells (hosts : ∀ a ∈ s.node.listeners, a.host ≠ "") (hs : s.Healthy)
    (h : Change s t) : Tells s t := by
  cases h with
  | perform step => exact perform_tells hosts hs step
  | happen event => exact Turns.tells hosts hs (.single (.happen event))
  | files files => exact Turns.tells hosts hs (.single (.files files))

end Supervisor

end WorkerCluster
