import WorkerCluster.Proofs.Supervisor.History
import WorkerCluster.Proofs.Supervisor.Starting

/-!
# Connections of workers

A worker is told apart as connected when its process has connected back. A supervisor takes that
down for every worker, whether it runs or not.

* `Supervisor.Stray` holds for a worker that is connected although it does not run.
* `OwnedWorker.Follows` is what most operations do to a worker: its connection and its state are
  what they were, or it has been stopped and disconnected. `OwnedWorker.Proceeds` leaves room for
  starts. `pass_follows` says that nothing else happens but news about connections.
* `pass_stray` says when a worker is stray after a moment, and `Supervisor.LeftAlone` what must not
  happen to one that is to stay so.
* `stray_iff` is the main statement, for whole histories: only the news that a worker has connected,
  when it does not run, makes it stray.
-/

namespace WorkerCluster

/-- What a worker may become without having been started or connected. -/
def OwnedWorker.Follows (v w : OwnedWorker) : Prop :=
  (w.record.connected = v.record.connected ∧ w.record.lifecycle = v.record.lifecycle) ∨
    v.record.lifecycle = .running ∧ w.record.lifecycle ≠ .running ∧ w.record.connected = false

theorem OwnedWorker.Follows.refl (w : OwnedWorker) : w.Follows w := .inl ⟨rfl, rfl⟩

theorem OwnedWorker.Follows.trans {u v w : OwnedWorker} (h : u.Follows v) (h' : v.Follows w) :
    u.Follows w := by
  obtain ⟨connected, lifecycle⟩ | ⟨ran, stopped, gone⟩ := h <;>
    obtain ⟨connected', lifecycle'⟩ | ⟨ran', stopped', gone'⟩ := h'
  · exact .inl ⟨connected'.trans connected, lifecycle'.trans lifecycle⟩
  · exact .inr ⟨lifecycle ▸ ran', stopped', gone'⟩
  · exact .inr ⟨ran, lifecycle' ▸ stopped, connected'.trans gone⟩
  · exact absurd ran' stopped

instance isPreorder_follows : IsPreorder OwnedWorker OwnedWorker.Follows where
  refl := .refl
  trans _ _ _ := .trans

/-- What a worker may become without having been connected. -/
def OwnedWorker.Proceeds (v w : OwnedWorker) : Prop := w.record.lifecycle = .running ∨ v.Follows w

instance refl_proceeds : Std.Refl OwnedWorker.Proceeds where
  refl w := .inr (.refl w)

namespace Supervisor

/-- A worker of the node is there, but does not run. -/
def Idles (s : Supervisor) (id : Uuid) : Prop :=
  ∃ w ∈ s.owned.find? id, w.record.lifecycle ≠ .running

/-- A worker of the node is connected although it does not run. -/
def Stray (s : Supervisor) (id : Uuid) : Prop :=
  ∃ w ∈ s.owned.find? id, w.record.connected = true ∧ w.record.lifecycle ≠ .running

instance (s : Supervisor) (id : Uuid) : Decidable (s.Stray id) :=
  inferInstanceAs (Decidable (∃ w ∈ s.owned.find? id, _ ∧ _))

/-- In a history a worker that does not run is left as it is: it stays, is not started and not made
anew, and its connection does not go. -/
structure LeftAlone (s : Supervisor) (id : Uuid) (history : List Moment) : Prop where
  idles : ∀ h, h <+: history → (s.live h).Idles id
  drawn : id ∉ s.drawn history
  connection : .perform (.setConnected id false) ∉ history

variable {s t u : Supervisor} {id id' : Uuid} {v w : OwnedWorker} {m : Moment}
  {history : List Moment}

/-! ### Workers that are neither started nor connected -/

theorem ended_follows (l : Launcher) (force : Bool) (w : OwnedWorker)
    (running : w.record.isRunning = true) : w.Follows (ended l force w).1 := by
  refine .inr ⟨by simpa [WorkerRecord.isRunning] using running, ?_⟩
  rw [ended_record]
  exact ⟨Lifecycle.noConfusion, rfl⟩

theorem steady_follows : Steady (Continues OwnedWorker.Follows) :=
  steady_continues (fun l force w running _ => ended_follows l force w running)
    fun _ _ => .inl ⟨rfl, rfl⟩

/-- A start connects nobody. -/
theorem start_proceeds (s : Supervisor) (id : Uuid) :
    s.Continues OwnedWorker.Proceeds (s.start id).2 :=
  start_continues (fun _ _ => .inr (.inl ⟨rfl, rfl⟩)) (fun _ _ _ => .inl rfl) s id

theorem restart_proceeds (s : Supervisor) (id : Uuid) :
    s.Continues OwnedWorker.Proceeds (s.restart id).2 := by
  have halted : s.Continues OwnedWorker.Follows (s.halt false false id).2 :=
    halt_continues ended_follows s false false id
  obtain after | after := restart_cases s id <;> rw [after]
  · exact halted.mono fun _ _ => .inr
  · intro id' w found
    obtain ⟨v', there, started⟩ := start_proceeds _ id id' w found
    obtain ⟨v, before, follows⟩ := halted id' v' there
    exact ⟨v, before, started.imp_right follows.trans⟩

/-! ### Moments -/

/-- A worker that has just been made is not connected. -/
theorem not_connected_of_drawn (drawn : id ∈ s.drawnAt m)
    (found : (s.pass m).owned.find? id = some w) : w.record.connected = false := by
  unfold drawnAt at drawn
  split at drawn
  · next plan =>
    obtain ⟨-, port, rfl⟩ | ⟨old, -⟩ := create_find? found
    · rfl
    · exact absurd drawn old
  · cases drawn

theorem setConnected_find? (s : Supervisor) (id' : Uuid) (connected : Bool) (id : Uuid) :
    (s.setConnected id' connected).2.owned.find? id =
      if id = id' then (s.owned.find? id).map (·.connect connected) else s.owned.find? id := by
  unfold setConnected
  split
  · next none =>
    split
    · next same => rw [same, none, Option.map_none]
    · rfl
  · next w found =>
    split
    · next already =>
      split
      · next same =>
        rw [same, found, Option.map_some, ← already]
        rfl
      · rfl
    · show (s.owned.insert id' _).find? id = _
      rw [SortedMap.find?_insert]
      split
      · next same =>
        rw [same, found]
        rfl
      · rfl

/-- **Whoever is there after a moment and has not just been made has been started, or follows the
one that was there before**, if the moment brings no news about its connection. -/
theorem pass_follows (other : ∀ connected, m ≠ .perform (.setConnected id connected))
    (old : id ∉ s.drawnAt m) (found : (s.pass m).owned.find? id = some w) :
    ∃ v, s.owned.find? id = some v ∧ v.Proceeds w := by
  have proceeds (h : s.Continues OwnedWorker.Proceeds (s.pass m)) :
      ∃ v, s.owned.find? id = some v ∧ v.Proceeds w := h id w found
  have follows (h : s.Continues OwnedWorker.Follows (s.pass m)) :
      ∃ v, s.owned.find? id = some v ∧ v.Proceeds w := proceeds (h.mono fun _ _ => .inr)
  cases m with
  | files files => exact follows (continues_of_owned_eq rfl)
  | happen event => exact follows (continues_of_owned_eq (by cases event <;> rfl))
  | perform step =>
    cases step with
    | create plan =>
      obtain ⟨drawn, -⟩ | ⟨-, before⟩ := create_find? found
      · exact absurd (drawn ▸ List.mem_singleton_self id) old
      · exact ⟨w, before, .inr (.refl w)⟩
    | start id' => exact proceeds (start_proceeds s id')
    | restart id' => exact proceeds (restart_proceeds s id')
    | reach id' target =>
      cases target with
      | running => exact proceeds (start_proceeds s id')
      | _ => exact follows (steady_follows.of_plain s trivial nofun)
    | setConnected id' connected =>
      have ne : id ≠ id' := by
        rintro rfl
        exact other connected rfl
      have before := (setConnected_find? s id' connected id).trans (if_neg ne)
      exact ⟨w, before.symm.trans found, .inr (.refl w)⟩
    | addTemplate id' c | addInclusion id' c | addDeployment id' c =>
      exact follows (queue_continues s id' fun _ => .inl ⟨rfl, rfl⟩)
    | hear w' => exact follows (hear_hearings s w').continues
    | replace node l => exact follows (replace_hearings s node l).continues
    | forget node => exact follows (continues_of_owned_eq rfl)
    | _ => exact follows (steady_follows.of_plain s trivial nofun)

theorem Stray.idles (h : s.Stray id) : s.Idles id :=
  let ⟨w, found, _, idle⟩ := h
  ⟨w, found, idle⟩

/-- **A worker is stray after a moment exactly if the news has just come that it has connected, when
it does not run, or if it was stray and has been left alone.** -/
theorem pass_stray (s : Supervisor) (id : Uuid) (m : Moment) :
    (s.pass m).Stray id ↔
      m = .perform (.setConnected id true) ∧ s.Idles id ∨
        s.Stray id ∧ (s.pass m).Idles id ∧ id ∉ s.drawnAt m ∧
          m ≠ .perform (.setConnected id false) := by
  by_cases news : ∃ connected, m = .perform (.setConnected id connected)
  · obtain ⟨connected, rfl⟩ := news
    have after : (s.pass (.perform (.setConnected id connected))).owned.find? id =
        (s.owned.find? id).map (·.connect connected) :=
      (setConnected_find? s id connected id).trans (if_pos rfl)
    constructor
    · rintro ⟨w, found, connects, idle⟩
      rw [after] at found
      obtain ⟨v, before, rfl⟩ := Option.map_eq_some_iff.1 found
      obtain rfl : connected = true := connects
      exact .inl ⟨rfl, v, before, idle⟩
    · rintro (⟨connects, v, before, idle⟩ | ⟨⟨v, before, -, idle⟩, -, -, other⟩)
      · cases connects
        exact ⟨v.connect true, by rw [after, before]; rfl, rfl, idle⟩
      · have connects : connected = true := by
          cases connected with
          | true => rfl
          | false => exact absurd rfl other
        exact ⟨v.connect connected, by rw [after, before]; rfl, connects, idle⟩
  · have other : ∀ connected, m ≠ .perform (.setConnected id connected) :=
      fun connected same => news ⟨connected, same⟩
    constructor
    · rintro ⟨w, found, connected, idle⟩
      have old : id ∉ s.drawnAt m := fun drawn =>
        Bool.false_ne_true ((not_connected_of_drawn drawn found).symm.trans connected)
      obtain ⟨v, before, started | ⟨same, state⟩ | ⟨-, -, gone⟩⟩ := pass_follows other old found
      · exact absurd started idle
      · exact .inr ⟨⟨v, before, same ▸ connected, state ▸ idle⟩, ⟨w, found, idle⟩, old, other false⟩
      · exact absurd (gone.symm.trans connected) Bool.false_ne_true
    · rintro (⟨connects, -⟩ | ⟨⟨v, before, connected, idle⟩, ⟨w, found, idle'⟩, old, -⟩)
      · exact absurd connects (other true)
      · obtain ⟨v', before', follows⟩ := pass_follows other old found
        obtain rfl : v' = v := Option.some_injective _ (before'.symm.trans before)
        obtain started | ⟨same, -⟩ | ⟨ran, -⟩ := follows
        · exact absurd started idle'
        · exact ⟨w, found, same.trans connected, idle'⟩
        · exact absurd ran idle

/-! ### Whole histories -/

theorem leftAlone_nil (h : s.Idles id) : s.LeftAlone id [] where
  idles h' part := by rwa [List.prefix_nil.1 part]
  drawn := List.not_mem_nil
  connection := List.not_mem_nil

theorem leftAlone_concat :
    s.LeftAlone id (history ++ [m]) ↔
      s.LeftAlone id history ∧ (s.live (history ++ [m])).Idles id ∧
        id ∉ (s.live history).drawnAt m ∧ m ≠ .perform (.setConnected id false) := by
  constructor
  · rintro ⟨idles, drawn, connection⟩
    rw [drawn_concat, List.mem_append, not_or] at drawn
    rw [List.mem_append, not_or, List.mem_singleton] at connection
    refine ⟨⟨fun h part => ?_, drawn.1, connection.1⟩, ?_, drawn.2, Ne.symm connection.2⟩
    · exact idles h (part.trans (List.prefix_append ..))
    · exact idles _ (List.prefix_refl _)
  · rintro ⟨⟨idles, drawn, connection⟩, now, old, other⟩
    refine ⟨fun h part => ?_, ?_, ?_⟩
    · obtain rfl | part := List.prefix_concat_iff.1 part
      · exact now
      · exact idles h part
    · rw [drawn_concat, List.mem_append, not_or]
      exact ⟨drawn, old⟩
    · rw [List.mem_append, not_or, List.mem_singleton]
      exact ⟨connection, Ne.symm other⟩

/-- Whoever is stray and left alone stays stray. -/
theorem Stray.live (stray : s.Stray id) (alone : s.LeftAlone id history) :
    (s.live history).Stray id := by
  induction history using List.reverseRecOn with
  | nil => exact stray
  | append_singleton history m ih =>
    obtain ⟨alone, idles, old, other⟩ := leftAlone_concat.1 alone
    rw [live_concat] at idles ⊢
    exact (pass_stray _ id m).2 (.inr ⟨ih alone, idles, old, other⟩)

/-- **A worker is connected after a history without running exactly if the news that it has
connected came when it did not run, and it has been left alone since.** -/
theorem stray_iff (new : s.IsNew) (history : List Moment) (id : Uuid) :
    (s.live history).Stray id ↔
      ∃ past later, history = past ++ .perform (.setConnected id true) :: later ∧
        (s.live past).Idles id ∧
        (s.live (past ++ [.perform (.setConnected id true)])).LeftAlone id later := by
  constructor
  · intro stray
    induction history using List.reverseRecOn with
    | nil =>
      obtain ⟨w, found, -⟩ := stray
      change s.owned.find? id = some w at found
      rw [new.owned] at found
      cases found
    | append_singleton history m ih =>
      have now := stray
      rw [live_concat] at now
      obtain ⟨rfl, idles⟩ | ⟨before, idles, old, other⟩ := (pass_stray _ id m).1 now
      · exact ⟨history, [], rfl, idles, leftAlone_nil stray.idles⟩
      · obtain ⟨past, later, rfl, idled, alone⟩ := ih before
        refine ⟨past, later ++ [m], by simp, idled, leftAlone_concat.2 ⟨alone, ?_⟩⟩
        rw [← live_concat] at idles
        rw [← live_append, ← live_append, ← List.append_assoc, ← List.append_cons]
        exact ⟨idles, old, other⟩
  · rintro ⟨past, later, rfl, idles, alone⟩
    have stray : (s.live (past ++ [.perform (.setConnected id true)])).Stray id := by
      rw [live_concat]
      exact (pass_stray _ id _).2 (.inl ⟨rfl, idles⟩)
    have last := stray.live alone
    rwa [← live_append, List.append_assoc] at last

/-- A worker has been stopped when the news comes that it has connected. -/
def latecomer : List Moment := [
  .perform (.create lobbyPlan),
  .perform (.start lobbyId),
  .perform (.stop lobbyId),
  .perform (.setConnected lobbyId true),
  .perform .sweep]

theorem stray_latecomer : (lobbyEmpty.live latecomer).Stray lobbyId := by decide +kernel

/-- It is connected then without running, since it has been left alone. -/
theorem stray_iff_latecomer :
    lobbyEmpty.IsNew ∧ (lobbyEmpty.live latecomer).Stray lobbyId ∧
      ∃ past later, latecomer = past ++ .perform (.setConnected lobbyId true) :: later ∧
        (lobbyEmpty.live past).Idles lobbyId ∧
        (lobbyEmpty.live (past ++ [.perform (.setConnected lobbyId true)])).LeftAlone lobbyId
          later :=
  ⟨isNew_lobbyEmpty, stray_latecomer,
    (stray_iff isNew_lobbyEmpty latecomer lobbyId).1 stray_latecomer⟩

/-- So it is not true that every worker which is connected runs. -/
theorem not_connected_runs :
    ¬ ∀ (node : NodeIdentity) (settings : Settings) (s : Supervisor), Reachable node settings s →
      ∀ id w, s.owned.find? id = some w → w.record.connected = true →
        w.record.lifecycle = .running := by
  intro runs
  obtain ⟨w, found, connected, idle⟩ := stray_latecomer
  exact idle (runs _ _ _ (isNew_lobbyEmpty.reachable.live latecomer) _ w found connected)

end Supervisor

end WorkerCluster
