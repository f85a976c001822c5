import Mathlib.Tactic
import WorkerCluster.Link.Table
import WorkerCluster.Proofs.SortedMap

/-!
# What is told of links

Those who follow the links of a node are told when there is a link to a peer or to a worker, and
when there is none any more.

* `LinkTable.link?` is the link to someone. `LinkTable.Change` says all that a move may come to:
  one lemma for every kind of move, `perform_change` for all of them.
* `LinkTable.Exact` says that what is told of someone is what happens to the link, up to the
  present.
* A connection is `LinkTable.Spent` once it is not the registered one any more. It stays so, and its
  end changes nothing (`Spent.finish`).
* `told_exact` is the main statement.
-/

namespace WorkerCluster

namespace LinkTable

variable {t u : LinkTable} {o p : Origin} {l : Link} {e : LinkEffect} {c : Nat}

/-- The link to someone. -/
def link? (t : LinkTable) : Origin → Option Link
  | .peer node => t.peers.find? node
  | .worker id => (t.workers.find? id).map (·.2)

/-! ### Moves -/

/-- Whose link a move is about. Closing all links is about nobody's. -/
def Move.origin? : Move → Option Origin
  | .attachPeer node _ => some (.peer node)
  | .attachWorker worker => some (.worker worker.uuid)
  | .finish _ origin => some origin
  | .disconnect node => some (.peer node)
  | .closeAll => none

/-- What may come of a move that is about the link to someone. -/
structure Change (t : LinkTable) (o : Origin) (e : LinkEffect) (u : LinkTable) : Prop where
  /-- Nothing happens to other links. -/
  others : ∀ p, p ≠ o → u.link? p = t.link? p
  grows : t.next ≤ u.next
  /-- The link stays, it is given up, or the connection with the next number takes its place. -/
  link : u.link? o = t.link? o ∨ u.link? o = none ∨
    ∃ l, u.link? o = some l ∧ l.connection = t.next ∧ t.next < u.next
  /-- Nothing is told as long as there is a link, or as long as there is none. Otherwise it is told
  which of both there is now. -/
  told : (e.event = none ∧ (u.link? o).isSome = (t.link? o).isSome) ∨
    ∃ event, e.event = some event ∧ event.origin = o ∧ event.isUp = (u.link? o).isSome ∧
      (u.link? o).isSome = !(t.link? o).isSome

/-- Nothing happens. -/
theorem Change.refl (t : LinkTable) (o : Origin) : Change t o {} t where
  others _ _ := rfl
  grows := le_rfl
  link := .inl rfl
  told := .inl ⟨rfl, rfl⟩

/-! ### Links of changed tables -/

theorem link?_insertPeer {node : NodeId} (peers : u.peers = t.peers.insert node l)
    (workers : u.workers = t.workers) (p : Origin) :
    u.link? p = if p = .peer node then some l else t.link? p := by
  cases p with
  | peer other => simp [link?, peers]
  | worker id => simp [link?, workers]

theorem link?_erasePeer {node : NodeId} (peers : u.peers = t.peers.erase node)
    (workers : u.workers = t.workers) (p : Origin) :
    u.link? p = if p = .peer node then none else t.link? p := by
  cases p with
  | peer other => simp [link?, peers]
  | worker id => simp [link?, workers]

theorem link?_insertWorker {id : Uuid} {w : WorkerId} (peers : u.peers = t.peers)
    (workers : u.workers = t.workers.insert id (w, l)) (p : Origin) :
    u.link? p = if p = .worker id then some l else t.link? p := by
  cases p with
  | peer node => simp [link?, peers]
  | worker other =>
    simp only [link?, workers, SortedMap.find?_insert, Origin.worker.injEq]
    split <;> rfl

theorem link?_eraseWorker {id : Uuid} (peers : u.peers = t.peers)
    (workers : u.workers = t.workers.erase id) (p : Origin) :
    u.link? p = if p = .worker id then none else t.link? p := by
  cases p with
  | peer node => simp [link?, peers]
  | worker other =>
    simp only [link?, workers, SortedMap.find?_erase, Origin.worker.injEq]
    split <;> rfl

/-! ### The ways of a change -/

section

variable {event : LinkEvent}

/-- The connection with the next number becomes the link to someone, whether or not there was
one. -/
theorem Change.attach
    (links : ∀ p, u.link? p = if p = o then some l else t.link? p)
    (number : l.connection = t.next) (next : u.next = t.next + 1)
    (told : (e.event = none ∧ (t.link? o).isSome = true) ∨
      ∃ event, e.event = some event ∧ event.origin = o ∧ event.isUp = true ∧
        t.link? o = none) : Change t o e u where
  others p other := by rw [links, if_neg other]
  grows := by omega
  link := .inr (.inr ⟨l, by rw [links, if_pos rfl], number, by omega⟩)
  told := by
    rw [links, if_pos rfl]
    obtain ⟨silent, before⟩ | ⟨event, tells, about, up, before⟩ := told
    · exact .inl ⟨silent, before.symm⟩
    · exact .inr ⟨event, tells, about, up, by simp [before]⟩

/-- The link to someone is given up. -/
theorem Change.lose (links : ∀ p, u.link? p = if p = o then none else t.link? p)
    (next : u.next = t.next) (found : t.link? o = some l) (tells : e.event = some event)
    (about : event.origin = o) (down : event.isUp = false) : Change t o e u where
  others p other := by rw [links, if_neg other]
  grows := next.ge
  link := .inr (.inl (by rw [links, if_pos rfl]))
  told := .inr ⟨event, tells, about, by rw [links, if_pos rfl, down]; rfl,
    by rw [links, if_pos rfl, found]; rfl⟩

end

theorem attachPeer_change (t : LinkTable) (node : NodeId) (dialed : Bool) :
    Change t (.peer node) (t.attachPeer node dialed).1 (t.attachPeer node dialed).2 := by
  unfold attachPeer
  dsimp only
  cases found : t.peers.find? node with
  | none =>
    exact .attach (link?_insertPeer rfl rfl) rfl rfl (.inr ⟨_, rfl, rfl, rfl, found⟩)
  | some old =>
    dsimp only
    split
    · -- the connection is closed at once, and only its number is used up
      exact ⟨fun p _ => by cases p <;> rfl, Nat.le_succ _, .inl rfl, .inl ⟨rfl, rfl⟩⟩
    · exact .attach (link?_insertPeer rfl rfl) rfl rfl (.inl ⟨rfl, by simp [link?, found]⟩)

theorem attachWorker_change (t : LinkTable) (w : WorkerId) :
    Change t (.worker w.uuid) (t.attachWorker w).1 (t.attachWorker w).2 := by
  refine .attach (link?_insertWorker rfl rfl) rfl rfl ?_
  unfold attachWorker
  cases found : t.workers.find? w.uuid with
  | none => exact .inr ⟨_, rfl, rfl, rfl, by simp [link?, found]⟩
  | some old => exact .inl ⟨rfl, by simp [link?, found]⟩

theorem finish_change (keyed : t.workers.KeyedBy (·.1.uuid)) (c : Nat) (o : Origin) :
    Change t o (t.finish c o).1 (t.finish c o).2 := by
  cases o with
  | peer node =>
    simp only [finish]
    split
    · next ends =>
      obtain ⟨l, found, -⟩ := (Option.any_eq_true ..).1 ends
      exact .lose (link?_erasePeer rfl rfl) rfl found rfl rfl rfl
    · exact .refl t _
  | worker id =>
    simp only [finish]
    split
    · next w l found =>
      split
      · refine .lose (l := l) (link?_eraseWorker rfl rfl) rfl (by simp [link?, found]) rfl ?_ rfl
        exact congrArg Origin.worker (keyed id (w, l) found)
      · exact .refl t _
    · exact .refl t _

theorem disconnect_change (t : LinkTable) (node : NodeId) :
    Change t (.peer node) (t.disconnect node).1 (t.disconnect node).2 := by
  unfold disconnect
  cases found : t.peers.find? node with
  | none => exact .refl t _
  | some l => exact .lose (link?_erasePeer rfl rfl) rfl found rfl rfl rfl

/-- **All that a move may come to.** -/
theorem perform_change (keyed : t.workers.KeyedBy (·.1.uuid)) {m : Move}
    (about : m.origin? = some o) : Change t o (t.perform m).1 (t.perform m).2 := by
  cases m with
  | attachPeer node dialed =>
    obtain rfl := Option.some.inj about
    exact attachPeer_change t node dialed
  | attachWorker w =>
    obtain rfl := Option.some.inj about
    exact attachWorker_change t w
  | finish c origin =>
    obtain rfl := Option.some.inj about
    exact finish_change keyed c origin
  | disconnect node =>
    obtain rfl := Option.some.inj about
    exact disconnect_change t node
  | closeAll => cases about

/-- If there is no link to a peer, the connection becomes one. -/
theorem link?_attachPeer {node : NodeId} (apart : t.link? (.peer node) = none) (dialed : Bool) :
    (t.attachPeer node dialed).2.link? (.peer node) = some ⟨t.next, dialed⟩ := by
  have apart : t.peers.find? node = none := apart
  unfold attachPeer
  dsimp only
  rw [apart]
  simp [link?]

/-- At the end of its connection a link is given up. -/
theorem link?_finish (found : t.link? o = some l) :
    (t.finish l.connection o).2.link? o = none := by
  cases o with
  | peer node =>
    have found : t.peers.find? node = some l := found
    simp [finish, found, link?]
  | worker id =>
    obtain ⟨⟨w, k⟩, there, rfl⟩ := Option.map_eq_some_iff.1 found
    simp [finish, there, link?]

/-! ### What always holds of a table -/

/-- Every worker stands under its own id, and the links have different numbers that have been given
out. -/
structure Sound (t : LinkTable) : Prop where
  keyed : t.workers.KeyedBy (·.1.uuid)
  below : ∀ o l, t.link? o = some l → l.connection < t.next
  distinct : ∀ o p l k, t.link? o = some l → t.link? p = some k →
    l.connection = k.connection → o = p

theorem sound_new (home : NodeId) : ({ home } : LinkTable).Sound where
  keyed _ _ found := nomatch found
  below o l found := by cases o <;> cases found
  distinct o p l k found := by cases o <;> cases found

theorem keyed_perform (h : t.workers.KeyedBy (·.1.uuid)) (m : Move) :
    (t.perform m).2.workers.KeyedBy (·.1.uuid) := by
  cases m with
  | attachPeer node dialed =>
    have same : (t.attachPeer node dialed).2.workers = t.workers := by
      unfold attachPeer
      dsimp only
      split
      · rfl
      · split <;> rfl
    exact same ▸ h
  | attachWorker w => exact h.insert (w, _)
  | finish c o =>
    cases o with
    | peer node =>
      have same : (t.finish c (.peer node)).2.workers = t.workers := by
        simp only [finish]
        split <;> rfl
      exact same ▸ h
    | worker id =>
      show (t.finish c (.worker id)).2.workers.KeyedBy _
      simp only [finish]
      split
      · split
        · exact h.erase id
        · exact h
      · exact h
  | disconnect node =>
    have same : (t.disconnect node).2.workers = t.workers := by
      unfold disconnect
      split <;> rfl
    exact same ▸ h
  | closeAll => exact fun _ _ found => nomatch found

/-- A link that there is after a change was there before, or it is the new one. -/
theorem Change.before_or_new (change : Change t o e u) (found : u.link? p = some l) :
    t.link? p = some l ∨ (p = o ∧ l.connection = t.next ∧ t.next < u.next) := by
  by_cases other : p = o
  · subst other
    obtain same | gone | ⟨new, link, number, next⟩ := change.link
    · exact .inl (same ▸ found)
    · rw [gone] at found
      cases found
    · rw [link] at found
      cases found
      exact .inr ⟨rfl, number, next⟩
  · exact .inl (change.others p other ▸ found)

theorem Sound.change (h : t.Sound) (change : Change t o e u)
    (keyed : u.workers.KeyedBy (·.1.uuid)) : u.Sound where
  keyed := keyed
  below p l found := by
    obtain before | ⟨-, number, next⟩ := change.before_or_new found
    · exact (h.below p l before).trans_le change.grows
    · omega
  distinct p q l k there elsewhere same := by
    obtain before | ⟨rfl, number, -⟩ := change.before_or_new there <;>
      obtain before' | ⟨rfl, number', -⟩ := change.before_or_new elsewhere
    · exact h.distinct p q l k before before' same
    · have := h.below p l before
      omega
    · have := h.below q k before'
      omega
    · rfl

theorem Sound.perform (h : t.Sound) {m : Move} (running : m ≠ .closeAll) :
    ∃ o, Change t o (t.perform m).1 (t.perform m).2 ∧ (t.perform m).2.Sound := by
  obtain ⟨o, about⟩ : ∃ o, m.origin? = some o := by
    cases m with
    | closeAll => exact absurd rfl running
    | _ => exact ⟨_, rfl⟩
  have change := perform_change h.keyed about
  exact ⟨o, change, h.change change (keyed_perform h.keyed m)⟩

/-! ### Connections that are not registered any more -/

/-- The number of a connection has been given out, and no link has it now. -/
def Spent (t : LinkTable) (c : Nat) : Prop :=
  c < t.next ∧ ∀ o l, t.link? o = some l → l.connection ≠ c

theorem Spent.change (h : t.Spent c) (change : Change t o e u) : u.Spent c := by
  refine ⟨h.1.trans_le change.grows, fun p l found => ?_⟩
  obtain before | ⟨-, number, -⟩ := change.before_or_new found
  · exact h.2 p l before
  · have := h.1
    omega

/-- A link stays as it is, or its connection is not registered any more. -/
theorem Sound.kept_or_spent (h : t.Sound) (change : Change t o e u)
    (found : t.link? p = some l) : u.link? p = some l ∨ u.Spent l.connection := by
  by_cases kept : u.link? p = some l
  · exact .inl kept
  refine .inr ⟨(h.below p l found).trans_le change.grows, fun q k there same => ?_⟩
  obtain before | ⟨-, number, -⟩ := change.before_or_new there
  · obtain rfl := h.distinct q p k l before found same
    obtain rfl := Option.some.inj (before.symm.trans found)
    exact kept there
  · have := h.below p l found
    omega

/-- The end of a connection that is not registered changes nothing, and nobody is told. -/
theorem Spent.finish (h : t.Spent c) (o : Origin) : t.finish c o = ({}, t) := by
  cases o with
  | peer node =>
    refine if_neg fun ends => ?_
    obtain ⟨l, found, number⟩ := (Option.any_eq_true ..).1 ends
    exact h.2 (.peer node) l found (of_decide_eq_true number)
  | worker id =>
    simp only [LinkTable.finish]
    split
    · next w l found => exact if_neg (h.2 (.worker id) l (by simp [link?, found]))
    · rfl

/-! ### What is told of someone -/

/-- What is told of someone, in order, is what happens to the link, up to whether there is one
now. -/
structure Exact (told : List LinkEvent) (linked : Bool) : Prop where
  begins : ∀ e ∈ told.head?, e.isUp = true
  alternates : told.IsChain fun e f => f.isUp = !e.isUp
  last : told.getLast?.any (·.isUp) = linked

theorem Exact.nil : Exact [] false := ⟨nofun, .nil, rfl⟩

theorem Exact.concat {told : List LinkEvent} {linked : Bool} {event : LinkEvent}
    (h : Exact told linked) (turn : event.isUp = !linked) : Exact (told ++ [event]) (!linked) where
  begins := by
    cases told with
    | nil =>
      obtain rfl : false = linked := h.last
      rintro e ⟨⟩
      exact turn
    | cons first rest => exact h.begins
  alternates := by
    refine List.isChain_append.2 ⟨h.alternates, .singleton _, fun e latest f next => ?_⟩
    obtain rfl := Option.some.inj next
    have was := h.last
    rw [Option.mem_def.1 latest] at was
    rw [turn, ← was]
    rfl
  last := by simp [turn]

/-- What is told with a change keeps all that is told of someone exact. -/
theorem Exact.change {told : List LinkEvent} (h : Exact told (t.link? p).isSome)
    (change : Change t o e u) :
    Exact (told ++ e.event.toList.filter (·.origin = p)) (u.link? p).isSome := by
  obtain ⟨silent, same⟩ | ⟨event, tells, about, now, turn⟩ := change.told
  · have : (u.link? p).isSome = (t.link? p).isSome := by
      by_cases other : p = o
      · exact other ▸ same
      · rw [change.others p other]
    simpa [silent, this] using h
  · by_cases other : p = o
    · subst other
      have := h.concat (now.trans turn)
      simpa [tells, about, turn] using this
    · have : ¬ o = p := fun same => other same.symm
      simpa [tells, about, this, change.others p other] using h

/-! ### Runs -/

theorem run_append (t : LinkTable) (past later : List Move) :
    t.run (past ++ later) = ((t.run past).1 ++ ((t.run past).2.run later).1,
      ((t.run past).2.run later).2) := by
  induction past generalizing t with
  | nil => rfl
  | cons m rest ih => simp [run, ih]

variable {moves : List Move}

/-- Tables stay sound, and what every change of a sound table keeps is kept by whole runs. -/
theorem Sound.run_induction {motive : List LinkEvent → LinkTable → Prop} (sound : t.Sound)
    (running : .closeAll ∉ moves) (told : List LinkEvent) (start : motive told t)
    (step : ∀ {told t o e u}, Sound t → Change t o e u → motive told t →
      motive (told ++ e.event.toList) u) :
    (t.run moves).2.Sound ∧ motive (told ++ (t.run moves).1) (t.run moves).2 := by
  induction moves generalizing t told with
  | nil => exact ⟨sound, by simpa [LinkTable.run] using start⟩
  | cons m rest ih =>
    rw [List.mem_cons, not_or] at running
    obtain ⟨o, change, after⟩ := sound.perform (Ne.symm running.1)
    simpa [LinkTable.run, List.append_assoc] using ih after running.2 _ (step sound change start)

theorem Sound.run (h : t.Sound) (running : .closeAll ∉ moves) : (t.run moves).2.Sound :=
  (h.run_induction (motive := fun _ _ => True) running [] trivial fun _ _ _ => trivial).1

/-- A link stays as it is throughout a run, or its connection is not registered in the end. -/
theorem Sound.kept_or_spent_run (h : t.Sound) (running : .closeAll ∉ moves)
    (found : t.link? p = some l) :
    (t.run moves).2.link? p = some l ∨ (t.run moves).2.Spent l.connection := by
  refine (h.run_induction (motive := fun _ t => t.link? p = some l ∨ t.Spent l.connection)
    running [] (.inl found) ?_).2
  rintro - t o e u sound change (kept | spent)
  · exact sound.kept_or_spent change kept
  · exact .inr (spent.change change)

/-- What is told of someone in the course of a run is exact. -/
theorem exact_run (home : NodeId) (running : .closeAll ∉ moves) (o : Origin) :
    Exact ((({ home } : LinkTable).run moves).1.filter (·.origin = o))
      ((({ home } : LinkTable).run moves).2.link? o).isSome := by
  have start : Exact [] (({ home } : LinkTable).link? o).isSome := by cases o <;> exact .nil
  refine ((sound_new home).run_induction (motive := fun told t =>
    Exact (told.filter (·.origin = o)) (t.link? o).isSome) running [] start ?_).2
  rintro told t p e u - change upToHere
  simpa using upToHere.change change

/-- **What is told of links is exact.** As long as a node does not close all its links at once,
those who follow them are told of every peer and every worker in turns that there is a link and that
there is none, a link first, and there is a link exactly if that was the last. Once a connection
that was registered is so no longer, since another has taken its place or since the link was given
up, its end never changes anything, and nobody is told of it. -/
theorem told_exact (home : NodeId) (moves : List Move) (running : .closeAll ∉ moves) :
    let (told, now) := ({ home } : LinkTable).run moves
    (∀ o, Exact (told.filter (·.origin = o)) (now.link? o).isSome) ∧
      ∀ past, past <+: moves → ∀ o l, (({ home } : LinkTable).run past).2.link? o = some l →
        now.link? o ≠ some l → ∀ p, now.finish l.connection p = ({}, now) := by
  refine ⟨exact_run home running, ?_⟩
  rintro past ⟨later, rfl⟩ o l found gone p
  rw [List.mem_append, not_or] at running
  rw [run_append] at gone ⊢
  have sound := (sound_new home).run running.1
  exact ((sound.kept_or_spent_run running.2 found).resolve_left gone).finish p

/-! ### A small run -/

/-- A worker that connects. -/
def visitor : WorkerId := ⟨⟨7⟩, "Lobby", 1, "node-2"⟩

/-- Both links are replaced, ends of replaced connections are followed late, a duplicate is turned
down, one link is given up and the other one ends, and then the peer connects again. -/
def busy : List Move :=
  [.attachPeer "node-1" true, .attachPeer "node-1" false, .finish 1 (.peer "node-1"),
    .attachPeer "node-1" true, .attachWorker visitor, .attachWorker visitor,
    .finish 4 (.worker visitor.uuid), .disconnect "node-1", .finish 2 (.peer "node-1"),
    .finish 5 (.worker visitor.uuid), .attachPeer "node-1" false]

theorem busy_exact : .closeAll ∉ busy ∧
    (({ home := "node-2" } : LinkTable).run busy).1 =
      [.peerConnected "node-1", .workerConnected visitor, .peerDisconnected "node-1",
        .workerDisconnected visitor, .peerConnected "node-1"] ∧
    Exact [.workerConnected visitor, .workerDisconnected visitor] false ∧
    (({ home := "node-2" } : LinkTable).run busy).2.finish 2 (.peer "node-1") =
      ({}, (({ home := "node-2" } : LinkTable).run busy).2) := by
  have running : .closeAll ∉ busy := by decide
  obtain ⟨told, late⟩ := told_exact "node-2" busy running
  refine ⟨running, rfl, told (.worker visitor.uuid), ?_⟩
  exact late (busy.take 2) (List.take_prefix 2 busy) (.peer "node-1") ⟨2, false⟩ rfl (by decide)
    (.peer "node-1")

end LinkTable

end WorkerCluster
