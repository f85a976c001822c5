import WorkerCluster.Link.Table
import WorkerCluster.Proofs.Node.Pair

/-!
# Two nodes that open connections to each other

Each of two nodes has opened a connection to the other one, and both connections have been let in.
What is left is that each node registers its ends of them, closes the one that it does not keep, and
sees the end of one that the other node has closed.

* `Terminal` is the end of a connection at a node, `Party` a node with its links and its two ends.
* `Dialing` is both nodes. `Dialing.Move` is what may happen, `Dialing.Enabled` when it may, and
  `Dialing.step` what comes of it.
* `Party.Orderly` is what always holds of a node. `Party.Orderly.attach_cases` and `finish_cases`
  say all that may become of its ends; `attach`, `close` and `finish` say that it stays orderly.
* `Dialing.Orderly.step_told` says what a node is told of its link, `step_terminal` what stays as it
  is at the ends.
* `keeps_first` is the main statement: both keep the connection of the node with the smaller id.
-/

namespace WorkerCluster

/-! ### Links to a peer -/

namespace LinkTable

variable {t : LinkTable} {node : NodeId}

/-- The table in which a new connection to a peer is registered. -/
def register (t : LinkTable) (node : NodeId) (dialed : Bool) : LinkTable :=
  { t with next := t.next + 1, peers := t.peers.insert node ⟨t.next, dialed⟩ }

/-- A connection to a peer without a link is registered. -/
theorem attachPeer_first (dialed : Bool) (h : t.peers.find? node = none) :
    t.attachPeer node dialed =
      ({ event := some (.peerConnected node) }, t.register node dialed) := by
  simp [attachPeer, register, h]

/-- A connection is not wanted if there is a link that is kept before it. -/
theorem attachPeer_refused {old : Link} {dialed : Bool} (h : t.peers.find? node = some old)
    (keeps : t.prefers node old.dialed = true) (other : t.prefers node dialed = false) :
    t.attachPeer node dialed = ({ closes := [t.next] }, { t with next := t.next + 1 }) := by
  have refused : (t.prefers node old.dialed && !t.prefers node dialed) = true := by
    rw [keeps, other]
    rfl
  unfold attachPeer
  simp only [h]
  exact if_pos refused

/-- A connection that is kept before a link takes its place. -/
theorem attachPeer_replaces {old : Link} {dialed : Bool} (h : t.peers.find? node = some old)
    (keeps : t.prefers node dialed = true) :
    t.attachPeer node dialed = ({ closes := [old.connection] }, t.register node dialed) := by
  have wanted : ¬ (t.prefers node old.dialed && !t.prefers node dialed) = true := by
    rw [keeps, Bool.not_true, Bool.and_false]
    exact Bool.false_ne_true
  unfold attachPeer
  simp only [h]
  exact if_neg wanted

/-- The end of the connection of a link: the link is given up. -/
theorem finish_linked {l : Link} (h : t.peers.find? node = some l) :
    t.finish l.connection (.peer node) = ({ event := some (.peerDisconnected node) },
      { t with peers := t.peers.erase node }) := by
  simp [finish, h]

/-- The end of a connection that is no link, or no longer. -/
theorem finish_other {connection : Nat}
    (h : ∀ l, t.peers.find? node = some l → l.connection ≠ connection) :
    t.finish connection (.peer node) = ({}, t) := by
  unfold finish
  refine if_neg ?_
  cases found : t.peers.find? node with
  | none => simp
  | some l => simpa using h l found

end LinkTable

/-! ### Ends of connections -/

/-- What reads from a connection at one end. -/
inductive Reader
  /-- It waits until the link is registered. -/
  | waiting
  | running
  /-- It has seen the end. -/
  | ended
  /-- It has been stopped. -/
  | stopped
  deriving DecidableEq

/-- The end of a connection at a node. -/
structure Terminal where
  /-- The number of the connection at this node. There is none until the node is told that the other
  side has been let in. -/
  number : Option Nat := none
  reader : Reader := .waiting
  /-- The node may write, so that the other end does not see an end. -/
  isOpen : Bool := true
  /-- The node has made up its mind to close it. -/
  closing : Bool := false
  deriving DecidableEq

namespace Terminal

/-- The end of a connection whose link is registered. -/
def registered (number : Nat) : Terminal := { number := some number, reader := .running }

/-- Some connections are to be closed. -/
def mark (t : Terminal) (closes : List Nat) : Terminal :=
  { t with closing := t.closing || t.number.any (· ∈ closes) }

/-- It is closed. What reads from it is stopped, unless it has seen the end. -/
def close (t : Terminal) : Terminal :=
  { t with
    reader := if t.reader = .ended then .ended else .stopped
    isOpen := false
    closing := false }

/-- The node has no part in the connection any more: it neither writes to it nor reads from it. -/
def Gone (t : Terminal) : Prop := t.isOpen = false ∧ (t.reader = .ended ∨ t.reader = .stopped)

/-- How far the node has come with the connection, given the link to the other node that is
registered and who has opened the connection. -/
inductive Stage (link : Option Link) (dialed : Bool) : Terminal → Prop
  | untouched : Stage link dialed {}
  /-- Its link is the registered one. -/
  | linked (n : Nat) (found : link = some ⟨n, dialed⟩) : Stage link dialed (registered n)
  /-- The node does not want it, or not any more. -/
  | leaving (n : Nat) (reader : Reader) (other : ∀ l, link = some l → l.connection ≠ n) :
    Stage link dialed { number := some n, reader, closing := true }
  | gone (n : Nat) (reader : Reader) (other : ∀ l, link = some l → l.connection ≠ n)
    (stopped : reader = .ended ∨ reader = .stopped) :
    Stage link dialed { number := some n, reader, isOpen := false }

theorem mark_of_mem {t : Terminal} {closes : List Nat} {n : Nat} (number : t.number = some n)
    (h : n ∈ closes) : t.mark closes = { t with closing := true } := by
  simp [mark, number, h]

theorem mark_of_not_mem {t : Terminal} {closes : List Nat}
    (h : ∀ n, t.number = some n → n ∉ closes) : t.mark closes = t := by
  obtain ⟨number, reader, isOpen, closing⟩ := t
  cases number with
  | none => simp [mark]
  | some n => simp [mark, h n rfl]

/-- Another link takes nothing from the end of a connection that has none. -/
theorem Stage.relink {t : Terminal} {link link' : Option Link} {dialed : Bool}
    (h : t.Stage link dialed) (unlinked : ∀ l, link = some l → t.number ≠ some l.connection)
    (other : ∀ l n, link' = some l → t.number = some n → l.connection ≠ n) :
    t.Stage link' dialed := by
  cases h with
  | untouched => exact .untouched
  | linked n found => exact absurd rfl (unlinked _ found)
  | leaving n reader _ => exact .leaving n reader fun l new => other l n new rfl
  | gone n reader _ stopped => exact .gone n reader (fun l new => other l n new rfl) stopped

end Terminal

/-! ### One of the nodes -/

/-- One of two nodes that open connections to each other. -/
structure Party where
  table : LinkTable
  /-- Its end of the connection that one of the two has opened. -/
  terminal : (opener : Side) → Terminal := fun _ => {}

namespace Party

/-- The node with other links and another end of a connection. -/
def put (a : Party) (table : LinkTable) (d : Side) (t : Terminal) : Party where
  table
  terminal := Function.update a.terminal d t

/-- The node registers its end of a connection, or is about to close it. -/
def attach (a : Party) (peer : NodeId) (d : Side) (dialed : Bool) : Option LinkEvent × Party :=
  let (effect, table) := a.table.attachPeer peer dialed
  let reader := if a.table.next ∈ effect.closes then .waiting else .running
  let b := a.put table d { number := some a.table.next, reader }
  (effect.event, { b with terminal := fun e => (b.terminal e).mark effect.closes })

/-- The node closes a connection. -/
def close (a : Party) (d : Side) : Party := a.put a.table d (a.terminal d).close

/-- The node sees the end of a connection. If its link is registered, it is given up. -/
def finish (a : Party) (peer : NodeId) (d : Side) : Option LinkEvent × Party :=
  let t := a.terminal d
  match t.number with
  | none => (none, a)
  | some number =>
    let (effect, table) := a.table.finish number (.peer peer)
    (effect.event,
      a.put table d { t with reader := .ended, isOpen := t.isOpen && effect.event.isNone })

/-- The link to the other node. -/
def link (a : Party) (peer : NodeId) : Option Link := a.table.peers.find? peer

section Put

variable (a : Party) (table : LinkTable) (d e : Side) (t : Terminal)

@[simp] theorem put_table : (a.put table d t).table = table := rfl

@[simp] theorem put_self : (a.put table d t).terminal d = t := Function.update_self ..

theorem put_of_ne (ne : e ≠ d) : (a.put table d t).terminal e = a.terminal e :=
  Function.update_of_ne ne ..

theorem put_number : ((a.put table d t).terminal e).number =
    if e = d then t.number else (a.terminal e).number := by
  split
  · next same => rw [same, put_self]
  · next ne => rw [put_of_ne _ _ _ _ _ ne]

@[simp] theorem link_put (peer : NodeId) :
    (a.put table d t).link peer = table.peers.find? peer := rfl

@[simp] theorem find?_register (T : LinkTable) (peer : NodeId) (dialed : Bool) :
    (T.register peer dialed).peers.find? peer = some ⟨T.next, dialed⟩ := by
  simp [LinkTable.register]

end Put

/-- The connections have different numbers, and the next one will have another one. -/
structure Numbered (a : Party) : Prop where
  below : ∀ d n, (a.terminal d).number = some n → n < a.table.next
  distinct : ∀ d e n, (a.terminal d).number = some n → (a.terminal e).number = some n → d = e

/-- What always holds of the node on a side and of its ends of the connections. -/
structure Orderly (a : Party) (peer : NodeId) (p : Side) : Prop extends a.Numbered where
  /-- It keeps the connection that the node on the left has opened. -/
  prefers : ∀ d, a.table.prefers peer (decide (d = p)) = decide (d = .left)
  stage : ∀ d, (a.terminal d).Stage (a.link peer) (decide (d = p))
  /-- The registered link is that of one of the connections. -/
  linked : ∀ l, a.link peer = some l → ∃ d, (a.terminal d).number = some l.connection
  /-- The link that it keeps is registered as soon as there is one. -/
  kept : ∀ n, (a.terminal .left).number = some n → a.link peer = some ⟨n, decide (.left = p)⟩

namespace Numbered

variable {a b : Party}

/-- One connection gets the next number. -/
theorem grow (h : a.Numbered) (d : Side) (next : b.table.next = a.table.next + 1)
    (numbers : ∀ e, (b.terminal e).number =
      if e = d then some a.table.next else (a.terminal e).number) : b.Numbered where
  below e n number := by
    rw [numbers] at number
    split at number
    · cases number
      omega
    · have := h.below e n number
      omega
  distinct e f n he hf := by
    rw [numbers] at he hf
    split_ifs at he hf with e_new f_new f_new
    · rw [e_new, f_new]
    · cases he
      exact absurd (h.below f _ hf) (lt_irrefl _)
    · cases hf
      exact absurd (h.below e _ he) (lt_irrefl _)
    · exact h.distinct e f n he hf

theorem same (h : a.Numbered) (next : b.table.next = a.table.next)
    (numbers : ∀ e, (b.terminal e).number = (a.terminal e).number) : b.Numbered where
  below e n number := next ▸ h.below e n (numbers e ▸ number)
  distinct e f n he hf := h.distinct e f n (numbers e ▸ he) (numbers f ▸ hf)

end Numbered

namespace Orderly

variable {a : Party} {peer : NodeId} {p d : Side} {n : Nat} {l : Link}

theorem registered (h : a.Orderly peer p) (number : (a.terminal d).number = some l.connection)
    (found : a.link peer = some l) :
    a.terminal d = .registered l.connection ∧ l.dialed = decide (d = p) := by
  have stage := h.stage d
  rw [found] at stage
  generalize a.terminal d = t at stage number
  cases stage with
  | untouched => cases number
  | linked n same =>
    cases same
    exact ⟨rfl, rfl⟩
  | leaving n reader other =>
    cases number
    exact absurd rfl (other l rfl)
  | gone n reader other =>
    cases number
    exact absurd rfl (other l rfl)

/-- The connection that is kept is registered, or the node has not come to it yet. -/
theorem left_cases (h : a.Orderly peer p) : a.terminal .left = {} ∨
    ∃ n, a.terminal .left = .registered n ∧ a.link peer = some ⟨n, decide (.left = p)⟩ := by
  have stage := h.stage .left
  have kept := h.kept
  generalize a.terminal .left = t at stage kept
  cases stage with
  | untouched => exact .inl rfl
  | linked n found => exact .inr ⟨n, rfl, found⟩
  | leaving n reader other => exact absurd rfl (other _ (kept n rfl))
  | gone n reader other => exact absurd rfl (other _ (kept n rfl))

/-- What may come of a connection that is complete: it is the first one, it is not wanted, or it
takes the place of the other one. -/
theorem attach_cases (h : a.Orderly peer p) (fresh : (a.terminal d).number = none) :
    (a.link peer = none ∧
      a.attach peer d (decide (d = p)) = (some (.peerConnected peer),
        a.put (a.table.register peer (decide (d = p))) d (.registered a.table.next))) ∨
    (d = .right ∧ (∃ l, a.link peer = some l) ∧
      a.attach peer d (decide (d = p)) = (none,
        a.put { a.table with next := a.table.next + 1 } d
          { number := some a.table.next, closing := true })) ∨
    (d = .left ∧ ∃ l, a.link peer = some l ∧ a.terminal .right = .registered l.connection ∧
      a.attach peer d (decide (d = p)) = (none,
        (a.put a.table .right { Terminal.registered l.connection with closing := true }).put
          (a.table.register peer (decide (d = p))) d (.registered a.table.next))) := by
  cases found : a.link peer with
  | none =>
    left
    refine ⟨rfl, ?_⟩
    unfold attach
    rw [LinkTable.attachPeer_first _ found]
    have unmarked (t : Terminal) : t.mark [] = t := Terminal.mark_of_not_mem (by simp)
    simp [unmarked, Terminal.registered]
    rfl
  | some l =>
    right
    -- the link is that of the other connection
    obtain ⟨e, number⟩ := h.linked l found
    obtain ⟨registered, dialed⟩ := h.registered number found
    have ne : e ≠ d := by
      rintro rfl
      rw [number] at fresh
      cases fresh
    have below := h.below e _ number
    cases d with
    | right =>
      left
      obtain rfl : e = .left := by revert ne; cases e <;> decide
      refine ⟨rfl, ⟨l, rfl⟩, ?_⟩
      unfold attach
      rw [LinkTable.attachPeer_refused found (by rw [dialed, h.prefers]; rfl)
        (by rw [h.prefers]; rfl)]
      refine congrArg (none, Party.mk _ ·) (funext fun f => ?_)
      cases f with
      | left =>
        refine Terminal.mark_of_not_mem fun n number => ?_
        rw [List.mem_singleton]
        exact (h.below _ n number).ne
      | right =>
        simp [put, Terminal.mark]
    | left =>
      right
      obtain rfl : e = .right := by revert ne; cases e <;> decide
      refine ⟨rfl, l, rfl, registered, ?_⟩
      unfold attach
      rw [LinkTable.attachPeer_replaces found (by rw [h.prefers]; rfl)]
      refine congrArg (none, Party.mk _ ·) (funext fun f => ?_)
      cases f with
      | left =>
        simp only [put_self, List.mem_singleton, if_neg below.ne']
        refine Terminal.mark_of_not_mem ?_
        rintro n ⟨⟩
        rw [List.mem_singleton]
        exact below.ne'
      | right =>
        rw [put_of_ne _ _ _ _ _ (by decide), registered]
        exact Terminal.mark_of_mem rfl (List.mem_singleton_self _)

/-- What may come of the end of a connection: its link is given up, or it has none any more. -/
theorem finish_cases (h : a.Orderly peer p) (reading : (a.terminal d).reader = .running) :
    (∃ n, a.terminal d = .registered n ∧ a.link peer = some ⟨n, decide (d = p)⟩ ∧
      a.finish peer d = (some (.peerDisconnected peer),
        a.put { a.table with peers := a.table.peers.erase peer } d
          { number := some n, reader := .ended, isOpen := false })) ∨
    (∃ n, a.terminal d = { number := some n, reader := .running, closing := true } ∧
      (∀ l, a.link peer = some l → l.connection ≠ n) ∧
      a.finish peer d =
        (none, a.put a.table d { number := some n, reader := .ended, closing := true })) := by
  have stage := h.stage d
  generalize same : a.terminal d = t at stage reading
  cases stage with
  | untouched => cases reading
  | linked n found =>
    have finish := LinkTable.finish_linked found
    exact .inl ⟨n, rfl, found, by simp [Party.finish, same, Terminal.registered, finish]⟩
  | leaving n reader other =>
    cases reading
    have finish := LinkTable.finish_other other
    exact .inr ⟨n, rfl, other, by simp [Party.finish, same, finish]⟩
  | gone n reader _ stopped =>
    cases reading
    simp at stopped

/-- What comes of a connection that is closed. -/
theorem close_cases (h : a.Orderly peer p) (closing : (a.terminal d).closing = true) :
    ∃ n reader, (a.terminal d).number = some n ∧ (∀ l, a.link peer = some l → l.connection ≠ n) ∧
      (reader = .ended ∨ reader = .stopped) ∧
      a.close d = a.put a.table d { number := some n, reader, isOpen := false } := by
  have stage := h.stage d
  generalize same : a.terminal d = t at stage closing
  cases stage with
  | leaving n reader other =>
    refine ⟨n, if reader = .ended then .ended else .stopped, rfl, other, ?_, ?_⟩
    · split <;> simp
    · simp [Party.close, same, Terminal.close]
  | _ => cases closing

/-- One end of a connection changes, and its link stays what it is. -/
theorem put_same (h : a.Orderly peer p) {t : Terminal} (number : (a.terminal d).number = t.number)
    (stage : t.Stage (a.link peer) (decide (d = p))) : (a.put a.table d t).Orderly peer p := by
  have numbers e : ((a.put a.table d t).terminal e).number = (a.terminal e).number := by
    rw [put_number]
    split
    · next same => rw [same, number]
    · rfl
  refine ⟨h.toNumbered.same rfl numbers, h.prefers, fun e => ?_, fun l found => ?_,
    fun n number => h.kept n (numbers .left ▸ number)⟩
  · by_cases same : e = d
    · rw [same, put_self]
      exact stage
    · rw [put_of_ne _ _ _ _ _ same]
      exact h.stage e
  · obtain ⟨e, number⟩ := h.linked l found
    exact ⟨e, by rw [numbers, number]⟩

theorem close (h : a.Orderly peer p) (closing : (a.terminal d).closing = true) :
    (a.close d).Orderly peer p := by
  obtain ⟨n, reader, number, other, stopped, eq⟩ := h.close_cases closing
  rw [eq]
  exact h.put_same number (.gone n reader other stopped)

/-- The end of the connection that is kept is not seen. -/
theorem finish (h : a.Orderly peer p) (reading : (a.terminal .right).reader = .running) :
    (a.finish peer .right).2.Orderly peer p := by
  obtain ⟨n, registered, found, eq⟩ | ⟨n, leaving, other, eq⟩ := h.finish_cases reading
  · -- the other one is not registered, so that the node has not come to it yet
    have fresh : (a.terminal .left).number = none := by
      refine Option.eq_none_iff_forall_ne_some.2 fun m number => ?_
      have kept := h.kept m number
      rw [found] at kept
      obtain ⟨rfl, -⟩ : n = m ∧ _ := by simpa using kept
      exact absurd (h.distinct _ _ n number (by rw [registered]; rfl)) (by decide)
    have erased : (a.table.peers.erase peer).find? peer = none := by simp
    rw [eq]
    refine ⟨h.toNumbered.same rfl fun e => ?_, h.prefers, fun e => ?_, ?_, ?_⟩
    · cases e with
      | left => rfl
      | right => exact (congrArg Terminal.number registered).symm
    · simp only [link_put, erased]
      cases e with
      | left => exact (h.stage .left).relink (by simp [fresh]) nofun
      | right => exact .gone n _ nofun (.inl rfl)
    · simp only [link_put, erased]
      nofun
    · intro m number
      rw [put_of_ne _ _ _ _ _ (by decide), fresh] at number
      cases number
  · rw [eq]
    exact h.put_same (by rw [leaving]) (.leaving n _ other)

theorem attach (h : a.Orderly peer p) (fresh : (a.terminal d).number = none) :
    (a.attach peer d (decide (d = p))).2.Orderly peer p := by
  -- a link has no number that is still to come
  have below l (found : a.link peer = some l) : l.connection < a.table.next := by
    obtain ⟨e, number⟩ := h.linked l found
    exact h.below e _ number
  obtain ⟨unlinked, eq⟩ | ⟨rfl, ⟨l, found⟩, eq⟩ | ⟨rfl, l, found, registered, eq⟩ :=
    h.attach_cases fresh
  · rw [eq]
    refine ⟨h.toNumbered.grow d rfl (put_number _ _ _ · _), h.prefers, fun e => ?_, ?_, ?_⟩
    · by_cases same : e = d
      · subst same
        simp only [put_self, link_put, find?_register]
        exact .linked _ rfl
      · simp only [put_of_ne _ _ _ _ _ same, link_put, find?_register]
        refine (h.stage e).relink (by simp [unlinked]) ?_
        rintro _ n ⟨⟩ number
        exact (h.below e n number).ne'
    · simp only [link_put, find?_register]
      rintro l ⟨⟩
      exact ⟨d, by rw [put_self]; rfl⟩
    · intro n number
      rw [put_number] at number
      simp only [link_put, find?_register]
      cases d with
      | left =>
        cases number
        rfl
      | right =>
        have kept := h.kept n number
        rw [unlinked] at kept
        cases kept
  · rw [eq]
    refine ⟨h.toNumbered.grow .right rfl (put_number _ _ _ · _), h.prefers, fun e => ?_, ?_, h.kept⟩
    · cases e with
      | left => exact h.stage .left
      | right => exact .leaving _ _ fun l found => (below l found).ne
    · intro l found
      obtain ⟨e, number⟩ := h.linked l found
      refine ⟨e, ?_⟩
      rw [put_number, if_neg]
      · exact number
      · rintro rfl
        rw [fresh] at number
        cases number
  · rw [eq]
    refine ⟨h.toNumbered.grow .left rfl fun e => ?_, h.prefers, fun e => ?_, ?_, ?_⟩
    · cases e with
      | left => rfl
      | right => exact (congrArg Terminal.number registered).symm
    · simp only [link_put, find?_register]
      cases e with
      | left => exact .linked _ rfl
      | right =>
        refine .leaving _ _ ?_
        rintro _ ⟨⟩
        exact (below l found).ne'
    · simp only [link_put, find?_register]
      rintro l ⟨⟩
      exact ⟨.left, rfl⟩
    · rintro n ⟨⟩
      simp only [link_put, find?_register]

/-- A node that comes to a connection neither closes one nor sees the end of one. -/
theorem attach_terminal (h : a.Orderly peer p) (fresh : (a.terminal d).number = none)
    (dialed : Bool) (e : Side) :
    ((a.terminal e).isOpen = false → ((a.attach peer d dialed).2.terminal e).isOpen = false) ∧
      (((a.attach peer d dialed).2.terminal e).reader = .ended →
        (a.terminal e).reader = .ended) := by
  by_cases same : e = d
  · subst same
    have untouched : a.terminal e = {} := by
      have stage := h.stage e
      generalize a.terminal e = t at stage fresh
      cases stage with
      | untouched => rfl
      | _ => cases fresh
    constructor
    · rw [untouched]
      rintro ⟨⟩
    · simp only [Party.attach, put_self, Terminal.mark]
      split <;> rintro ⟨⟩
  · simp only [Party.attach, put_of_ne _ _ _ _ _ same]
    exact ⟨fun closed => closed, fun ended => ended⟩

end Orderly

/-- The node is who it was. -/
theorem attach_home (a : Party) (peer : NodeId) (d : Side) (dialed : Bool) :
    (a.attach peer d dialed).2.table.home = a.table.home := by
  simp only [attach, LinkTable.attachPeer, put_table]
  split
  · rfl
  · split <;> rfl

theorem finish_home (a : Party) (peer : NodeId) (d : Side) :
    (a.finish peer d).2.table.home = a.table.home := by
  unfold finish
  dsimp only
  split
  · rfl
  · simp only [LinkTable.finish, put_table]
    split <;> rfl

end Party

/-! ### Both nodes -/

/-- Two nodes, of which each has opened a connection to the other one. -/
structure Dialing where
  party : Side → Party

namespace Dialing

/-- The id of a node. -/
def id (s : Dialing) (p : Side) : NodeId := (s.party p).table.home

/-- The link of a node to the other one. -/
def link (s : Dialing) (p : Side) : Option Link := (s.party p).link (s.id p.other)

/-- Something that may happen at a node to its end of a connection. -/
inductive Move
  /-- It is told that the other side has been let in. -/
  | attach (p opener : Side)
  | close (p opener : Side)
  /-- It sees the end of the connection. -/
  | finish (p opener : Side)
  deriving DecidableEq

/-- The node at which it happens. -/
def Move.side : Move → Side
  | .attach p _ | .close p _ | .finish p _ => p

/-- It may happen now. -/
def Enabled (s : Dialing) : Move → Prop
  | .attach p d => ((s.party p).terminal d).number = none
  | .close p d => ((s.party p).terminal d).closing = true
  | .finish p d =>
    ((s.party p).terminal d).reader = .running ∧ ((s.party p.other).terminal d).isOpen = false

instance (s : Dialing) : DecidablePred s.Enabled
  | .attach p d => inferInstanceAs (Decidable (((s.party p).terminal d).number = none))
  | .close p d => inferInstanceAs (Decidable (((s.party p).terminal d).closing = true))
  | .finish p d => inferInstanceAs (Decidable (((s.party p).terminal d).reader = .running ∧
      ((s.party p.other).terminal d).isOpen = false))

/-- A node has acted. -/
def act (s : Dialing) (p : Side) (r : Option LinkEvent × Party) : Option LinkEvent × Dialing :=
  (r.1, ⟨Function.update s.party p r.2⟩)

/-- Let it happen. What the node is told comes first. -/
def step (s : Dialing) : Move → Option LinkEvent × Dialing
  | .attach p d => s.act p ((s.party p).attach (s.id p.other) d (decide (d = p)))
  | .close p d => s.act p (none, (s.party p).close d)
  | .finish p d => s.act p ((s.party p).finish (s.id p.other) d)

/-- Let things happen one after the other. -/
def run (s : Dialing) (moves : List Move) : Dialing := moves.foldl (fun s m => (s.step m).2) s

/-- Each of them may happen when its turn comes. -/
def Possible : Dialing → List Move → Prop
  | _, [] => True
  | s, m :: rest => s.Enabled m ∧ Possible (s.step m).2 rest

instance : ∀ (s : Dialing) (moves : List Move), Decidable (s.Possible moves)
  | _, [] => inferInstanceAs (Decidable True)
  | s, m :: rest =>
    have := instDecidablePossible (s.step m).2 rest
    inferInstanceAs (Decidable (s.Enabled m ∧ Possible (s.step m).2 rest))

/-- Nothing may happen any more. -/
def Still (s : Dialing) : Prop := ∀ m, ¬ s.Enabled m

/-- Both connections have been let in, no node has come to them yet, and the nodes have no link to
each other. The node on the left has the smaller id. -/
structure Ready (s : Dialing) : Prop where
  ordered : s.id .left < s.id .right
  untouched : ∀ p d, (s.party p).terminal d = {}
  unlinked : ∀ p, s.link p = none

/-- What always holds of both nodes. -/
structure Orderly (s : Dialing) : Prop where
  party : ∀ p, (s.party p).Orderly (s.id p.other) p

variable {s : Dialing} {p q d : Side} {r : Option LinkEvent × Party}

theorem act_self : (s.act p r).2.party p = r.2 := Function.update_self ..

theorem act_other (ne : q ≠ p) : (s.act p r).2.party q = s.party q := Function.update_of_ne ne ..

theorem act_id (home : r.2.table.home = (s.party p).table.home) (q : Side) :
    (s.act p r).2.id q = s.id q := by
  unfold id
  by_cases same : q = p
  · rw [same, act_self, home]
  · rw [act_other same]

/-- A node is who it was. -/
theorem step_id (s : Dialing) (m : Move) (q : Side) : (s.step m).2.id q = s.id q := by
  cases m with
  | attach p d => exact act_id (Party.attach_home ..) q
  | close p d => exact act_id rfl q
  | finish p d => exact act_id (Party.finish_home ..) q

theorem Orderly.act (h : s.Orderly) (home : r.2.table.home = (s.party p).table.home)
    (orderly : r.2.Orderly (s.id p.other) p) : (s.act p r).2.Orderly where
  party q := by
    rw [act_id home]
    by_cases same : q = p
    · rw [same, act_self]
      exact orderly
    · rw [act_other same]
      exact h.party q

/-- The connection of the node on the left is neither closed nor does it end. -/
theorem Orderly.spares_left (h : s.Orderly) {m : Move} (enabled : s.Enabled m) (p : Side) :
    m ≠ .close p .left ∧ m ≠ .finish p .left := by
  constructor
  · rintro rfl
    obtain fresh | ⟨n, registered, -⟩ := (h.party p).left_cases
    · simp [Enabled, fresh] at enabled
    · simp [Enabled, registered, Terminal.registered] at enabled
  · rintro rfl
    obtain fresh | ⟨n, registered, -⟩ := (h.party p.other).left_cases
    · simp [Enabled, fresh] at enabled
    · simp [Enabled, registered, Terminal.registered] at enabled

/-- **Nodes stay orderly**, whatever happens to them. -/
theorem Orderly.step (h : s.Orderly) {m : Move} (enabled : s.Enabled m) : (s.step m).2.Orderly := by
  cases m with
  | attach p d => exact h.act (Party.attach_home ..) ((h.party p).attach enabled)
  | close p d => exact h.act rfl ((h.party p).close enabled)
  | finish p d =>
    cases d with
    | left => exact absurd rfl (h.spares_left enabled p).2
    | right => exact h.act (Party.finish_home ..) ((h.party p).finish enabled.1)

theorem Orderly.run (h : s.Orderly) {moves : List Move} (possible : s.Possible moves) :
    (s.run moves).Orderly ∧ ∀ p, .close p .left ∉ moves ∧ .finish p .left ∉ moves := by
  induction moves generalizing s with
  | nil => exact ⟨h, by simp⟩
  | cons m moves ih =>
    obtain ⟨orderly, spared⟩ := ih (h.step possible.1) possible.2
    refine ⟨orderly, fun p => ?_⟩
    obtain ⟨close, finish⟩ := h.spares_left possible.1 p
    simp only [List.mem_cons, not_or]
    exact ⟨⟨close.symm, (spared p).1⟩, finish.symm, (spared p).2⟩

theorem Ready.orderly (h : s.Ready) : s.Orderly where
  party p :=
    { below := by simp [h.untouched]
      distinct := by simp [h.untouched]
      prefers := by
        intro d
        have left := h.ordered
        have right := KeyOrder.asymm h.ordered
        unfold LinkTable.prefers
        cases p with
        | left =>
          rw [show (s.party .left).table.home = s.id .left from rfl]
          simp [Side.other, left]
        | right =>
          rw [show (s.party .right).table.home = s.id .right from rfl]
          cases d <;> simp [Side.other, right]
      stage := fun d => by
        rw [h.untouched]
        exact .untouched
      linked := fun l found => by
        have unlinked := h.unlinked p
        rw [link, found] at unlinked
        cases unlinked
      kept := by simp [h.untouched] }

/-- Once nothing may happen any more, a node has registered the connection of the node on the left,
and has no part in the other one. -/
theorem Orderly.still (h : s.Orderly) (still : s.Still) (p : Side) : ∃ n,
    s.link p = some ⟨n, decide (.left = p)⟩ ∧ (s.party p).terminal .left = .registered n ∧
      ((s.party p).terminal .right).Gone := by
  have come d : (s.party p).terminal d ≠ {} := fun fresh =>
    still (.attach p d) (by simp [Enabled, fresh])
  obtain fresh | ⟨n, registered, found⟩ := (h.party p).left_cases
  · exact absurd fresh (come .left)
  refine ⟨n, found, registered, ?_⟩
  have stage := (h.party p).stage .right
  generalize same : (s.party p).terminal .right = t at stage
  cases stage with
  | untouched => exact absurd same (come .right)
  | linked m found' =>
    rw [found] at found'
    obtain ⟨rfl, -⟩ : n = m ∧ _ := by simpa using found'
    exact absurd ((h.party p).distinct .left .right n (by rw [registered]; rfl) (by rw [same]; rfl))
      (by decide)
  | leaving m reader other => exact absurd (by simp [Enabled, same]) (still (.close p .right))
  | gone m reader other stopped => exact ⟨rfl, stopped⟩

/-- The link of a node that has acted. -/
theorem act_link (home : r.2.table.home = (s.party p).table.home) :
    (s.act p r).2.link p = r.2.link (s.id p.other) := by
  rw [link, act_id home, act_self]

theorem step_eq_act (s : Dialing) (m : Move) : ∃ r, s.step m = s.act m.side r := by
  cases m <;> exact ⟨_, rfl⟩

theorem step_party_other (s : Dialing) {m : Move} (other : q ≠ m.side) :
    (s.step m).2.party q = s.party q := by
  obtain ⟨r, eq⟩ := s.step_eq_act m
  rw [eq, act_other other]

/-- Nothing happens to the link of the other node. -/
theorem step_link_other (s : Dialing) {m : Move} (other : q ≠ m.side) :
    (s.step m).2.link q = s.link q := by
  rw [link, step_id, step_party_other s other, link]

/-- A node is told of its link to the other one: what it is told is whether there is one now. -/
theorem Orderly.step_told (h : s.Orderly) {m : Move} (enabled : s.Enabled m) :
    ((s.step m).1 = none ∧ ((s.step m).2.link m.side).isSome = (s.link m.side).isSome) ∨
    ((s.step m).1 = some (.peerConnected (s.id m.side.other)) ∧
      ((s.step m).2.link m.side).isSome = true) ∨
    ((s.step m).1 = some (.peerDisconnected (s.id m.side.other)) ∧
      (s.step m).2.link m.side = none) := by
  cases m with
  | attach p d =>
    have linked : (s.step (.attach p d)).2.link p = _ := act_link (Party.attach_home ..)
    simp only [Move.side, linked]
    obtain ⟨-, eq⟩ | ⟨rfl, -, eq⟩ | ⟨rfl, l, found, -, eq⟩ := (h.party p).attach_cases enabled
    · right
      left
      rw [eq]
      exact ⟨congrArg Prod.fst eq, by simp⟩
    · left
      rw [eq]
      exact ⟨congrArg Prod.fst eq, rfl⟩
    · left
      rw [eq]
      exact ⟨congrArg Prod.fst eq, by simp [link, found]⟩
  | close p d => exact .inl ⟨rfl, congrArg Option.isSome (act_link rfl)⟩
  | finish p d =>
    have linked : (s.step (.finish p d)).2.link p = _ := act_link (Party.finish_home ..)
    simp only [Move.side, linked]
    obtain ⟨n, -, -, eq⟩ | ⟨n, -, -, eq⟩ := (h.party p).finish_cases enabled.1
    · right
      right
      rw [eq]
      exact ⟨congrArg Prod.fst eq, by simp⟩
    · left
      rw [eq]
      exact ⟨congrArg Prod.fst eq, rfl⟩

/-- The end of a connection that is closed stays so, and a node sees an end in one way only. -/
theorem Orderly.step_terminal (h : s.Orderly) {m : Move} (enabled : s.Enabled m) (q d : Side) :
    (((s.party q).terminal d).isOpen = false →
      (((s.step m).2.party q).terminal d).isOpen = false) ∧
    ((((s.step m).2.party q).terminal d).reader = .ended →
      ((s.party q).terminal d).reader = .ended ∨ m = .finish q d) := by
  by_cases other : q ≠ m.side
  · rw [step_party_other s other]
    exact ⟨fun closed => closed, .inl⟩
  · obtain rfl : q = m.side := not_not.1 other
    cases m with
    | attach p e =>
      have party : (s.step (.attach p e)).2.party p = _ := act_self
      obtain ⟨isOpen, reader⟩ := (h.party p).attach_terminal enabled (decide (e = p)) d
      rw [Move.side, party]
      exact ⟨isOpen, fun ended => .inl (reader ended)⟩
    | close p e =>
      have party : (s.step (.close p e)).2.party p = _ := act_self
      rw [Move.side, party, Party.close]
      by_cases same : d = e
      · subst same
        rw [Party.put_self]
        refine ⟨fun _ => rfl, fun ended => .inl ?_⟩
        by_contra running
        simp [Terminal.close, running] at ended
      · rw [Party.put_of_ne _ _ _ _ _ same]
        exact ⟨fun closed => closed, .inl⟩
    | finish p e =>
      have party : (s.step (.finish p e)).2.party p = _ := act_self
      rw [Move.side, party]
      by_cases same : d = e
      · subst same
        refine ⟨fun closed => ?_, fun _ => .inr rfl⟩
        obtain ⟨n, -, -, eq⟩ | ⟨n, leaving, -, -⟩ := (h.party p).finish_cases enabled.1
        · rw [eq, Party.put_self]
        · have closed : ((s.party p).terminal d).isOpen = false := closed
          rw [leaving] at closed
          cases closed
      · obtain ⟨n, -, -, eq⟩ | ⟨n, -, -, eq⟩ := (h.party p).finish_cases enabled.1
        all_goals
          rw [eq, Party.put_of_ne _ _ _ _ _ same]
          exact ⟨fun closed => closed, .inl⟩

/-- **Both nodes keep the connection that the node with the smaller id has opened**, in whatever
order they come to the two connections, close one of them and see the end of one. Neither of them
ever closes that one or sees an end of it; in the end it is the link of each to the other one, and
the other connection is closed at both ends. -/
theorem keeps_first (ready : s.Ready) (moves : List Move) (possible : s.Possible moves) :
    (∀ p, .close p .left ∉ moves ∧ .finish p .left ∉ moves) ∧
      ((s.run moves).Still → ∀ p, ∃ n,
        (s.run moves).link p = some ⟨n, decide (.left = p)⟩ ∧
          ((s.run moves).party p).terminal .left = .registered n ∧
          (((s.run moves).party p).terminal .right).Gone) := by
  obtain ⟨orderly, spared⟩ := ready.orderly.run possible
  exact ⟨spared, orderly.still⟩

/-! ### A small run -/

/-- Two nodes that have not come to their connections yet. -/
def strangers : Dialing where
  party
    | .left => { table := { home := "node-1" } }
    | .right => { table := { home := "node-2" } }

/-- Both come to the connection that is not kept first, and the second node sees its end before it
comes to the other one. -/
def crossed : List Move :=
  [.attach .right .right, .attach .left .right, .attach .left .left, .close .left .right,
    .finish .right .right, .attach .right .left]

/-- A node has nothing left to do. -/
def settled (s : Dialing) (p : Side) : Bool :=
  [Side.left, Side.right].all fun d =>
    !decide (s.Enabled (.attach p d) ∨ s.Enabled (.close p d) ∨ s.Enabled (.finish p d))

theorem still_of_settled (h : ∀ p, s.settled p = true) : s.Still := by
  have never p d :
      ¬ (s.Enabled (.attach p d) ∨ s.Enabled (.close p d) ∨ s.Enabled (.finish p d)) := by
    have settled := List.all_eq_true.1 (h p) d (by cases d <;> decide)
    simpa only [Bool.not_eq_true', decide_eq_false_iff_not] using settled
  rintro (⟨p, d⟩ | ⟨p, d⟩ | ⟨p, d⟩) enabled
  · exact never p d (.inl enabled)
  · exact never p d (.inr (.inl enabled))
  · exact never p d (.inr (.inr enabled))

theorem strangers_ready : strangers.Ready where
  ordered := by decide
  untouched p d := by cases p <;> rfl
  unlinked p := by cases p <;> rfl

theorem crossed_possible : strangers.Possible crossed := by decide +kernel

theorem crossed_still : (strangers.run crossed).Still :=
  still_of_settled fun p => by cases p <;> decide +kernel

/-- In this run the second node has no link to the first one for a while. -/
theorem crossed_keeps_first : strangers.Ready ∧ strangers.Possible crossed ∧
    (strangers.run crossed).Still ∧
    (∀ p, .close p .left ∉ crossed ∧ .finish p .left ∉ crossed) ∧
      ∀ p, ∃ n, (strangers.run crossed).link p = some ⟨n, decide (.left = p)⟩ ∧
        ((strangers.run crossed).party p).terminal .left = .registered n ∧
        (((strangers.run crossed).party p).terminal .right).Gone :=
  have keeps := keeps_first strangers_ready crossed crossed_possible
  ⟨strangers_ready, crossed_possible, crossed_still, keeps.1, keeps.2 crossed_still⟩

end Dialing

end WorkerCluster
