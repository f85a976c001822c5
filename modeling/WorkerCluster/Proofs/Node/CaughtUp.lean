import Mathlib.Data.List.DropRight
import WorkerCluster.Proofs.Node.Meeting

/-!
# What nodes miss of each other

A node that is told that the other one is gone forgets its workers. It has to be told all of them
again.

* `Deed.recent` is what a node has done since it was told so for the last time. A node is
  `Meeting.CaughtUp` if it has heard all of a push since then.
* `caughtUp_iff` is the main statement: it says when a node is up to date once nothing is left to
  happen. `caughtUp_of_undisturbed` is the case in which nothing goes wrong.
* In the run `disturbed` the second node misses what the first one has to say.
-/

namespace WorkerCluster

namespace Deed

/-- The node has noticed that the other one is gone. -/
def isLoss : Deed → Bool
  | .noticed (.peerDisconnected _) => true
  | _ => false

/-- What has been done since the other node was gone for the last time. -/
def recent (l : List Deed) : List Deed := l.rtakeWhile (!·.isLoss)

/-- What had been done until then. -/
def stale (l : List Deed) : List Deed := l.rdropWhile (!·.isLoss)

theorem mem_heard {l : List Deed} {note : Note} :
    note ∈ l.filterMap note? ↔ .heard note ∈ l := by
  rw [List.mem_filterMap]
  constructor
  · rintro ⟨_ | other, mem, same⟩
    · cases same
    · obtain rfl : other = note := Option.some.inj same
      exact mem
  · exact fun mem => ⟨_, mem, rfl⟩

theorem stale_append_recent (l : List Deed) : stale l ++ recent l = l :=
  List.rdropWhile_append_rtakeWhile ..

end Deed

namespace Meeting

/-! ### When nothing is left to happen -/

/-- Nothing is left to happen but what the nodes begin. -/
def Still (s : Meeting) : Prop := ∀ m, ¬ s.Enabled m

/-- The node has followed all messages of a push of the other one since that one was gone for the
last time. -/
def CaughtUp (s : Meeting) (p : Side) : Prop :=
  ∃ k n, (s.pushes p.other)[k]? = some n ∧
    ∀ note ∈ Note.ofPush n k, .heard note ∈ Deed.recent (s.done p)

variable {s t : Meeting} {p d : Side}

theorem Still.outbox (still : s.Still) (p : Side) : s.outbox p = [] :=
  not_not.1 (still (.send p))

theorem Still.events (still : s.Still) (p : Side) : s.events p = [] :=
  not_not.1 fun some => still (.notice p) ⟨still.outbox p, some⟩

theorem Still.tasks (still : s.Still) (p : Side) : s.tasks p = [] :=
  List.eq_nil_of_length_eq_zero <| Nat.eq_zero_of_not_pos fun some =>
    still (.hear p 0) ⟨still.outbox p, some⟩

theorem Still.flight (still : s.Still)
    (running : ((s.dialing.party p).terminal d).reader = .running) : s.flight p d = [] :=
  not_not.1 fun some => still (.read p d) ⟨running, some⟩

/-- Nothing happens to the connections either. -/
theorem Still.dialing (still : s.Still) : s.dialing.Still := by
  intro m enabled
  refine still (.link m) ?_
  cases m with
  | attach p d => exact enabled
  | close p d => exact enabled
  | finish p d => exact ⟨enabled, still.flight enabled.1⟩

namespace Sound

/-- Nothing is left on the connection that is kept. Something may be left on the other one, which
has been closed, if what reads from it has been stopped. -/
theorem still_flight (h : s.Sound) (still : s.Still) (p : Side) :
    s.flight p .left = [] ∧ (s.flight p .right ≠ [] →
      ((s.dialing.party p).terminal .right).reader = .stopped) := by
  obtain ⟨n, -, registered, -, stopped⟩ := h.orderly.still still.dialing p
  refine ⟨still.flight ?_, fun some => stopped.resolve_left fun ended => ?_⟩
  · rw [registered]
    rfl
  · exact some (h.drained p .right ended).1

/-- The node has been told that it is connected, and all that it has pushed then has gone to a
link. -/
theorem still_push (h : s.Sound) (still : s.Still) (p : Side) :
    ∃ n, (s.pushes p).getLast? = some n ∧
      ∀ note ∈ Note.ofPush n ((s.pushes p).length - 1), note ∉ s.dropped p := by
  obtain ⟨n, linked, -, -⟩ := h.orderly.still still.dialing p
  refine h.complete p (still.events p) ((h.linked p).1 ?_)
  rw [linked]
  rfl

/-- All messages of all pushes of the other node have been followed, or are lost. -/
theorem still_accounted (h : s.Sound) (still : s.Still) (p : Side) :
    ((s.dropped p.other ++ (s.flight p .right ++
      ((Deed.stale (s.done p)).filterMap Deed.note? ++
        (Deed.recent (s.done p)).filterMap Deed.note?))).filter (·.push.isSome)).Perm
      (Note.ofPushes (s.pushes p.other)) := by
  have accounted := h.accounted p.other
  rw [whereabouts, still.outbox, Side.other_other, (h.still_flight still p).1, still.tasks,
    heard, ← Deed.stale_append_recent (s.done p)] at accounted
  simpa using accounted

/-- A message of a push has been followed lately exactly if it is not lost, and has not been
followed before. -/
theorem still_recent (h : s.Sound) (still : s.Still) {k : Nat} {n : Node} {note : Note}
    (pushed : (s.pushes p.other)[k]? = some n) (mem : note ∈ Note.ofPush n k) :
    .heard note ∈ Deed.recent (s.done p) ↔ note ∉ s.dropped p.other ∧ note ∉ s.flight p .right ∧
      .heard note ∉ Deed.stale (s.done p) := by
  have accounted := h.still_accounted still p
  have tagged : note.push.isSome = true := by
    rw [Note.push_of_mem mem]
    rfl
  have somewhere := accounted.mem_iff.2 (Note.mem_ofPushes.2 ⟨k, n, pushed, mem⟩)
  have once := accounted.nodup_iff.2 (Note.nodup_ofPushes _)
  simp only [List.filter_append, List.nodup_append', List.disjoint_append_right] at once
  obtain ⟨-, ⟨-, ⟨-, -, stale⟩, -, flight⟩, -, -, dropped⟩ := once
  have kept {l : List Note} (mem : note ∈ l) : note ∈ l.filter (·.push.isSome) :=
    List.mem_filter.2 ⟨mem, tagged⟩
  rw [← Deed.mem_heard, ← Deed.mem_heard]
  constructor
  · intro recent
    exact ⟨fun mem => dropped (kept mem) (kept recent), fun mem => flight (kept mem) (kept recent),
      fun mem => stale (kept mem) (kept recent)⟩
  · rintro ⟨dropped, flight, stale⟩
    simpa [dropped, flight, stale] using (List.mem_filter.1 somewhere).1

end Sound

/-- A node that has never been told that the other one is gone is up to date, unless something is
left on the connection that has been closed. -/
theorem caughtUp_of_undisturbed (ready : s.Ready) (run : s.Run t) (still : t.Still)
    (read : t.flight p .right = []) (never : ∀ deed ∈ t.done p, deed.isLoss = false) :
    t.CaughtUp p := by
  have h := run.sound ready.sound
  obtain ⟨n, last, kept⟩ := h.still_push still p.other
  rw [List.getLast?_eq_getElem?] at last
  have stale : Deed.stale (t.done p) = [] := by
    rw [Deed.stale, List.rdropWhile_eq_nil_iff]
    intro deed mem
    rw [never deed mem]
    rfl
  refine ⟨_, n, last, fun note mem => (h.still_recent still last mem).2 ⟨kept note mem, ?_, ?_⟩⟩
  · rw [read]
    exact List.not_mem_nil
  · rw [stale]
    exact List.not_mem_nil

/-- **When a node is up to date.** Two nodes have opened connections to each other, both have been
told all about their links, and nothing is left to be sent or read. Each has a last push, all of
which has gone to a link. The only messages that may be left are on the connection that has been
closed, if what reads from it has been stopped. A node is up to date exactly if there is a push of
the other one of which nothing was said without a link, nothing is left there, and nothing was
followed before the other one was gone for the last time. -/
theorem caughtUp_iff (ready : s.Ready) (run : s.Run t) (still : t.Still) (p : Side) :
    (∃ n, (t.pushes p.other).getLast? = some n ∧
      ∀ note ∈ Note.ofPush n ((t.pushes p.other).length - 1), note ∉ t.dropped p.other) ∧
    t.flight p .left = [] ∧
    (t.flight p .right ≠ [] → ((t.dialing.party p).terminal .right).reader = .stopped) ∧
    (t.CaughtUp p ↔ ∃ k n, (t.pushes p.other)[k]? = some n ∧ ∀ note ∈ Note.ofPush n k,
      note ∉ t.dropped p.other ∧ note ∉ t.flight p .right ∧
        .heard note ∉ Deed.stale (t.done p)) := by
  have h := run.sound ready.sound
  obtain ⟨left, right⟩ := h.still_flight still p
  refine ⟨h.still_push still p.other, left, right, ?_⟩
  unfold CaughtUp
  refine exists_congr fun k => exists_congr fun n => and_congr_right fun pushed => ?_
  exact forall_congr' fun note => forall_congr' fun mem => h.still_recent still pushed mem

/-! ### Small runs -/

/-- Let things happen one after the other. -/
def play (s : Meeting) (moves : List Move) : Meeting := moves.foldl make s

/-- Each of them may happen when its turn comes. -/
def Possible : Meeting → List Move → Prop
  | _, [] => True
  | s, m :: rest => s.Enabled m ∧ Possible (s.make m) rest

instance : ∀ (s : Meeting) (moves : List Move), Decidable (s.Possible moves)
  | _, [] => inferInstanceAs (Decidable True)
  | s, m :: rest =>
    have := instDecidablePossible (s.make m) rest
    inferInstanceAs (Decidable (s.Enabled m ∧ Possible (s.make m) rest))

theorem Run.trans {u : Meeting} (first : Run s t) (second : Run t u) : Run s u := by
  induction second with
  | refl => exact first
  | make _ m enabled ih => exact ih.make m enabled
  | act _ p quiet acts ih => exact ih.act p quiet acts

theorem run_play {moves : List Move} (possible : s.Possible moves) : Run s (s.play moves) := by
  induction moves generalizing s with
  | nil => exact .refl
  | cons m moves ih => exact (Run.refl.make m possible.1).trans (ih possible.2)

/-- Nothing is left for a node to do. -/
def settled (s : Meeting) (p : Side) : Bool :=
  s.dialing.settled p && (s.outbox p).isEmpty && (s.events p).isEmpty && (s.tasks p).isEmpty &&
    (s.flight p .left).isEmpty && (s.flight p .right).isEmpty

theorem still_of_settled (h : ∀ p, s.settled p = true) : s.Still := by
  simp only [settled, Bool.and_eq_true, List.isEmpty_iff] at h
  rintro (m | p | p | ⟨p, d⟩ | ⟨p, i⟩) enabled
  · exact Dialing.still_of_settled (fun p => (h p).1.1.1.1.1) m (enabled_link enabled)
  · exact enabled.2 (h p).1.1.1.2
  · exact enabled (h p).1.1.1.1.2
  · cases d with
    | left => exact enabled.2 (h p).1.2
    | right => exact enabled.2 (h p).2
  · have below := enabled.2
    rw [(h p).1.1.2] at below
    exact absurd below (Nat.not_lt_zero i)

/-- A node is told of its link and says all that it holds, and the other one follows it. -/
def greeting (p opener : Side) : List Move :=
  .notice p :: List.replicate 5 (.send p) ++ List.replicate 5 (.read p.other opener) ++
    List.replicate 5 (.hear p.other 0)

/-- Two nodes that have been given different tasks. -/
def strangers : Meeting where
  dialing := .strangers
  node := Pair.apart.node

/-- Both nodes come to the connection that is kept before they come to the other one. -/
def plain : List Move :=
  [.link (.attach .left .left), .link (.attach .right .left)] ++ greeting .left .left ++
    greeting .right .left ++
    [.link (.attach .left .right), .link (.attach .right .right), .link (.close .left .right),
      .link (.close .right .right)]

/-- Both nodes come to the other connection first. The second node has heard all from the first one
when that one comes to the connection that is kept. The second node sees the end of the other one
before it comes to that one. -/
def disturbed : List Move :=
  [.link (.attach .left .right), .link (.attach .right .right)] ++ greeting .left .right ++
    greeting .right .right ++
    [.link (.attach .left .left), .link (.close .left .right), .link (.finish .right .right),
      .notice .right, .link (.attach .right .left)] ++ greeting .right .left

theorem strangers_ready : strangers.Ready where
  links := Dialing.strangers_ready
  idle p := by cases p <;> exact ⟨rfl, rfl⟩
  configured p := by cases p <;> decide
  untouched := rfl

theorem plain_possible : strangers.Possible plain := by decide +kernel

theorem disturbed_possible : strangers.Possible disturbed := by decide +kernel

theorem plain_still : (strangers.play plain).Still :=
  still_of_settled fun p => by cases p <;> decide +kernel

theorem disturbed_still : (strangers.play disturbed).Still :=
  still_of_settled fun p => by cases p <;> decide +kernel

/-- Nothing is lost here. -/
theorem plain_caughtUp : strangers.Ready ∧ strangers.Run (strangers.play plain) ∧
    (strangers.play plain).Still ∧ ∀ p, (strangers.play plain).CaughtUp p := by
  refine ⟨strangers_ready, run_play plain_possible, plain_still, fun p => ?_⟩
  obtain ⟨⟨n, last, kept⟩, -, -, caughtUp⟩ :=
    caughtUp_iff strangers_ready (run_play plain_possible) plain_still p
  have flight : (strangers.play plain).flight p .right = [] := by
    cases p <;> exact List.isEmpty_iff.1 (by decide +kernel)
  have stale : Deed.stale ((strangers.play plain).done p) = [] := by
    cases p <;> exact List.isEmpty_iff.1 (by decide +kernel)
  rw [List.getLast?_eq_getElem?] at last
  refine caughtUp.2 ⟨_, n, last, fun note mem => ⟨kept note mem, ?_, ?_⟩⟩
  · rw [flight]
    exact List.not_mem_nil
  · rw [stale]
    exact List.not_mem_nil

/-- **A node may miss what the other one has to say.** Both nodes are connected and have been told
all about their links, and nothing is left to be sent or read; but the second one has heard nothing
since it was told that the first one was gone. -/
theorem disturbed_not_caughtUp : strangers.Ready ∧ strangers.Run (strangers.play disturbed) ∧
    (strangers.play disturbed).Still ∧
    (∀ p, ((strangers.play disturbed).dialing.link p).isSome = true) ∧
    ¬ (strangers.play disturbed).CaughtUp .right := by
  refine ⟨strangers_ready, run_play disturbed_possible, disturbed_still, fun p => ?_, ?_⟩
  · cases p <;> decide +kernel
  · rintro ⟨k, n, -, recent⟩
    have silent :
        (Deed.recent ((strangers.play disturbed).done .right)).filterMap Deed.note? = [] :=
      List.isEmpty_iff.1 (by decide +kernel)
    have workers : ⟨.workers n.supervisor.ownedRecords, some k⟩ ∈ Note.ofPush n k :=
      List.mem_map_of_mem (by simp [Node.introduction])
    have heard := Deed.mem_heard.2 (recent _ workers)
    rw [silent] at heard
    cases heard

end Meeting

end WorkerCluster
