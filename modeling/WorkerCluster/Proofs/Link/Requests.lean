import Mathlib.Tactic
import WorkerCluster.Link.Switchboard

/-!
# What becomes of requests

A node asks its peers and waits for answers, while packets arrive, time passes, links change, and
the node may give up all that it waits for.

* `Switchboard.Step` is any of this, `Switchboard.after` is what a run of steps leads to.
* `Requests.outcomes` is what has become of a request. `Switchboard.fate` says what should have
  become of it, given the steps that follow it.
* `Step.waiting_iff` and `Step.outcomes_eq` say what any step means for a request that it does not
  send, and `requests_ask` what it means for the one that it sends.
* `resolves_once` is the main statement.
-/

namespace WorkerCluster

/-! ### Requests -/

namespace Requests

variable {r : Requests} {id other : Uuid} {outcome : Except TransportError Packet}

/-- What has become of a request, in order. -/
def outcomes (r : Requests) (id : Uuid) : List (Except TransportError Packet) :=
  (r.settled.filter (·.1 = id)).map (·.2)

theorem settle_of_mem (waits : id ∈ r.waiting) : r.settle id outcome =
    { waiting := r.waiting.filter (· != id), settled := r.settled ++ [(id, outcome)] } := by
  simp [settle, waits]

theorem settle_of_not_mem (absent : id ∉ r.waiting) : r.settle id outcome = r := by
  simp [settle, absent]

theorem mem_settle : other ∈ (r.settle id outcome).waiting ↔ other ∈ r.waiting ∧ other ≠ id := by
  by_cases waits : id ∈ r.waiting
  · simp [settle_of_mem waits]
  · rw [settle_of_not_mem waits]
    exact ⟨fun there => ⟨there, fun same => waits (same ▸ there)⟩, And.left⟩

theorem outcomes_settle : (r.settle id outcome).outcomes other =
    r.outcomes other ++ if id = other ∧ id ∈ r.waiting then [outcome] else [] := by
  by_cases waits : id ∈ r.waiting
  · rw [settle_of_mem waits]
    by_cases same : id = other
    · subst same
      simp [outcomes, waits]
    · simp [outcomes, same]
  · simp [settle_of_not_mem waits, waits]

theorem nodup_settle (h : r.waiting.Nodup) : (r.settle id outcome).waiting.Nodup := by
  by_cases waits : id ∈ r.waiting
  · rw [settle_of_mem waits]
    exact h.filter _
  · rwa [settle_of_not_mem waits]

/-- A request under an id that no other one has either waits from now on, or it fails at once. -/
theorem ask_of_not_mem (fresh : id ∉ r.waiting) (node : NodeId) (linked : Bool) :
    r.ask id node linked =
      if linked then { r with waiting := r.waiting ++ [id] }
      else { r with settled := r.settled ++ [(id, .error (.notConnected node))] } := by
  have others : r.waiting.filter (· != id) = r.waiting :=
    List.filter_eq_self.2 fun other waits => by
      simpa using fun same : other = id => fresh (same ▸ waits)
  cases linked <;> simp [ask, settle, fresh, others]

theorem outcomes_abandon (h : r.waiting.Nodup) : r.abandon.outcomes id =
    r.outcomes id ++ if id ∈ r.waiting then [.error .closed] else [] := by
  have once : r.waiting.filter (fun other => decide (other = id)) =
      if id ∈ r.waiting then [id] else [] := by
    rw [List.filter_eq]
    split
    · next waits => rw [List.count_eq_one_of_mem h waits]; rfl
    · next absent => rw [List.count_eq_zero_of_not_mem absent]; rfl
  unfold abandon outcomes
  rw [List.filter_append, List.map_append, List.filter_map]
  simp only [Function.comp_def, once]
  split <;> rfl

end Requests

namespace Switchboard

variable {η : Type} {b : Switchboard η} {id : Uuid} {node : NodeId} {taken : Bool}

/-! ### Steps -/

/-- What may happen at a switchboard. -/
inductive Step (η : Type)
  /-- A request is sent, and the writing end of the link, if there is one, takes it or is closed. -/
  | ask (node : NodeId) (id : Uuid) (taken : Bool)
  /-- A packet arrives from someone. -/
  | arrive (origin : Origin) (p : Packet)
  /-- The time of a request is over. -/
  | expire (id : Uuid)
  /-- All links are closed. -/
  | shutdown
  | register (channel : String) (h : η)
  | move (m : LinkTable.Move)

/-- Take a step. -/
def Step.act (b : Switchboard η) : Step η → Switchboard η
  | .ask node id true => b.ask node id
  | .ask node id false => { b with requests := b.requests.ask id node false }
  | .arrive _ p => (b.receive p).2
  | .expire id => b.expire id
  | .shutdown => b.shutdown.2
  | .register channel h => b.register channel h
  | .move m => (b.move m).2

/-- What steps lead to, one after the other. -/
def after (b : Switchboard η) (steps : List (Step η)) : Switchboard η := steps.foldl Step.act b

/-- The id of the request that is sent. -/
def Step.asks? : Step η → Option Uuid
  | .ask _ id _ => some id
  | _ => none

/-- The ids of the requests that are sent. -/
def asked (steps : List (Step η)) : List Uuid := steps.filterMap Step.asks?

/-- Who comes to handle which channel. -/
def Step.registers? : Step η → Option (String × η)
  | .register channel h => some (channel, h)
  | _ => none

/-- Those who have come to handle a channel, in order. -/
def registered (channel : String) (steps : List (Step η)) : List η :=
  ((steps.filterMap Step.registers?).filter (·.1 = channel)).map (·.2)

/-- What becomes of a request that waits when a step is taken, if anything does. -/
def Step.settles? (id : Uuid) : Step η → Option (Except TransportError Packet)
  | .arrive _ p => if p.id = some id then some (.ok p) else none
  | .expire other => if other = id then some (.error .timeout) else none
  | .shutdown => some (.error .closed)
  | .ask .. | .register .. | .move _ => none

/-- What becomes of a request that is sent to a node in the course of the steps that follow, if
anything does: it fails at once if it cannot go out, and otherwise the first step that settles it
counts. -/
def fate (b : Switchboard η) (node : NodeId) (id : Uuid) (taken : Bool) (later : List (Step η)) :
    Option (Except TransportError Packet) :=
  if b.isLinked (.peer node) && taken then later.findSome? (Step.settles? id)
  else some (.error (.notConnected node))

theorem after_concat (b : Switchboard η) (steps : List (Step η)) (s : Step η) :
    b.after (steps ++ [s]) = s.act (b.after steps) := by simp [after]

theorem asked_concat (steps : List (Step η)) (s : Step η) :
    asked (steps ++ [s]) = asked steps ++ s.asks?.toList := by
  cases asks : s.asks? <;> simp [asked, asks]

/-! ### Single steps -/

@[simp] theorem requests_shutdown :
    (Step.act b .shutdown).requests = b.requests.abandon := rfl

@[simp] theorem requests_register (channel : String) (h : η) :
    (Step.act b (.register channel h)).requests = b.requests := rfl

@[simp] theorem requests_move (m : LinkTable.Move) :
    (Step.act b (.move m)).requests = b.requests := rfl

/-- What becomes of the request that a step sends. -/
theorem requests_ask (fresh : id ∉ b.requests.waiting) :
    (Step.act b (.ask node id taken)).requests =
      if b.isLinked (.peer node) && taken then
        { b.requests with waiting := b.requests.waiting ++ [id] }
      else
        { b.requests with
          settled := b.requests.settled ++ [(id, .error (.notConnected node))] } := by
  cases taken with
  | true =>
    rw [Bool.and_true]
    exact Requests.ask_of_not_mem fresh node _
  | false =>
    rw [Bool.and_false]
    exact Requests.ask_of_not_mem fresh node false

/-- A step sends a request under an id under which none waits, if it sends one. -/
def Step.Fresh (b : Switchboard η) (s : Step η) : Prop :=
  ∀ id, s.asks? = some id → id ∉ b.requests.waiting

theorem Step.nodup_waiting {s : Step η} (fresh : s.Fresh b) (h : b.requests.waiting.Nodup) :
    (s.act b).requests.waiting.Nodup := by
  cases s with
  | ask node id taken =>
    rw [requests_ask (fresh id rfl)]
    split
    · simpa using h.concat (fresh id rfl)
    · exact h
  | arrive origin p =>
    show (b.requests.arrive p).2.waiting.Nodup
    unfold Requests.arrive
    split
    · exact Requests.nodup_settle h
    · exact h
  | expire id => exact Requests.nodup_settle h
  | shutdown => exact .nil
  | register channel h' => exact h
  | move m => exact h

/-- Requests wait on as long as nothing settles them. -/
theorem Step.waiting_iff {s : Step η} (fresh : s.Fresh b) (other : s.asks? ≠ some id) :
    id ∈ (s.act b).requests.waiting ↔ id ∈ b.requests.waiting ∧ s.settles? id = none := by
  cases s with
  | ask node sent taken =>
    have : id ≠ sent := fun same => other (congrArg some same.symm)
    rw [requests_ask (fresh sent rfl)]
    split <;> simp [settles?, this]
  | arrive origin p =>
    show id ∈ (b.requests.arrive p).2.waiting ↔ _
    unfold Requests.arrive
    cases carried : p.id with
    | none => simp [settles?, carried]
    | some answered => simp [settles?, carried, Requests.mem_settle, eq_comm]
  | expire late =>
    show id ∈ (b.requests.settle late _).waiting ↔ _
    simp [settles?, Requests.mem_settle, eq_comm]
  | shutdown => simp [settles?, Requests.abandon]
  | register channel h => simp [settles?]
  | move m => simp [settles?]

/-- A step that settles a request that waits is what becomes of it, and nothing else becomes of any
request. -/
theorem Step.outcomes_eq {s : Step η} (fresh : s.Fresh b) (h : b.requests.waiting.Nodup)
    (other : s.asks? ≠ some id) :
    (s.act b).requests.outcomes id = b.requests.outcomes id ++
      if id ∈ b.requests.waiting then (s.settles? id).toList else [] := by
  cases s with
  | ask node sent taken =>
    have : sent ≠ id := fun same => other (congrArg some same)
    rw [requests_ask (fresh sent rfl)]
    split <;> simp [settles?, Requests.outcomes, this]
  | arrive origin p =>
    show (b.requests.arrive p).2.outcomes id = _
    unfold Requests.arrive
    cases carried : p.id with
    | none => simp [settles?, carried]
    | some answered =>
      simp only [settles?, carried, Requests.outcomes_settle, Option.some.injEq]
      by_cases same : answered = id <;> simp [same]
  | expire late =>
    show (b.requests.settle late _).outcomes id = _
    rw [Requests.outcomes_settle]
    by_cases same : late = id <;> simp [settles?, same]
  | shutdown => exact Requests.outcomes_abandon h
  | register channel h => simp [settles?]
  | move m => simp [settles?]

/-! ### Runs -/

variable {s : Step η} {steps past later : List (Step η)} {ids : List Uuid}

/-- What holds of requests if those that have been sent have different ids. -/
structure Orderly (r : Requests) (ids : List Uuid) : Prop where
  nodup : r.waiting.Nodup
  sent : ∀ id ∈ r.waiting, id ∈ ids
  untold : ∀ id ∉ ids, r.outcomes id = []

theorem Orderly.fresh (h : Orderly b.requests ids) (distinct : (ids ++ s.asks?.toList).Nodup) :
    s.Fresh b := fun id asks waits =>
  (List.nodup_append.1 distinct).2.2 id (h.sent id waits) id (by simp [asks]) rfl

theorem Orderly.act (h : Orderly b.requests ids) (distinct : (ids ++ s.asks?.toList).Nodup) :
    Orderly (s.act b).requests (ids ++ s.asks?.toList) where
  nodup := s.nodup_waiting (h.fresh distinct) h.nodup
  sent id waits := by
    by_cases asks : s.asks? = some id
    · simp [asks]
    · have before := ((s.waiting_iff (h.fresh distinct) asks).1 waits).1
      exact List.mem_append_left _ (h.sent id before)
  untold id unsent := by
    rw [List.mem_append, not_or, Option.mem_toList] at unsent
    have absent : id ∉ b.requests.waiting := fun waits => unsent.1 (h.sent id waits)
    rw [s.outcomes_eq (h.fresh distinct) h.nodup unsent.2, h.untold id unsent.1, if_neg absent]
    rfl

theorem orderly_after (idle : b.requests = {}) (distinct : (asked steps).Nodup) :
    Orderly (b.after steps).requests (asked steps) := by
  induction steps using List.reverseRecOn with
  | nil =>
    have start : (b.after []).requests = {} := idle
    rw [start]
    exact ⟨.nil, nofun, fun _ _ => rfl⟩
  | append_singleton steps s ih =>
    rw [asked_concat] at distinct ⊢
    rw [after_concat]
    exact (ih distinct.of_append_left).act distinct

theorem fate_concat (b : Switchboard η) (node : NodeId) (id : Uuid) (taken : Bool)
    (later : List (Step η)) (s : Step η) :
    b.fate node id taken (later ++ [s]) = (b.fate node id taken later).or (s.settles? id) := by
  unfold fate
  split
  · simp [List.findSome?_append]
  · rfl

/-- What becomes of a request is its fate, and it waits as long as there is none. -/
theorem outcomes_after (idle : b.requests = {})
    (distinct : (asked (past ++ .ask node id taken :: later)).Nodup) :
    let now := (b.after (past ++ .ask node id taken :: later)).requests
    let fate := (b.after past).fate node id taken later
    now.outcomes id = fate.toList ∧ (id ∈ now.waiting ↔ fate = none) := by
  induction later using List.reverseRecOn with
  | nil =>
    rw [asked_concat] at distinct
    have before := orderly_after idle distinct.of_append_left
    have unsent : id ∉ asked past := fun there =>
      (List.nodup_append.1 distinct).2.2 id there id (by simp [Step.asks?]) rfl
    have untold := before.untold id unsent
    have absent : id ∉ (b.after past).requests.waiting := fun waits =>
      unsent (before.sent id waits)
    rw [after_concat, requests_ask absent]
    unfold fate
    split
    · simpa [Requests.outcomes] using untold
    · have : (b.after past).requests.settled.filter (fun other => decide (other.1 = id)) = [] :=
        List.map_eq_nil_iff.1 untold
      simp [Requests.outcomes, this, absent]
  | append_singleton later s ih =>
    rw [← List.cons_append, ← List.append_assoc, asked_concat] at distinct
    rw [← List.cons_append, ← List.append_assoc, after_concat]
    have now := orderly_after idle distinct.of_append_left
    have fresh := now.fresh distinct
    have other : s.asks? ≠ some id := fun asks =>
      (List.nodup_append.1 distinct).2.2 id (by simp [asked, Step.asks?]) id (by simp [asks]) rfl
    obtain ⟨outcomes, waits⟩ := ih distinct.of_append_left
    dsimp only
    rw [fate_concat, s.outcomes_eq fresh now.nodup other, s.waiting_iff fresh other, outcomes]
    simp only [waits]
    cases (b.after past).fate node id taken later <;> simp

/-- A request that has been sent waits as long as nothing has become of it. -/
theorem waiting_after (idle : b.requests = {}) (distinct : (asked steps).Nodup) :
    id ∈ (b.after steps).requests.waiting ↔
      id ∈ asked steps ∧ (b.after steps).requests.outcomes id = [] := by
  have still : id ∈ asked steps → (id ∈ (b.after steps).requests.waiting ↔
      (b.after steps).requests.outcomes id = []) := by
    intro sent
    obtain ⟨s, there, asks⟩ := List.mem_filterMap.1 sent
    obtain ⟨node, taken, rfl⟩ : ∃ node taken, s = .ask node id taken := by
      cases s with
      | ask node _ taken => exact ⟨node, taken, by rw [← Option.some.inj asks]⟩
      | _ => cases asks
    obtain ⟨past, later, rfl⟩ := List.append_of_mem there
    obtain ⟨outcomes, waits⟩ := outcomes_after idle distinct
    rw [waits, outcomes, Option.toList_eq_nil_iff]
  constructor
  · intro waits
    have sent := (orderly_after idle distinct).sent id waits
    exact ⟨sent, (still sent).1 waits⟩
  · rintro ⟨sent, nothing⟩
    exact (still sent).2 nothing

/-- There wait as many requests as have been sent and have come to nothing yet. -/
theorem length_waiting_after (idle : b.requests = {}) (distinct : (asked steps).Nodup) :
    (b.after steps).requests.waiting.length =
      (asked steps).countP fun id => ((b.after steps).requests.outcomes id).isEmpty := by
  rw [List.countP_eq_length_filter]
  refine ((List.perm_ext_iff_of_nodup (orderly_after idle distinct).nodup
    (distinct.filter _)).2 fun id => ?_).length_eq
  rw [waiting_after idle distinct, List.mem_filter, List.isEmpty_iff]

/-! ### Packets that arrive -/

/-- A packet completes the request that waits under an id, and nobody else gets it. -/
structure Completes (b : Switchboard η) (p : Packet) (id : Uuid) : Prop where
  carries : p.id = some id
  nobody : (b.receive p).1 = []
  settled : (b.receive p).2.requests.settled = b.requests.settled ++ [(id, .ok p)]
  waiting : b.requests.waiting.Perm (id :: (b.receive p).2.requests.waiting)

/-- A packet completes no request, and some get it. -/
structure Handed (b : Switchboard η) (p : Packet) (handlers : List η) : Prop where
  answers : ∀ id ∈ b.requests.waiting, p.id ≠ some id
  requests : (b.receive p).2.requests = b.requests
  all : (b.receive p).1 = handlers

/-- A packet that arrives completes a request or goes to all who handle its channel. -/
theorem completes_or_handed (h : b.requests.waiting.Nodup) (p : Packet) :
    (∃ id, b.Completes p id) ∨ b.Handed p (b.handlersOf p.channel) := by
  cases carried : p.id with
  | none =>
    refine .inr ⟨by simp [carried], ?_, ?_⟩ <;> simp [receive, Requests.arrive, carried]
  | some id =>
    by_cases waits : id ∈ b.requests.waiting
    · refine .inl ⟨id, carried, ?_, ?_, ?_⟩
      · simp [receive, Requests.arrive, carried, waits]
      · simp [receive, Requests.arrive, carried, Requests.settle_of_mem waits]
      · simp only [receive, Requests.arrive, carried, Requests.settle_of_mem waits]
        rw [← h.erase_eq_filter]
        exact List.perm_cons_erase waits
    · refine .inr ⟨fun other there same => ?_, ?_, ?_⟩
      · obtain rfl := Option.some.inj (carried.symm.trans same)
        exact waits there
      · simp [receive, Requests.arrive, carried, Requests.settle_of_not_mem waits]
      · simp [receive, Requests.arrive, carried, waits]

theorem Step.handlers_act (b : Switchboard η) (s : Step η) :
    (s.act b).handlers = b.handlers ++ s.registers?.toList := by
  cases s with
  | ask node id taken => cases taken <;> exact (List.append_nil _).symm
  | register channel h => rfl
  | _ => exact (List.append_nil _).symm

theorem handlers_after (b : Switchboard η) (steps : List (Step η)) :
    (b.after steps).handlers = b.handlers ++ steps.filterMap Step.registers? := by
  induction steps using List.reverseRecOn with
  | nil => exact (List.append_nil _).symm
  | append_singleton steps s ih =>
    rw [after_concat, s.handlers_act, ih, List.filterMap_append, List.append_assoc]
    cases registers : s.registers? <;> simp [registers]

theorem handlersOf_after (none : b.handlers = []) (steps : List (Step η)) (channel : String) :
    (b.after steps).handlersOf channel = registered channel steps := by
  simp [handlersOf, registered, handlers_after, none]

/-- **Every request comes to one end, and every packet finds its way.** Requests with different ids
are sent while packets arrive, time passes, links change and the switchboard is shut down. Then at
any time all that has become of a request is its fate, and it waits as long as there is none. There
wait as many as have been sent and have come to nothing yet. A packet that arrives either completes
one of those that wait, and nobody else gets it, or it completes none, and all get it that have come
to handle its channel so far. -/
theorem resolves_once (identity : NodeIdentity) (secret : String) (allowed : List NodeId)
    (steps : List (Step η)) (distinct : (asked steps).Nodup) :
    let start : Switchboard η := new identity secret allowed
    let now := start.after steps
    (∀ past node id taken later, steps = past ++ .ask node id taken :: later →
      let fate := (start.after past).fate node id taken later
      now.requests.outcomes id = fate.toList ∧ (id ∈ now.requests.waiting ↔ fate = none)) ∧
    now.requests.waiting.length =
      (asked steps).countP (fun id => (now.requests.outcomes id).isEmpty) ∧
    ∀ p, (∃ id, now.Completes p id) ∨ now.Handed p (registered p.channel steps) := by
  intro start now
  have idle : start.requests = {} := rfl
  refine ⟨?_, length_waiting_after idle distinct, fun p => ?_⟩
  · rintro past node id taken later rfl
    exact outcomes_after idle distinct
  · rw [← handlersOf_after (b := start) rfl]
    exact completes_or_handed (orderly_after idle distinct).nodup p

/-! ### A small run -/

/-- An answer to the first request. -/
def answer : Packet := { channel := "command", id := some ⟨1⟩, payload := .empty }

/-- Requests that are answered, cannot go out, wait for too long, are given up, and still wait. -/
def talk : List (Step Nat) :=
  [.register "command" 1, .move (.attachPeer "node-2" true), .ask "node-2" ⟨1⟩ true,
    .ask "node-3" ⟨2⟩ true, .ask "node-2" ⟨3⟩ true, .ask "node-2" ⟨4⟩ true, .register "status" 2,
    .arrive (.peer "node-2") answer, .expire ⟨3⟩, .shutdown, .register "command" 3,
    .move (.attachPeer "node-2" false), .ask "node-2" ⟨5⟩ true]

/-- The switchboard at the end of the run. -/
def afterTalk : Switchboard Nat := (new ⟨"node-1", []⟩ "secret" ["node-2"]).after talk

theorem talk_resolves : (asked talk).Nodup ∧
    afterTalk.requests.outcomes ⟨1⟩ = [.ok answer] ∧
    afterTalk.requests.outcomes ⟨2⟩ = [.error (.notConnected "node-3")] ∧
    afterTalk.requests.outcomes ⟨3⟩ = [.error .timeout] ∧
    afterTalk.requests.outcomes ⟨4⟩ = [.error .closed] ∧
    ⟨5⟩ ∈ afterTalk.requests.waiting ∧ afterTalk.requests.waiting.length = 1 ∧
    afterTalk.Handed answer [1, 3] := by
  have distinct : (asked talk).Nodup := by decide
  obtain ⟨fates, pending, packets⟩ :=
    resolves_once ⟨"node-1", []⟩ "secret" ["node-2"] talk distinct
  have first := fates (talk.take 2) "node-2" ⟨1⟩ true (talk.drop 3) rfl
  refine ⟨distinct, first.1, (fates (talk.take 3) "node-3" ⟨2⟩ true (talk.drop 4) rfl).1,
    (fates (talk.take 4) "node-2" ⟨3⟩ true (talk.drop 5) rfl).1,
    (fates (talk.take 5) "node-2" ⟨4⟩ true (talk.drop 6) rfl).1,
    (fates (talk.take 12) "node-2" ⟨5⟩ true [] rfl).2.2 rfl, pending.trans rfl, ?_⟩
  refine (packets answer).resolve_left ?_
  -- the answer comes again, and its request does not wait any more
  rintro ⟨id, again⟩
  obtain rfl := Option.some.inj again.carries
  exact nomatch first.2.1 (again.waiting.mem_iff.2 (List.mem_cons_self ..))

end Switchboard

end WorkerCluster
