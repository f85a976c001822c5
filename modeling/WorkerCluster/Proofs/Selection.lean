import WorkerCluster.Proofs.Placement

/-!
# Which node is selected

A node goes once through the peers that are up for choice, from its own status on, and each time
goes on with the better one. Of two nodes neither need beat the other, so that the last one need not
beat all those that were passed over; but none of them beats it.

* `Offers` holds for the statuses of peers that are up for choice. It does not depend on the order
  of the candidates.
* `foldl_better_cases` says where the walk may end. `not_beats_foldl_better` is what carries over
  from its beginning to its end: who does not beat the one does not beat the other.
* `select_unbeaten` is the main statement about the walk.
* `competes_iff_select` compares it with `competes`, which looks at every peer beside the status of
  the node alone. The walk stays at the beginning exactly if the node competes.
-/

namespace WorkerCluster

namespace Placement

variable {t : TaskSpec} {home : NodeId} {here best s : NodeStatus} {c : Candidate}
  {candidates l : List Candidate}

/-! ### What is up for choice -/

/-- One of the candidates is a connected peer that the task admits, and has said this about
itself. -/
def Offers (t : TaskSpec) (home : NodeId) (candidates : List Candidate) (s : NodeStatus) : Prop :=
  ∃ c ∈ candidates, c.connected = true ∧ c.node ≠ home ∧ t.admits c.node = true ∧
    c.status = some s

theorem mem_eligiblePeers : c ∈ eligiblePeers t home candidates ↔
    c ∈ candidates ∧ c.connected = true ∧ c.node ≠ home ∧ t.admits c.node = true := by
  simp only [eligiblePeers, List.mem_filter, Bool.and_eq_true, bne_iff_ne, and_assoc]

theorem offers_iff :
    Offers t home candidates s ↔ ∃ c ∈ eligiblePeers t home candidates, c.status = some s := by
  simp only [Offers, mem_eligiblePeers, and_assoc]

theorem Offers.mono (offered : Offers t home candidates s) (sub : candidates ⊆ l) :
    Offers t home l s := by
  obtain ⟨c, mem, offer⟩ := offered
  exact ⟨c, sub mem, offer⟩

/-- A node competes if nothing that is up for choice beats it. -/
theorem competes_iff_offers : competes t here candidates = true ↔
    ∀ s, Offers t here.node.id candidates s → beats s here = false := by
  rw [competes_eq_true_iff]
  constructor
  · rintro unbeaten s ⟨c, mem, connected, other, admitted, status⟩
    exact unbeaten c mem connected other admitted s status
  · intro unbeaten c mem connected other admitted s status
    exact unbeaten s ⟨c, mem, connected, other, admitted, status⟩

/-! ### One step of the walk -/

theorem better_cases (best : NodeStatus) (c : Candidate) :
    better best c = best ∨
      ∃ s, c.status = some s ∧ beats s best = true ∧ better best c = s := by
  unfold better
  split
  · next s status =>
    split
    · next wins => exact .inr ⟨s, status, wins, rfl⟩
    · exact .inl rfl
  · exact .inl rfl

/-- Who does not beat the best one so far does not beat the next one. -/
theorem not_beats_better (loses : beats s best = false) (c : Candidate) :
    beats s (better best c) = false := by
  obtain stays | ⟨r, -, wins, goes⟩ := better_cases best c
  · rwa [stays]
  · rw [goes, ← Bool.not_eq_true]
    intro again
    rw [beats_trans again wins] at loses
    cases loses

/-- The candidate that is looked at does not beat the next one either. -/
theorem not_beats_better_self (status : c.status = some s) (best : NodeStatus) :
    beats s (better best c) = false := by
  unfold better
  rw [status]
  dsimp only
  split
  · exact beats_irrefl s
  · next loses => exact Bool.eq_false_iff.2 loses

/-! ### The whole walk -/

/-- The walk stays where it begins, or ends with one of the candidates, which beats the
beginning. -/
theorem foldl_better_cases (best : NodeStatus) (l : List Candidate) :
    l.foldl better best = best ∨
      ∃ c ∈ l, c.status = some (l.foldl better best) ∧ beats (l.foldl better best) best = true := by
  induction l generalizing best with
  | nil => exact .inl rfl
  | cons c l ih =>
    rw [List.foldl_cons]
    have first := better_cases best c
    obtain stays | ⟨d, mem, status, wins⟩ := ih (better best c)
    · rw [stays]
      obtain same | ⟨s, status, wins, goes⟩ := first
      · exact .inl same
      · exact .inr ⟨c, List.mem_cons_self, goes ▸ status, goes ▸ wins⟩
    · refine .inr ⟨d, List.mem_cons_of_mem c mem, status, ?_⟩
      obtain same | ⟨s, -, before, goes⟩ := first
      · rwa [same] at wins ⊢
      · rw [goes] at wins ⊢
        exact beats_trans wins before

/-- Who does not beat the beginning does not beat the end. -/
theorem not_beats_foldl_better (loses : beats s best = false) (l : List Candidate) :
    beats s (l.foldl better best) = false :=
  List.foldlRecOn (motive := fun best => beats s best = false) l better loses
    fun _ loses c _ => not_beats_better loses c

/-- None of the candidates beats the end. -/
theorem foldl_better_unbeaten (mem : c ∈ l) (status : c.status = some s) (best : NodeStatus) :
    beats s (l.foldl better best) = false := by
  induction l generalizing best with
  | nil => cases mem
  | cons d l ih =>
    rw [List.foldl_cons]
    obtain rfl | later := List.mem_cons.1 mem
    · exact not_beats_foldl_better (not_beats_better_self status best) l
    · exact ih later (better best d)

/-! ### The selection -/

/-- The node itself is selected, or one that is up for choice and beats it. -/
theorem select_cases (t : TaskSpec) (here : NodeStatus) (candidates : List Candidate) :
    select t here candidates = here ∨
      Offers t here.node.id candidates (select t here candidates) ∧
        beats (select t here candidates) here = true := by
  obtain stays | ⟨c, mem, status, wins⟩ :=
    foldl_better_cases here (eligiblePeers t here.node.id candidates)
  · exact .inl stays
  · exact .inr ⟨offers_iff.2 ⟨c, mem, status⟩, wins⟩

/-- Nothing that is up for choice beats the selected one. -/
theorem not_beats_select (offered : Offers t here.node.id candidates s) :
    beats s (select t here candidates) = false := by
  obtain ⟨c, mem, status⟩ := offers_iff.1 offered
  exact foldl_better_unbeaten mem status here

/-- The node itself does not beat the selected one. -/
theorem not_beats_select_self (t : TaskSpec) (here : NodeStatus) (candidates : List Candidate) :
    beats here (select t here candidates) = false :=
  not_beats_foldl_better (beats_irrefl here) _

/-- **The selected node is unbeaten.** Whatever the candidates are and in whatever order they stand,
the node itself is selected or a connected peer that the task admits and that beats it; and no
connected peer that the task admits beats the selected one. -/
theorem select_unbeaten (t : TaskSpec) (here : NodeStatus) (candidates : List Candidate) :
    (select t here candidates = here ∨
      Offers t here.node.id candidates (select t here candidates) ∧
        beats (select t here candidates) here = true) ∧
    ∀ s, Offers t here.node.id candidates s → beats s (select t here candidates) = false :=
  ⟨select_cases t here candidates, fun _ offered => not_beats_select offered⟩

/-! ### Selecting and competing -/

/-- A node that competes is selected by itself. -/
theorem select_of_competes (competing : competes t here candidates = true) :
    select t here candidates = here := by
  obtain stays | ⟨offered, wins⟩ := select_cases t here candidates
  · exact stays
  · rw [competes_iff_offers.1 competing _ offered] at wins
    cases wins

/-- A node that is selected by itself competes. -/
theorem competes_of_select (stays : select t here candidates = here) :
    competes t here candidates = true := by
  refine competes_iff_offers.2 fun s offered => ?_
  have loses := not_beats_select offered
  rwa [stays] at loses

/-- A node that competes does so also beside some of its peers. -/
theorem competes_of_subset (competing : competes t here candidates = true)
    (sub : l ⊆ candidates) : competes t here l = true :=
  competes_iff_offers.2 fun s offered => competes_iff_offers.1 competing s (offered.mono sub)

/-- **Both decisions agree.** A node competes exactly if the walk through its peers never leaves the
status of the node, which comes to the same as that it ends there; and it does not compete exactly
if the walk ends with a peer that is up for choice and beats it. -/
theorem competes_iff_select (t : TaskSpec) (here : NodeStatus) (candidates : List Candidate) :
    (competes t here candidates = true ↔
      ∀ seen, seen <+: candidates → select t here seen = here) ∧
    (competes t here candidates = true ↔ select t here candidates = here) ∧
    (competes t here candidates = false ↔
      Offers t here.node.id candidates (select t here candidates) ∧
        beats (select t here candidates) here = true) := by
  refine ⟨⟨?_, ?_⟩, ⟨select_of_competes, competes_of_select⟩, ?_, ?_⟩
  · intro competing seen upTo
    exact select_of_competes (competes_of_subset competing upTo.subset)
  · intro never
    exact competes_of_select (never candidates (List.prefix_refl _))
  · intro yields
    obtain stays | leaves := select_cases t here candidates
    · rw [competes_of_select stays] at yields
      cases yields
    · exact leaves
  · rintro ⟨offered, wins⟩
    rw [← Bool.not_eq_true]
    intro competing
    rw [competes_iff_offers.1 competing _ offered] at wins
    cases wins

end Placement

end WorkerCluster
