import WorkerCluster.Config

/-!
# Configurations that make sense

`validate_eq_ok_iff` says which configurations pass the check, `checkPeers_eq_ok_iff` what it makes
sure of about the peers.
-/

namespace WorkerCluster.Config

/-- The peers pass if all ids are new and all peers listen. -/
theorem checkPeers_eq_ok_iff {own : NodeId} {seen : List NodeId} {peers : List NodeIdentity} :
    checkPeers own seen peers = .ok () ↔
      (∀ p ∈ peers, p.id ≠ own ∧ p.id ∉ seen ∧ p.listeners ≠ []) ∧ (peers.map (·.id)).Nodup := by
  induction peers generalizing seen with
  | nil => simp [checkPeers]
  | cons p peers ih =>
    unfold checkPeers
    split
    · next same => simp [same]
    · next other =>
      split
      · next again => simp_all
      · next new =>
        split
        · next deaf => simp_all
        · next heard =>
          rw [ih]
          simp only [List.mem_cons, not_or, List.map_cons, List.nodup_cons, List.mem_map]
          simp only [List.contains_iff_mem, List.isEmpty_iff] at new heard
          grind

theorem guard_eq_ok_iff {b : Prop} [Decidable b] {e : ConfigProblem}
    {x : Except ConfigProblem Unit} :
    (if b then (do Except.error e; x) else x) = .ok () ↔ ¬ b ∧ x = .ok () := by
  split
  · next h =>
    refine ⟨fun h' => ?_, fun h' => absurd h h'.1⟩
    cases h'
  · next h => exact (and_iff_right h).symm

/-- A configuration passes if nothing is wrong with it. -/
theorem validate_eq_ok_iff {c : Config} : c.validate = .ok () ↔
    Text.isBlankText c.identity.id = false ∧ c.identity.listeners ≠ [] ∧
      c.ticksPerSecond ≠ 0 ∧ c.ticksPerSecond ≤ 1000 ∧
      checkPeers c.identity.id [] c.cluster.nodes = .ok () ∧
      (c.certificates.enabled = true → c.certificates.certificate.isSome ∧
        c.certificates.key.isSome ∧ c.certificates.authority.isSome) := by
  unfold validate
  rw [guard_eq_ok_iff, guard_eq_ok_iff, guard_eq_ok_iff, guard_eq_ok_iff]
  refine and_congr Bool.eq_false_iff.symm (and_congr (not_congr List.isEmpty_iff)
    (and_congr Iff.rfl (and_congr UInt32.not_lt ?_)))
  cases checkPeers c.identity.id [] c.cluster.nodes with
  | error e => exact ⟨fun h => (by cases h), fun h => (by cases h.1)⟩
  | ok _ =>
    change (if _ then _ else _) = _ ↔ _
    rw [and_iff_right rfl]
    obtain ⟨enabled, certificate, key, authority⟩ := c.certificates
    cases enabled <;> cases certificate <;> cases key <;> cases authority <;>
      simp [pure, Except.pure]

end WorkerCluster.Config
