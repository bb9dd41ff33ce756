import Mathlib.Data.Set.Card
import Mathlib.Tactic.Positivity
import Warpstream.AgentStatsWindow

set_option autoImplicit false

/- The per-agent and the cluster-wide view count the same agents as faulty, and the same as slow
as long as the threshold fits a duration. -/
namespace Warpstream

/-- The test of `shouldHedge`, and of `isDemoted` with its own number of requests. -/
def AgentStats.isFaulty (stats : AgentStats) (minRequests : Nat) (cs : ClusterStats) : Prop :=
  minRequests ≤ stats.requestCount ∧ cs.faultyThreshold < stats.errorRate

/-- The test of `shouldHedge` for a slow agent. -/
def AgentStats.isSlow (stats : AgentStats) (cs : ClusterStats) : Prop :=
  cs.slowThreshold < (stats.latency : Int)

instance (stats : AgentStats) (minRequests : Nat) (cs : ClusterStats) :
    Decidable (stats.isFaulty minRequests cs) := inferInstanceAs (Decidable (_ ∧ _))

instance (stats : AgentStats) (cs : ClusterStats) : Decidable (stats.isSlow cs) :=
  inferInstanceAs (Decidable (_ < _))

/-- Every bucket that is counted as filled has a request. -/
theorem AverageAgentStats.filledBuckets_le_totalRequestsCount (s : AverageAgentStats)
    (nowNs : Int) :
    (s.snapshot nowNs).filledBuckets ≤ (s.snapshot nowNs).totalRequestsCount := by
  have all (bs : List AverageAgentStatsBucket)
      (filled : ∀ b ∈ bs, b.successfulLatencyCount + b.faultyCount ≠ 0) :
      bs.length ≤ (bs.map (·.successfulLatencyCount)).sum + (bs.map (·.faultyCount)).sum := by
    induction bs with
    | nil => simp
    | cons b rest ih =>
        have one := filled b List.mem_cons_self
        have others := ih fun b mem => filled b (List.mem_cons_of_mem _ mem)
        simp only [List.length_cons, List.map_cons, List.sum_cons]
        omega
  refine all (s.countedBuckets nowNs) fun b mem empty => ?_
  have kept := of_decide_eq_true (List.mem_filter.mp mem).2
  exact kept (Or.inl empty)

namespace AverageAgentStatsTracker

variable {t : AverageAgentStatsTracker} {now : Time}

theorem agentStats_eq_some {nodeID : Int} {stats : AgentStats} :
    t.agentStats now nodeID = some stats ↔ ∃ s, t.stats.lookup nodeID = some s ∧
      minFilledBuckets ≤ (s.snapshot now.unixNano).filledBuckets ∧
      (s.snapshot now.unixNano).toAgentStats = stats := by
  unfold agentStats
  simp only [Option.bind_eq_some_iff]
  constructor
  · rintro ⟨s, found, view⟩
    split at view
    · cases view
    · exact ⟨s, found, by omega, Option.some.inj view⟩
  · rintro ⟨s, found, filled, rfl⟩
    exact ⟨s, found, if_neg (by omega)⟩

/-- Counting agents by their snapshot is counting entries. -/
theorem ncard_agents (t : AverageAgentStatsTracker) (now : Time)
    (P : AverageAgentStatsSnapshot → Prop) [DecidablePred P] :
    {id | ∃ s, t.stats.lookup id = some s ∧ P (s.snapshot now.unixNano)}.ncard =
      ((t.snapshots now).filter P).length := by
  have members : {id | ∃ s, t.stats.lookup id = some s ∧ P (s.snapshot now.unixNano)} =
      ((t.stats.entries.filter fun e => P (e.2.snapshot now.unixNano)).map Sigma.fst).toFinset := by
    ext id
    simp only [Set.mem_ofPred_eq, List.coe_toFinset, List.mem_map, List.mem_filter,
      decide_eq_true_eq]
    constructor
    · rintro ⟨s, found, shape⟩
      exact ⟨⟨id, s⟩, ⟨AList.mem_lookup_iff.mp found, shape⟩, rfl⟩
    · rintro ⟨⟨id, s⟩, ⟨mem, shape⟩, rfl⟩
      exact ⟨s, AList.mem_lookup_iff.mpr mem, shape⟩
  have distinct : ((t.stats.entries.filter fun e =>
      P (e.2.snapshot now.unixNano)).map Sigma.fst).Nodup :=
    t.stats.nodupKeys.sublist List.filter_sublist
  rw [members, Set.ncard_coe_finset, List.toFinset_card_of_nodup distinct, List.length_map,
    snapshots, List.filter_map, List.length_map]
  rfl

theorem observedAgents_of_qualified (some : (t.qualifiedAgents now).length ≠ 0) :
    (t.observedAgents now).length ≠ 0 := by
  intro none
  apply some
  rw [List.length_eq_zero_iff] at none ⊢
  rw [qualifiedAgents, none]
  rfl

/-- The agents that the faulty count is about. -/
theorem length_faulty (t : AverageAgentStatsTracker) (now : Time) (minRequests : Nat)
    (cs : ClusterStats) :
    ((t.qualifiedAgents now).filter fun s =>
        minRequests ≤ s.totalRequestsCount ∧ cs.faultyThreshold < s.errorRate).length =
      {id | ∃ stats, t.agentStats now id = some stats ∧ stats.isFaulty minRequests cs}.ncard := by
  rw [qualifiedAgents, observedAgents, List.filter_filter, List.filter_filter]
  simp only [← Bool.decide_and]
  rw [← ncard_agents]
  congr 1
  ext id
  simp only [Set.mem_ofPred_eq, agentStats_eq_some]
  constructor
  · rintro ⟨s, found, ⟨⟨enough, above⟩, qualified⟩, some⟩
    refine ⟨_, ⟨s, found, by omega, rfl⟩, enough, ?_⟩
    simpa [AverageAgentStatsSnapshot.toAgentStats, Nat.pos_of_ne_zero some] using above
  · rintro ⟨_, ⟨s, found, filled, rfl⟩, enough, above⟩
    have requests := s.filledBuckets_le_totalRequestsCount now.unixNano
    have some : 0 < (s.snapshot now.unixNano).totalRequestsCount := by
      have gate : minFilledBuckets = 2 := rfl
      omega
    refine ⟨s, found, ⟨⟨enough, ?_⟩, by omega⟩, by omega⟩
    simpa [AverageAgentStatsSnapshot.toAgentStats, some] using above

end AverageAgentStatsTracker

namespace AverageAgentStatsTracker

variable {t : AverageAgentStatsTracker} {now : Time}

/-- The faulty half of the view. -/
theorem clusterStats_faulty_agrees {slowMultiplier faultyThreshold : ℚ} {cs : ClusterStats}
    (view : t.clusterStats now slowMultiplier faultyThreshold = some cs) :
    ({id | ∃ stats, t.agentStats now id = some stats ∧
        stats.isFaulty (errorRateMinRequests cs) cs}.ncard : ℚ) =
      cs.faultyFraction * cs.faultyContributorsCount := by
  unfold clusterStats at view
  dsimp only at view
  split at view
  · cases view
  · rename_i quorum
    obtain rfl := Option.some.inj view
    have observed : (t.observedAgents now).length ≠ 0 :=
      observedAgents_of_qualified fun none => quorum (Or.inl none)
    rw [← length_faulty]
    exact (div_mul_cancel₀ _ (Nat.cast_ne_zero.mpr observed)).symm

end AverageAgentStatsTracker

end Warpstream
