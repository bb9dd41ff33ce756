import Warpstream.DemoterCandidates
import Warpstream.Hedger

set_option autoImplicit false

/- `Hedger.shouldHedge` and the guards that keep the Hedger and the Demoter from acting when too
many agents are faulty. `HealthCheckConfig` documents both guards as acting at the configured
fraction or above it; the code compares with it strictly. -/
namespace Warpstream

/-- The label of `hedgeAttemptsSuppressedTotal`. -/
inductive HedgeSuppressed where
  | noAgentStats
  | noClusterStats
  | slowFraction
  | faultyFraction
deriving DecidableEq, Repr

namespace HealthCheckConfig

variable (health : HealthCheckConfig) (cs : ClusterStats)

/-- The slow gate of `shouldHedge`. -/
def slowGate : Bool :=
  maxFractionFloor health.maxSlowFraction cs.slowContributorsCount < cs.slowFraction

/-- The faulty gate of `shouldHedge`. -/
def faultyGate : Bool :=
  maxFractionFloor health.maxFaultyFraction cs.faultyContributorsCount < cs.faultyFraction

end HealthCheckConfig

/-- The decision for a call, and the suppression that was counted. -/
def shouldHedge (cfg : HedgerConfig) (health : HealthCheckConfig)
    (tracker : AverageAgentStatsTracker) (now : Time) (primaryID : Int)
    (partitions : List RoutedEncodedTopicPartitionRecords) :
    HedgeDecision × Option HedgeSuppressed :=
  if partitions.any fun p => p.nodeID = primaryID ∧ p.nodeState = .demoted then
    ({ eligible := true, cause := .demotedProbe }, none)
  else
    match tracker.agentStats now primaryID with
    | none => ({}, some .noAgentStats)
    | some primary =>
        match tracker.clusterStats now health.slowMultiplier health.faultyThreshold with
        | none => ({}, some .noClusterStats)
        | some cs =>
            if health.slowGate cs then ({}, some .slowFraction)
            else if health.faultyGate cs then ({}, some .faultyFraction)
            else
              let healthy := ¬ primary.isSlow cs ∧ ¬ primary.isFaulty (errorRateMinRequests cs) cs
              let baseline :=
                if healthy then
                  (AverageAgentStatsTracker.truncateInt64
                    (cs.baselineLatency * health.slowMultiplier)).toNat
                else cs.baselineLatency
              ({ delay := max baseline cfg.minHedgeDelay, eligible := true, cause := .latency }, none)

section

variable {cfg : HedgerConfig} {health : HealthCheckConfig} {t : AverageAgentStatsTracker}
  {now : Time} {primaryID : Int} {partitions : List RoutedEncodedTopicPartitionRecords}
  {cs : ClusterStats}

/-- The call gets as far as the faulty gate: its primary is not being probed, has stats, and
the slow gate lets it pass. -/
structure ReachesFaultyGate (health : HealthCheckConfig) (t : AverageAgentStatsTracker) (now : Time)
    (primaryID : Int) (partitions : List RoutedEncodedTopicPartitionRecords) (cs : ClusterStats) :
    Prop where
  noProbe : ∀ p ∈ partitions, p.nodeID = primaryID → p.nodeState ≠ .demoted
  stats : (t.agentStats now primaryID).isSome
  notSlow : health.slowGate cs = false

theorem shouldHedge_faultyFraction (reaches : ReachesFaultyGate health t now primaryID partitions cs)
    (view : t.clusterStats now health.slowMultiplier health.faultyThreshold = some cs) :
    (shouldHedge cfg health t now primaryID partitions).2 = some .faultyFraction ↔
      health.faultyGate cs = true := by
  have noProbe : ¬ (partitions.any fun p => p.nodeID = primaryID ∧ p.nodeState = .demoted) := by
    simp only [List.any_eq_true, decide_eq_true_eq, not_exists, not_and]
    intro p mem here
    exact reaches.noProbe p mem here
  obtain ⟨primary, stats⟩ := Option.isSome_iff_exists.mp reaches.stats
  unfold shouldHedge
  rw [if_neg noProbe, stats, view]
  dsimp only
  rw [reaches.notSlow]
  by_cases gate : health.faultyGate cs = true
  · simp [gate]
  · simp [gate]

/-- With the floor of `1/N`, `k` of `N` agents are too many when they are two or more and above
the configured fraction. -/
theorem maxFractionFloor_lt_iff {configured : ℚ} {k n : Nat} (some : n ≠ 0) :
    maxFractionFloor configured n < k / n ↔ 2 ≤ k ∧ configured < (k / n : ℚ) := by
  have pos : (0 : ℚ) < n := by
    exact_mod_cast Nat.pos_of_ne_zero some
  have floor : (1 / n : ℚ) < k / n ↔ 2 ≤ k := by
    rw [div_lt_div_iff_of_pos_right pos]
    exact_mod_cast Iff.rfl
  rw [maxFractionFloor, if_neg some, max_lt_iff, floor]
  exact And.comm

/-- The number of agents with a request in the window. -/
noncomputable def observedCount (t : AverageAgentStatsTracker) (now : Time) : Nat :=
  {id | ∃ s, t.stats.lookup id = some s ∧
    (s.snapshot now.unixNano).totalRequestsCount ≠ 0}.ncard

/-- The number of agents that the view counts as faulty. -/
noncomputable def faultyCount (t : AverageAgentStatsTracker) (now : Time) (cs : ClusterStats) : Nat :=
  {id | ∃ stats, t.agentStats now id = some stats ∧
    stats.isFaulty (errorRateMinRequests cs) cs}.ncard

theorem observedCount_eq (t : AverageAgentStatsTracker) (now : Time) :
    observedCount t now = (t.observedAgents now).length :=
  AverageAgentStatsTracker.ncard_agents t now fun s => s.totalRequestsCount ≠ 0

theorem clusterStats_fraction
    (view : t.clusterStats now health.slowMultiplier health.faultyThreshold = some cs) :
    cs.faultyContributorsCount = observedCount t now ∧ observedCount t now ≠ 0 ∧
      cs.faultyFraction = faultyCount t now cs / observedCount t now := by
  have agree := AverageAgentStatsTracker.clusterStats_faulty_agrees view
  have contributors : cs.faultyContributorsCount = observedCount t now ∧
      observedCount t now ≠ 0 := by
    rw [observedCount_eq]
    unfold AverageAgentStatsTracker.clusterStats at view
    dsimp only at view
    split at view
    · cases view
    · rename_i quorum
      obtain rfl := Option.some.inj view
      refine ⟨rfl, ?_⟩
      apply AverageAgentStatsTracker.observedAgents_of_qualified
      exact fun none => quorum (Or.inl none)
  obtain ⟨count, some⟩ := contributors
  refine ⟨count, some, ?_⟩
  rw [eq_div_iff (Nat.cast_ne_zero.mpr some), ← count]
  exact agree.symm

theorem faultyGate_iff
    (view : t.clusterStats now health.slowMultiplier health.faultyThreshold = some cs) :
    health.faultyGate cs = true ↔ 2 ≤ faultyCount t now cs ∧
      health.maxFaultyFraction < (faultyCount t now cs / observedCount t now : ℚ) := by
  obtain ⟨count, some, fraction⟩ := clusterStats_fraction view
  rw [HealthCheckConfig.faultyGate, decide_eq_true_eq, count, fraction]
  exact maxFractionFloor_lt_iff some

/-- The Demoter's comparison is the other way round, and the same. -/
theorem isDemotionSuppressed_eq_faultyGate (health : HealthCheckConfig) (cs : ClusterStats) :
    (isDemotionSuppressed health (some cs)).1 = health.faultyGate cs := by
  unfold isDemotionSuppressed HealthCheckConfig.faultyGate
  dsimp only
  by_cases below : cs.faultyFraction ≤
      maxFractionFloor health.maxFaultyFraction cs.faultyContributorsCount
  · rw [if_pos below]
    simp [below]
  · rw [if_neg below]
    have above := lt_of_not_ge below
    split <;> simp [above]

/-- What the documentation of `MaxFaultyFraction` says. -/
def TooManyFaulty (health : HealthCheckConfig) (t : AverageAgentStatsTracker) (now : Time)
    (cs : ClusterStats) : Prop :=
  2 ≤ faultyCount t now cs ∧
    health.maxFaultyFraction ≤ (faultyCount t now cs / observedCount t now : ℚ)

/-- The guard is told exactly the configured fraction, by two agents or more. -/
def AtBoundary (health : HealthCheckConfig) (t : AverageAgentStatsTracker) (now : Time)
    (cs : ClusterStats) : Prop :=
  2 ≤ faultyCount t now cs ∧
    (faultyCount t now cs / observedCount t now : ℚ) = health.maxFaultyFraction

theorem faultyGate_documented_iff
    (view : t.clusterStats now health.slowMultiplier health.faultyThreshold = some cs) :
    (health.faultyGate cs = true ↔ TooManyFaulty health t now cs) ↔
      ¬ AtBoundary health t now cs := by
  rw [faultyGate_iff view, TooManyFaulty, AtBoundary]
  by_cases many : 2 ≤ faultyCount t now cs
  · simp only [many, true_and]
    constructor
    · intro same boundary
      have above := same.mpr boundary.ge
      exact absurd boundary above.ne'
    · intro boundary
      exact ⟨le_of_lt, fun least => lt_of_le_of_ne least (Ne.symm boundary)⟩
  · simp [many]

end

/-- Both guards act as documented exactly when the faulty fraction does not meet the configured
one, or a single agent makes it. -/
theorem faulty_guards_documented_iff_not_atBoundary {health : HealthCheckConfig}
    {t : AverageAgentStatsTracker} {now : Time} {cs : ClusterStats}
    (view : t.clusterStats now health.slowMultiplier health.faultyThreshold = some cs) :
    (((isDemotionSuppressed health
          (t.clusterStats now health.slowMultiplier health.faultyThreshold)).1 = true ↔
        TooManyFaulty health t now cs) ↔ ¬ AtBoundary health t now cs) ∧
      ∀ cfg primaryID partitions, ReachesFaultyGate health t now primaryID partitions cs →
        (((shouldHedge cfg health t now primaryID partitions).2 = some .faultyFraction ↔
          TooManyFaulty health t now cs) ↔ ¬ AtBoundary health t now cs) := by
  constructor
  · rw [view, isDemotionSuppressed_eq_faultyGate]
    exact faultyGate_documented_iff view
  · intro cfg primaryID partitions reaches
    rw [shouldHedge_faultyFraction reaches view]
    exact faultyGate_documented_iff view

/-- Four agents with two requests each, some of which have failed them. -/
def fourAgents (failed : List Int) : AverageAgentStatsTracker :=
  AverageAgentStatsTracker.trackAll {} ([5, 15].flatMap fun sec => [1, 2, 3, 4].map fun id =>
    { now := .unix sec
      nodeID := id
      latency := 1000000
      err := if id ∈ failed then some .contextDeadlineExceeded else none })

def atOnce : HedgerConfig := ⟨0, 2, by decide⟩

theorem faultyCount_of_fraction {health : HealthCheckConfig} {t : AverageAgentStatsTracker}
    {now : Time} {cs : ClusterStats} {k : Nat}
    (view : t.clusterStats now health.slowMultiplier health.faultyThreshold = some cs)
    (fraction : cs.faultyFraction = k / observedCount t now) : faultyCount t now cs = k := by
  obtain ⟨-, some, exact⟩ := clusterStats_fraction view
  have nonzero : (observedCount t now : ℚ) ≠ 0 := Nat.cast_ne_zero.mpr some
  rw [exact, div_left_inj' nonzero] at fraction
  exact_mod_cast fraction

/-- Three of four agents are faulty, above the configured half. -/
theorem faulty_guards_documented_iff_not_atBoundary_three :
    ∃ cs, (fourAgents [1, 2, 3]).clusterStats (.unix 17) halfFaulty.slowMultiplier
        halfFaulty.faultyThreshold = some cs ∧
      ((isDemotionSuppressed halfFaulty ((fourAgents [1, 2, 3]).clusterStats (.unix 17)
          halfFaulty.slowMultiplier halfFaulty.faultyThreshold)).1 = true ↔
        TooManyFaulty halfFaulty (fourAgents [1, 2, 3]) (.unix 17) cs) := by
  have fraction : ((fourAgents [1, 2, 3]).clusterStats (.unix 17) halfFaulty.slowMultiplier
      halfFaulty.faultyThreshold).map (·.faultyFraction) = some (3 / 4) := by decide +kernel
  obtain ⟨cs, view, quarters⟩ := Option.map_eq_some_iff.mp fraction
  have observed : observedCount (fourAgents [1, 2, 3]) (.unix 17) = 4 := by
    rw [observedCount_eq]
    decide +kernel
  have counted : faultyCount (fourAgents [1, 2, 3]) (.unix 17) cs = 3 := by
    apply faultyCount_of_fraction view
    rw [quarters, observed]
    norm_num
  refine ⟨cs, view, (faulty_guards_documented_iff_not_atBoundary view).1.mpr ?_⟩
  rintro ⟨-, boundary⟩
  rw [counted, observed] at boundary
  norm_num [halfFaulty] at boundary

/-- Two of four agents are faulty, exactly the configured half: both guards stay open. -/
theorem half_faulty_not_suppressed :
    ∃ cs, (fourAgents [1, 2]).clusterStats (.unix 17) halfFaulty.slowMultiplier
        halfFaulty.faultyThreshold = some cs ∧
      observedCount (fourAgents [1, 2]) (.unix 17) = 4 ∧
      faultyCount (fourAgents [1, 2]) (.unix 17) cs = 2 ∧
      TooManyFaulty halfFaulty (fourAgents [1, 2]) (.unix 17) cs ∧
      (isDemotionSuppressed halfFaulty (some cs)).1 = false ∧
      ReachesFaultyGate halfFaulty (fourAgents [1, 2]) (.unix 17) 1 [] cs ∧
      (shouldHedge atOnce halfFaulty (fourAgents [1, 2]) (.unix 17) 1 []).2 = none := by
  have fraction : ((fourAgents [1, 2]).clusterStats (.unix 17) halfFaulty.slowMultiplier
      halfFaulty.faultyThreshold).map (fun cs => (cs.faultyFraction,
        (isDemotionSuppressed halfFaulty (some cs)).1, halfFaulty.slowGate cs)) =
      some (1 / 2, false, false) := by decide +kernel
  obtain ⟨cs, view, read⟩ := Option.map_eq_some_iff.mp fraction
  obtain ⟨half, suppressed, slow⟩ : cs.faultyFraction = 1 / 2 ∧
      (isDemotionSuppressed halfFaulty (some cs)).1 = false ∧ halfFaulty.slowGate cs = false := by
    simpa only [Prod.mk.injEq] using read
  have observed : observedCount (fourAgents [1, 2]) (.unix 17) = 4 := by
    rw [observedCount_eq]
    decide +kernel
  have counted : faultyCount (fourAgents [1, 2]) (.unix 17) cs = 2 := by
    apply faultyCount_of_fraction view
    rw [half, observed]
    norm_num
  have many : TooManyFaulty halfFaulty (fourAgents [1, 2]) (.unix 17) cs := by
    rw [TooManyFaulty, counted, observed]
    norm_num [halfFaulty]
  have reaches : ReachesFaultyGate halfFaulty (fourAgents [1, 2]) (.unix 17) 1 [] cs :=
    ⟨fun p mem => absurd mem List.not_mem_nil, by decide +kernel, slow⟩
  exact ⟨cs, view, observed, counted, many, suppressed, reaches, by decide +kernel⟩

end Warpstream
