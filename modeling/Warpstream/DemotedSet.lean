import Warpstream.DemoterCandidates

set_option autoImplicit false

/- What the demoted set says after a `Candidates` call that was not suppressed. The call tests
agents in its retry loop and again in its second pass, and stamps the agents that it probes. An
agent whose window has too few filled buckets is taken for healthy before the set is looked at:
its entry, if it has one, stays. -/
namespace Warpstream

/-- The agents that the gauge `demoter_demoted_agents` counts. -/
def DemoterState.demotedAgents (health : HealthCheckConfig) (clusterStats : Option ClusterStats)
    (d : DemoterState) : List Int :=
  if (isDemotionSuppressed health clusterStats).1 then [] else d.lastDemotedProbe.keys

def DemoterState.demotedAgentsCount (health : HealthCheckConfig)
    (clusterStats : Option ClusterStats) (d : DemoterState) : Nat :=
  (d.demotedAgents health clusterStats).length

/-- The agent that an operation ends the test of, with the result of `isDemoted`. -/
def DemoterOp.tested : (o : DemoterOp) → o.Ret → Option (Int × Bool)
  | .agentStats _ nodeID, stats => if Option.isNone stats then some (nodeID, false) else none
  | .classify nodeID _ _, result => some (nodeID, result)
  | _, _ => none

/-- The agents that a call has examined, with how it treated them. -/
def examined (history : List ((o : DemoterOp) × o.Ret)) : List (Int × Bool) :=
  history.filterMap fun step => step.1.tested step.2

/-- The clock and the tracker as they answer during a call. -/
structure DemoterReading where
  now : Time
  clusterStats : Option ClusterStats
  agentStats : Int → Option AgentStats

namespace DemoterReading

variable {σ : Type} (reading : DemoterReading)
  (inner : TopicPartition → Nat → σ → (List Agent × RouteOutcome) × σ)

/-- What an operation is told. The wrapped strategy may change with each lookup. -/
def answer (strategy : σ) : DemoterOp → DemoterInput × σ
  | .clock => ({ now := reading.now }, strategy)
  | .clusterStats .. => ({ clusterStats := reading.clusterStats }, strategy)
  | .candidatesOf tp maxCandidates =>
      ({ candidates := (inner tp maxCandidates strategy).1 }, (inner tp maxCandidates strategy).2)
  | .agentStats _ nodeID => ({ agentStats := reading.agentStats nodeID }, strategy)
  | _ => ({}, strategy)

def handle (cfg : DemoterConfig) (o : DemoterOp) (s : DemoterState × σ) :
    o.Ret × (DemoterState × σ) :=
  let told := reading.answer inner s.2 o
  let result := o.handle cfg told.1 s.1
  (result.1, result.2, told.2)

end DemoterReading

namespace DemoterState

/-- `d'` is `d` after the tests, each of which had the result that `d` gives. -/
structure AfterTests (agentStats : Int → Option AgentStats) (cs : ClusterStats) (d : DemoterState)
    (tests : List (Int × Bool)) (d' : DemoterState) : Prop where
  results : ∀ id b, (id, b) ∈ tests → b = d.isDemoted agentStats cs id
  entries : ∀ id b, (id, b) ∈ tests → agentStats id ≠ none →
    (id ∈ d'.lastDemotedProbe ↔ b = true)
  others : ∀ id, (∀ b, (id, b) ∉ tests) ∨ agentStats id = none →
    (id ∈ d'.lastDemotedProbe ↔ id ∈ d.lastDemotedProbe)

variable {agentStats : Int → Option AgentStats} {cs : ClusterStats} {d d' : DemoterState}
  {tests : List (Int × Bool)} {id : Int}

theorem mem_classify (d : DemoterState) (id : Int) (stats : AgentStats) (cs : ClusterStats)
    (other : Int) :
    other ∈ (d.classify id stats cs).2.lastDemotedProbe ↔
      if other = id then d.isFaulty id stats cs = true else other ∈ d.lastDemotedProbe := by
  rw [← AList.lookup_isSome, lookup_classify]
  by_cases same : other = id
  · rw [if_pos same, if_pos same]
    cases d.isFaulty id stats cs <;> simp
  · rw [if_neg same, if_neg same, AList.lookup_isSome]

theorem AfterTests.refl : AfterTests agentStats cs d [] d :=
  ⟨fun _ _ mem => absurd mem List.not_mem_nil, fun _ _ mem => absurd mem List.not_mem_nil,
    fun _ _ => Iff.rfl⟩

/-- A test gives the same result whatever has been tested before. -/
theorem AfterTests.isDemoted_eq (done : AfterTests agentStats cs d tests d')
    (positive : 0 < cs.faultyThreshold) (id : Int) :
    d'.isDemoted agentStats cs id = d.isDemoted agentStats cs id := by
  unfold isDemoted
  cases available : agentStats id with
  | none => rfl
  | some stats =>
      have has : agentStats id ≠ none := by
        rw [available]
        exact Option.some_ne_none stats
      change d'.isFaulty id stats cs = d.isFaulty id stats cs
      by_cases tested : ∃ b, (id, b) ∈ tests
      · obtain ⟨b, mem⟩ := tested
        apply isFaulty_of_tested positive
        rw [done.entries id b mem has, done.results id b mem]
        simp [isDemoted, available]
      · have same := done.others id (Or.inl fun b mem => tested ⟨b, mem⟩)
        simp only [isFaulty, same]

theorem AfterTests.test (done : AfterTests agentStats cs d tests d')
    (positive : 0 < cs.faultyThreshold) (id : Int) :
    AfterTests agentStats cs d (tests ++ [(id, (d'.test agentStats cs id).1)])
      (d'.test agentStats cs id).2 := by
  have result := done.isDemoted_eq positive id
  rw [test_fst, result]
  have results : ∀ other b, (other, b) ∈ tests ++ [(id, d.isDemoted agentStats cs id)] →
      b = d.isDemoted agentStats cs other := by
    intro other b mem
    rcases List.mem_append.mp mem with old | new
    · exact done.results other b old
    · obtain ⟨rfl, rfl⟩ := Prod.mk.inj (List.mem_singleton.mp new)
      rfl
  cases available : agentStats id with
  | none =>
      have unchanged : (d'.test agentStats cs id).2 = d' := by
        unfold DemoterState.test
        rw [available]
      rw [unchanged]
      refine ⟨results, ?_, ?_⟩
      · intro other b mem has
        rcases List.mem_append.mp mem with old | new
        · exact done.entries other b old has
        · obtain ⟨rfl, rfl⟩ := Prod.mk.inj (List.mem_singleton.mp new)
          exact absurd available has
      · intro other cond
        apply done.others other
        rcases cond with untested | missing
        · exact Or.inl fun b mem => untested b (List.mem_append_left _ mem)
        · exact Or.inr missing
  | some stats =>
      have changed : (d'.test agentStats cs id).2 = (d'.classify id stats cs).2 := by
        unfold DemoterState.test
        rw [available]
      have faulty : d'.isFaulty id stats cs = d.isDemoted agentStats cs id := by
        rw [← result]
        simp [isDemoted, available]
      rw [changed]
      refine ⟨results, ?_, ?_⟩
      · intro other b mem has
        rw [mem_classify]
        by_cases same : other = id
        · rw [if_pos same, results other b mem, faulty, same]
        · rw [if_neg same]
          rcases List.mem_append.mp mem with old | new
          · exact done.entries other b old has
          · exact absurd (Prod.mk.inj (List.mem_singleton.mp new)).1 same
      · intro other cond
        have same : other ≠ id := by
          rintro rfl
          rcases cond with untested | missing
          · exact untested _ (List.mem_append_right _ (List.mem_singleton.mpr rfl))
          · rw [available] at missing
            cases missing
        rw [mem_classify, if_neg same]
        apply done.others other
        rcases cond with untested | missing
        · exact Or.inl fun b mem => untested b (List.mem_append_left _ mem)
        · exact Or.inr missing

/-- The agents that are treated as demoted have stats, and their entry. -/
theorem AfterTests.mem_of_demoted (done : AfterTests agentStats cs d tests d')
    (tested : (id, true) ∈ tests) : id ∈ d'.lastDemotedProbe := by
  have demoted := done.results id true tested
  have has : agentStats id ≠ none := by
    intro missing
    simp [isDemoted, missing] at demoted
  exact (done.entries id true tested has).mpr rfl

/-- A stamp of an agent that is treated as demoted changes a time, not the set. -/
theorem AfterTests.stamp (done : AfterTests agentStats cs d tests d')
    (tested : (id, true) ∈ tests) {stamped : DemoterState} {now : Time}
    (written : stamped.lastDemotedProbe = d'.lastDemotedProbe.insert id now) :
    AfterTests agentStats cs d tests stamped := by
  have same (other : Int) : other ∈ stamped.lastDemotedProbe ↔ other ∈ d'.lastDemotedProbe := by
    rw [written, AList.mem_insert]
    refine ⟨?_, Or.inr⟩
    rintro (rfl | mem)
    · exact done.mem_of_demoted tested
    · exact mem
  refine ⟨done.results, ?_, ?_⟩
  · intro other b mem has
    rw [same]
    exact done.entries other b mem has
  · intro other cond
    rw [same]
    exact done.others other cond

end DemoterState

section Call

open DemoterState

variable {σ : Type} {reading : DemoterReading}
  {inner : TopicPartition → Nat → σ → (List Agent × RouteOutcome) × σ} {cfg : DemoterConfig}
  {cs : ClusterStats} {d : DemoterState}

/-- The tests so far and the state that they have led to. -/
def Tracks (reading : DemoterReading) (cs : ClusterStats) (d : DemoterState)
    (history : List ((o : DemoterOp) × o.Ret)) (s : DemoterState × σ) : Prop :=
  AfterTests reading.agentStats cs d (examined history) s.1

/-- The agent has been tested, and treated as demoted. -/
def FoundDemoted (id : Int) (history : List ((o : DemoterOp) × o.Ret)) : Prop :=
  (id, true) ∈ examined history

theorem examined_append (before after : List ((o : DemoterOp) × o.Ret)) :
    examined (before ++ after) = examined before ++ examined after :=
  List.filterMap_append

theorem FoundDemoted.grows (id : Int) (before after : List ((o : DemoterOp) × o.Ret))
    (found : FoundDemoted id before) : FoundDemoted id (before ++ after) := by
  unfold FoundDemoted
  rw [examined_append]
  exact List.mem_append_left _ found

theorem examined_step {o : DemoterOp} {r : o.Ret} {t : Option (Int × Bool)}
    (test : o.tested r = t) (history : List ((o : DemoterOp) × o.Ret)) :
    examined (history ++ [⟨o, r⟩]) = examined history ++ t.toList := by
  rw [examined_append]
  subst test
  cases test : o.tested r with
  | none => simp [examined, test]
  | some t => simp [examined, test]

/-- An operation that neither tests nor writes. -/
theorem Tracks.reads {o : DemoterOp} {r : o.Ret} (untested : o.tested r = none)
    {history : List ((o : DemoterOp) × o.Ret)} {s : DemoterState × σ} {strategy : σ}
    (tracks : Tracks reading cs d history s) :
    Tracks reading cs d (history ++ [⟨o, r⟩]) (s.1, strategy) := by
  unfold Tracks
  rw [examined_step untested, Option.toList_none, List.append_nil]
  exact tracks

/-- The last operation of a test. -/
theorem Tracks.tests {o : DemoterOp} {r : o.Ret} {id : Int} {b : Bool}
    (test : o.tested r = some (id, b)) {history : List ((o : DemoterOp) × o.Ret)}
    {d' : DemoterState} {strategy : σ}
    (done : AfterTests reading.agentStats cs d (examined history ++ [(id, b)]) d') :
    Tracks reading cs d (history ++ [⟨o, r⟩]) (d', strategy) ∧
      (id, b) ∈ examined (history ++ [⟨o, r⟩]) := by
  unfold Tracks
  rw [examined_step test]
  exact ⟨done, List.mem_append_right _ (List.mem_singleton.mpr rfl)⟩

theorem triple_isDemoted (positive : 0 < cs.faultyThreshold) (now : Time) (id : Int) :
    Program.Triple (reading.handle inner cfg) (Tracks reading cs d) (Demoter.isDemoted now id cs)
      fun b history s => Tracks reading cs d history s ∧ (id, b) ∈ examined history := by
  have asked : Program.Triple (reading.handle inner cfg) (Tracks reading cs d)
      (Demoter.trackerAgentStats now id) fun stats history s =>
        stats = reading.agentStats id ∧ Tracks reading cs d history s ∧
          (stats = none → (id, false) ∈ examined history) := by
    apply Program.Triple.perform
    intro history s tracks
    refine ⟨rfl, ?_⟩
    cases available : reading.agentStats id with
    | none =>
        have tested := tracks.test positive id
        have test : s.1.test reading.agentStats cs id = (false, s.1) := by
          unfold DemoterState.test
          rw [available]
        rw [test] at tested
        have missing : (DemoterOp.agentStats now id).tested (reading.agentStats id) =
            some (id, false) := by
          rw [available]
          rfl
        have after : Tracks reading cs d
            (history ++ [⟨.agentStats now id, reading.agentStats id⟩]) (s.1, s.2) ∧ _ :=
          Tracks.tests missing tested
        exact ⟨after.1, fun _ => after.2⟩
    | some stats =>
        have untested : (DemoterOp.agentStats now id).tested (reading.agentStats id) = none := by
          rw [available]
          rfl
        refine ⟨Tracks.reads untested tracks, ?_⟩
        intro missing
        exact absurd (available.symm.trans missing) (Option.some_ne_none stats)
  unfold Demoter.isDemoted
  refine asked.bind ?_
  intro stats
  cases stats with
  | none => exact Program.Triple.pure fun history s here => ⟨here.2.1, here.2.2 rfl⟩
  | some stats =>
      apply Program.Triple.perform
      rintro history s ⟨available, tracks, -⟩
      have tested := tracks.test positive id
      have test : s.1.test reading.agentStats cs id = s.1.classify id stats cs := by
        unfold DemoterState.test
        rw [← available]
      rw [test] at tested
      exact Tracks.tests rfl tested

/-- The first pass. -/
theorem triple_classifyAll (positive : 0 < cs.faultyThreshold) (now : Time) (agents : List Agent)
    (count : Nat) (clean : Bool) :
    Program.Triple (reading.handle inner cfg) (Tracks reading cs d)
      (Demoter.classifyAll now cs agents count clean) fun _ => Tracks reading cs d := by
  induction agents generalizing count clean with
  | nil => exact Program.Triple.pure fun _ _ tracks => tracks
  | cons a rest ih =>
      refine (triple_isDemoted positive now a.nodeID).bind ?_
      intro demoted
      cases demoted with
      | true => exact (ih count false).weaken (fun _ _ here => here.1) fun _ _ _ there => there
      | false => exact (ih (count + 1) clean).weaken (fun _ _ here => here.1) fun _ _ _ there => there

/-- The retry loop. -/
theorem triple_fetchCandidates (positive : 0 < cs.faultyThreshold) (tp : TopicPartition) (n : Nat)
    (now : Time) (left extra : Nat) :
    Program.Triple (reading.handle inner cfg) (Tracks reading cs d)
      (Demoter.fetchCandidates tp n now cs left extra) fun _ => Tracks reading cs d := by
  have asked (m : Nat) : Program.Triple (reading.handle inner cfg) (Tracks reading cs d)
      (Demoter.candidatesOf tp m) fun _ => Tracks reading cs d := by
    apply Program.Triple.perform
    intro history s tracks
    exact Tracks.reads rfl tracks
  induction left generalizing extra with
  | zero =>
      rw [Demoter.fetchCandidates]
      refine (asked _).bind fun found => ?_
      refine (triple_classifyAll positive now _ _ _).bind fun counted => ?_
      dsimp only
      split <;> exact Program.Triple.pure fun _ _ tracks => tracks
  | succ left ih =>
      rw [Demoter.fetchCandidates]
      refine (asked _).bind fun found => ?_
      refine (triple_classifyAll positive now _ _ _).bind fun counted => ?_
      dsimp only
      split
      · exact Program.Triple.pure fun _ _ tracks => tracks
      · exact ih (extra * 2)

/-- A stamp of an agent that has been found demoted. -/
theorem Tracks.stamps {o : DemoterOp} {r : o.Ret} (untested : o.tested r = none) {id : Int}
    {history : List ((o : DemoterOp) × o.Ret)} {s : DemoterState × σ} (found : FoundDemoted id history)
    (tracks : Tracks reading cs d history s) {stamped : DemoterState} (now : Time)
    (written : stamped.lastDemotedProbe = s.1.lastDemotedProbe.insert id now) :
    Tracks reading cs d (history ++ [⟨o, r⟩]) (stamped, s.2) := by
  unfold Tracks
  rw [examined_step untested, Option.toList_none, List.append_nil]
  exact AfterTests.stamp tracks found written

theorem triple_shouldProbe (now : Time) (id : Int) :
    Program.Triple (reading.handle inner cfg)
      (fun history s => Tracks reading cs d history s ∧ FoundDemoted id history)
      (Demoter.shouldProbe now id) fun _ history s =>
        Tracks reading cs d history s ∧ FoundDemoted id history := by
  apply Program.Triple.perform
  rintro history s ⟨tracks, found⟩
  refine ⟨?_, FoundDemoted.grows id _ _ found⟩
  by_cases due : s.1.probeDue cfg now id = true
  · have taken : s.1.shouldProbe cfg now id = (true, s.1.record (.probe id now)) := by
      unfold DemoterState.shouldProbe
      rw [if_pos due]
    change Tracks reading cs d (history ++ [⟨.shouldProbe now id, (s.1.shouldProbe cfg now id).1⟩])
      ((s.1.shouldProbe cfg now id).2, s.2)
    refine Tracks.stamps rfl found tracks now ?_
    rw [taken]
    rfl
  · have kept : s.1.shouldProbe cfg now id = (false, s.1) := by
      unfold DemoterState.shouldProbe
      rw [if_neg due]
    change Tracks reading cs d (history ++ [⟨.shouldProbe now id, (s.1.shouldProbe cfg now id).1⟩])
      ((s.1.shouldProbe cfg now id).2, s.2)
    rw [kept]
    exact Tracks.reads rfl tracks

/-- The second pass. When it finds no candidate, every agent has been found demoted. -/
theorem triple_buildCandidates (positive : 0 < cs.faultyThreshold) {n : Nat} (pos : n ≠ 0)
    (now : Time) (agents candidates : List Agent) :
    Program.Triple (reading.handle inner cfg) (Tracks reading cs d)
      (Demoter.buildCandidates n now cs agents candidates) fun result history s =>
        Tracks reading cs d history s ∧
          (result = [] → candidates = [] ∧ ∀ a ∈ agents, FoundDemoted a.nodeID history) := by
  induction agents generalizing candidates with
  | nil =>
      apply Program.Triple.pure
      intro history s tracks
      exact ⟨tracks, fun empty => ⟨empty, fun a mem => absurd mem List.not_mem_nil⟩⟩
  | cons a rest ih =>
      rw [Demoter.buildCandidates]
      split
      · rename_i full
        apply Program.Triple.pure
        intro history s tracks
        refine ⟨tracks, ?_⟩
        rintro rfl
        exact absurd (Nat.le_zero.mp full) pos
      · have further (more : List Agent) (some : more ≠ []) :=
          (ih more).weaken (fun history s here => here) fun result history s there =>
            (⟨there.1, fun empty => absurd (there.2 empty).1 some⟩ :
              Tracks reading cs d history s ∧ (result = [] → candidates = [] ∧
                ∀ b ∈ a :: rest, FoundDemoted b.nodeID history))
        -- the agent is demoted, and another candidate may still be found
        have skipped (empty : candidates = []) : Program.Triple (reading.handle inner cfg)
            (fun history s => FoundDemoted a.nodeID history ∧ Tracks reading cs d history s)
            (Demoter.buildCandidates n now cs rest candidates) fun result history s =>
              Tracks reading cs d history s ∧ (result = [] → candidates = [] ∧
                ∀ b ∈ a :: rest, FoundDemoted b.nodeID history) := by
          refine ((ih candidates).frame (FoundDemoted.grows a.nodeID)).weaken
            (fun history s here => here) ?_
          rintro result history s ⟨found, tracks, others⟩
          refine ⟨tracks, fun none => ⟨empty, ?_⟩⟩
          intro b mem
          rcases List.mem_cons.mp mem with rfl | later
          · exact found
          · exact (others none).2 b later
        refine (triple_isDemoted positive now a.nodeID).bind ?_
        intro demoted
        cases demoted with
        | false =>
            refine (further (candidates ++ [a]) (by simp)).weaken
              (fun history s here => here.1) fun _ _ _ there => there
        | true =>
            rw [if_pos rfl]
            by_cases empty : candidates = []
            · rw [if_neg (not_not.mpr empty)]
              refine (triple_shouldProbe now a.nodeID).bind ?_
              intro due
              cases due with
              | true =>
                  exact (further (candidates ++ [a.cloneWithState .demoted]) (by simp)).weaken
                    (fun history s here => here.1) fun _ _ _ there => there
              | false =>
                  exact (skipped empty).weaken (fun history s here => here.symm)
                    fun _ _ _ there => there
            · rw [if_pos empty]
              exact (further candidates empty).weaken (fun history s here => here.1)
                fun _ _ _ there => there

theorem triple_forceProbe (now : Time) (id : Int) :
    Program.Triple (reading.handle inner cfg)
      (fun history s => Tracks reading cs d history s ∧ FoundDemoted id history)
      (Demoter.forceProbe now id) fun _ => Tracks reading cs d := by
  apply Program.Triple.perform
  rintro history s ⟨tracks, found⟩
  exact Tracks.stamps rfl found tracks now rfl

/-- A call that is not suppressed. -/
theorem triple_candidatesWithRoute (positive : 0 < cs.faultyThreshold)
    (view : reading.clusterStats = some cs) {health : HealthCheckConfig}
    (active : (isDemotionSuppressed health (some cs)).1 = false) (tp : TopicPartition) (n : Nat) :
    Program.Triple (reading.handle inner cfg) (Tracks reading cs d)
      (Demoter.candidatesWithRoute health tp n) fun _ => Tracks reading cs d := by
  unfold Demoter.candidatesWithRoute
  split
  · exact Program.Triple.pure fun _ _ tracks => tracks
  rename_i pos
  have clock : Program.Triple (reading.handle inner cfg) (Tracks reading cs d) Demoter.clock
      fun _ => Tracks reading cs d := by
    apply Program.Triple.perform
    intro history s tracks
    exact Tracks.reads rfl tracks
  have viewed (now : Time) : Program.Triple (reading.handle inner cfg) (Tracks reading cs d)
      (Demoter.trackerClusterStats now health.slowMultiplier health.faultyThreshold)
      fun found history s => found = some cs ∧ Tracks reading cs d history s := by
    apply Program.Triple.perform
    intro history s tracks
    exact ⟨view, Tracks.reads rfl tracks⟩
  refine clock.bind fun now => (viewed now).bind fun found => ?_
  apply Program.Triple.of_fact
  rintro rfl
  simp only [active]
  refine (triple_fetchCandidates positive tp n now _ _).bind ?_
  rintro ⟨agents, route, noDemotedAgents⟩
  cases agents with
  | nil => exact Program.Triple.pure fun _ _ tracks => tracks
  | cons first rest =>
      dsimp only
      split
      · exact Program.Triple.pure fun _ _ tracks => tracks
      refine (triple_buildCandidates positive pos now (first :: rest) []).bind ?_
      intro candidates
      split
      · rename_i empty
        refine Program.Triple.bind ((triple_forceProbe now first.nodeID).weaken ?_
          fun _ _ _ tracks => tracks) fun _ => Program.Triple.pure fun _ _ tracks => tracks
        rintro history s ⟨tracks, all⟩
        exact ⟨tracks, (all empty).2 first List.mem_cons_self⟩
      · exact Program.Triple.pure fun _ _ here => here.1

end Call

/-- The demoted set after a call says what the call did: who is treated as healthy has no entry,
is not counted, and is judged by the strict number of requests next time. -/
structure DemotedSetMatches (tests : List (Int × Bool)) (d : DemoterState) : Prop where
  entries : ∀ id b, (id, b) ∈ tests → (id ∈ d.lastDemotedProbe ↔ b = true)
  uncounted : ∀ id, (id, false) ∈ tests → ∀ health clusterStats,
    id ∉ d.demotedAgents health clusterStats
  strict : ∀ id, (id, false) ∈ tests → ∀ stats cs,
    (d.isFaulty id stats cs = true ↔ stats.isFaulty (errorRateMinRequests cs) cs)

theorem DemotedSetMatches.of_entries {tests : List (Int × Bool)} {d : DemoterState}
    (entries : ∀ id b, (id, b) ∈ tests → (id ∈ d.lastDemotedProbe ↔ b = true)) :
    DemotedSetMatches tests d := by
  have absent : ∀ id, (id, false) ∈ tests → id ∉ d.lastDemotedProbe := by
    intro id mem here
    exact absurd ((entries id false mem).mp here) Bool.false_ne_true
  refine ⟨entries, ?_, ?_⟩
  · intro id mem health clusterStats counted
    unfold DemoterState.demotedAgents at counted
    split at counted
    · exact absurd counted List.not_mem_nil
    · exact absent id mem (AList.mem_keys.mpr counted)
  · intro id mem stats cs
    rw [DemoterState.isFaulty_iff, if_neg (absent id mem)]
    exact Iff.rfl

/-- The demoted set matches the last classification exactly when no examined agent had an entry
and no stats. -/
theorem demoted_set_matches_iff_no_entry_without_stats {σ : Type} (cfg : DemoterConfig)
    {health : HealthCheckConfig} (tp : TopicPartition) (n : Nat) {reading : DemoterReading}
    (inner : TopicPartition → Nat → σ → (List Agent × RouteOutcome) × σ) {cs : ClusterStats}
    (view : reading.clusterStats = some cs) (echoed : cs.faultyThreshold = health.faultyThreshold)
    (active : (isDemotionSuppressed health (some cs)).1 = false) (d : DemoterState) (strategy : σ) :
    let call := Demoter.candidatesWithRoute health tp n
    let tests := examined (call.trace (reading.handle inner cfg) (d, strategy))
    let d' := (call.exec (reading.handle inner cfg) (d, strategy)).2.1
    (∀ id b b', (id, b) ∈ tests → (id, b') ∈ tests → b = b') ∧
      (DemotedSetMatches tests d' ↔
        ∀ id b, (id, b) ∈ tests → reading.agentStats id = none → id ∉ d.lastDemotedProbe) := by
  intro call tests d'
  have positive : 0 < cs.faultyThreshold := echoed ▸ health.faulty.1
  have done : DemoterState.AfterTests reading.agentStats cs d tests d' := by
    have keeps : Program.Triple (reading.handle inner cfg) (Tracks reading cs d) call
        fun _ => Tracks reading cs d := triple_candidatesWithRoute positive view active tp n
    exact keeps [] (d, strategy) DemoterState.AfterTests.refl
  refine ⟨?_, ?_⟩
  · intro id b b' here there
    rw [done.results id b here, done.results id b' there]
  · constructor
    · intro holds id b mem missing entry
      have healthy : b = false := by
        rw [done.results id b mem, DemoterState.isDemoted, missing]
        rfl
      have kept := (done.others id (Or.inr missing)).mpr entry
      exact absurd ((holds.entries id b mem).mp kept) (by simp [healthy])
    · intro cleared
      apply DemotedSetMatches.of_entries
      intro id b mem
      by_cases missing : reading.agentStats id = none
      · have healthy : b = false := by
          rw [done.results id b mem, DemoterState.isDemoted, missing]
          rfl
        rw [done.others id (Or.inr missing), healthy]
        simp [cleared id b mem missing]
      · exact done.entries id b mem missing

/-- What a call reads in a tracker. -/
def AverageAgentStatsTracker.reading (t : AverageAgentStatsTracker) (health : HealthCheckConfig)
    (now : Time) : DemoterReading :=
  { now := now
    clusterStats := t.clusterStats now health.slowMultiplier health.faultyThreshold
    agentStats := t.agentStats now }

/-- The requests at a second, one to each agent, of which those to agent 1 fail. -/
def requestsAt (sec : Int) (agents : List Int) : List AgentRequest :=
  agents.map fun id =>
    { now := .unix sec
      nodeID := id
      latency := 1000000
      err := if id = 1 then some .contextDeadlineExceeded else none }

/-- Agent 1 fails two requests in two buckets. -/
def failsEarly : AverageAgentStatsTracker :=
  AverageAgentStatsTracker.trackAll {} (requestsAt 5 [1, 2, 3, 4] ++ requestsAt 15 [1, 2, 3, 4])

/-- Then only the others are used. -/
def othersLater : AverageAgentStatsTracker :=
  failsEarly.trackAll (requestsAt 45 [2, 3, 4] ++ requestsAt 61 [2, 3, 4])

def oneBeforeTwo (_ : TopicPartition) (n : Nat) (_ : Unit) : (List Agent × RouteOutcome) × Unit :=
  (([{ nodeID := 1 }, { nodeID := 2 }].take n, .leader), ())

/-- A call at second 17, in the state that it finds. -/
def callAt17 (d : DemoterState) : (List Agent × RouteOutcome) × DemoterState × Unit :=
  (Demoter.candidatesWithRoute halfFaulty ⟨"t", 0⟩ 1).exec
    ((failsEarly.reading halfFaulty (.unix 17)).handle oneBeforeTwo everySecond) (d, ())

theorem demoted_set_matches_iff_no_entry_without_stats_first :
    DemotedSetMatches
      (examined ((Demoter.candidatesWithRoute halfFaulty ⟨"t", 0⟩ 1).trace
        ((failsEarly.reading halfFaulty (.unix 17)).handle oneBeforeTwo everySecond) ({}, ())))
      (callAt17 {}).2.1 := by
  have view : ((failsEarly.reading halfFaulty (.unix 17)).clusterStats).map (fun cs =>
      (cs.faultyThreshold, (isDemotionSuppressed halfFaulty (some cs)).1)) =
      some (1 / 2, false) := by decide +kernel
  obtain ⟨cs, found, read⟩ := Option.map_eq_some_iff.mp view
  obtain ⟨echoed, active⟩ := Prod.mk.inj read
  refine (demoted_set_matches_iff_no_entry_without_stats everySecond ⟨"t", 0⟩ 1 oneBeforeTwo found
    echoed active {} ()).2.mpr ?_
  intro id b mem missing
  exact AList.notMem_empty id

/-- At second 17 agent 1 is demoted. At second 68 one of its buckets has left the window: it is
the routed primary, healthy, and still in the demoted set. -/
theorem fail_open_keeps_entry :
    let d := (callAt17 {}).2.1
    let handle := (othersLater.reading halfFaulty (.unix 68)).handle oneBeforeTwo everySecond
    let call := Demoter.candidatesWithRoute halfFaulty ⟨"t", 0⟩ 1
    let tests := examined (call.trace handle (d, ()))
    let d' := (call.exec handle (d, ())).2.1
    (call.exec handle (d, ())).1.1 = [⟨1, .healthy⟩] ∧ (1, false) ∈ tests ∧
      (d'.lastDemotedProbe.lookup 1).isSome ∧
      d'.demotedAgentsCount halfFaulty (othersLater.reading halfFaulty (.unix 68)).clusterStats = 1 ∧
      ¬ DemotedSetMatches tests d' := by
  intro d handle call tests d'
  have routed : (call.exec handle (d, ())).1.1 = [⟨1, .healthy⟩] := by decide +kernel
  have tested : (1, false) ∈ tests := by decide +kernel
  have entry : (d'.lastDemotedProbe.lookup 1).isSome := by decide +kernel
  refine ⟨routed, tested, entry, by decide +kernel, ?_⟩
  intro holds
  have demoted := (holds.entries 1 false tested).mp (AList.lookup_isSome.mp entry)
  exact Bool.false_ne_true demoted

end Warpstream
