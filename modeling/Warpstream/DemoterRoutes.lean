import Mathlib.Data.Fintype.Basic
import Warpstream.Demoter

set_option autoImplicit false

/- How a lookup is counted, and that the Demoter over the default strategy never returns an
agent with an outcome that is not counted. -/
namespace Warpstream

inductive RouteSource where
  | leader
  | standIn
deriving DecidableEq, Repr

instance : Fintype RouteSource :=
  Fintype.ofList [.leader, .standIn] fun source => by cases source <;> simp

inductive RoutingMissReason where
  | other
  | emptyPool
  | unknownTopic
  | noLeader
  | partitionOutOfRange
deriving DecidableEq, Repr

instance : Fintype RoutingMissReason :=
  Fintype.ofList [.other, .emptyPool, .unknownTopic, .noLeader, .partitionOutOfRange]
    fun reason => by cases reason <;> simp

/-- The counter of an accepted route, if it has one. -/
def RouteOutcome.routeSource : RouteOutcome → Option RouteSource
  | .leader => some .leader
  | .standIn => some .standIn
  | _ => none

def RouteOutcome.missReason : RouteOutcome → RoutingMissReason
  | .missEmptyPool => .emptyPool
  | .missUnknownTopic => .unknownTopic
  | .missNoLeader => .noLeader
  | .missOutOfRange => .partitionOutOfRange
  | _ => .other

/-- A lookup that found an agent says where it comes from. -/
def Classified (answer : List Agent × RouteOutcome) : Prop :=
  answer.1 ≠ [] → answer.2.routeSource ≠ none

namespace DefaultPartitionAssignmentStrategy

variable {hashTopicPartition : String → Int → UInt64} {s : DefaultPartitionAssignmentStrategy}
  {topic : String} {partition : Int}

theorem routeSource_of_leaderWithRoute {leader : Int} {route : RouteOutcome}
    (resolved : s.leaderWithRoute hashTopicPartition topic partition = .ok (leader, route)) :
    route.routeSource ≠ none := by
  unfold leaderWithRoute at resolved
  split at resolved
  · cases resolved
    simp [RouteOutcome.routeSource]
  · split at resolved
    · cases resolved
    · split at resolved
      · cases resolved
      · split at resolved
        · split at resolved
          · split at resolved <;> cases resolved
          · cases resolved
        · split at resolved
          · cases resolved
          · cases resolved
            simp [RouteOutcome.routeSource]

theorem classified_candidatesWithRoute (maxCandidates : Nat) :
    Classified (s.candidatesWithRoute hashTopicPartition topic partition maxCandidates) := by
  intro found
  unfold candidatesWithRoute at found ⊢
  split at found
  · exact absurd rfl found
  · rename_i asked
    rw [if_neg asked]
    cases resolved : s.leaderWithRoute hashTopicPartition topic partition with
    | error miss =>
        rw [resolved] at found
        exact absurd rfl found
    | ok r =>
        obtain ⟨leader, route⟩ := r
        have counted := routeSource_of_leaderWithRoute resolved
        dsimp only
        split <;> exact counted

end DefaultPartitionAssignmentStrategy

namespace Demoter

/-- The wrapped strategy answers from some snapshot of the pool, a new one for each lookup.
The clock, the tracker and the shared map answer anything. -/
def OverDefault (hashTopicPartition : String → Int → UInt64) : (o : DemoterOp) → o.Ret → Prop
  | .candidatesOf tp maxCandidates, answer =>
      ∃ s : DefaultPartitionAssignmentStrategy,
        answer = s.candidatesWithRoute hashTopicPartition tp.topic tp.partition maxCandidates
  | _, _ => True

/-- A lookup of the client: one candidate, asked of the Demoter over the default strategy. -/
def Looks (health : HealthCheckConfig) (hashTopicPartition : String → Int → UInt64)
    (tp : TopicPartition) (answer : List Agent × RouteOutcome) : Prop :=
  (candidatesWithRoute health tp 1).Returns (OverDefault hashTopicPartition) answer

variable {health : HealthCheckConfig} {hashTopicPartition : String → Int → UInt64}
  {tp : TopicPartition}

theorem ensures_candidatesOf (maxCandidates : Nat) :
    (candidatesOf tp maxCandidates).Ensures (OverDefault hashTopicPartition) Classified := by
  rintro answer ⟨s, rfl⟩
  exact DefaultPartitionAssignmentStrategy.classified_candidatesWithRoute maxCandidates

/-- Whatever a program does between the lookup and its result. -/
theorem ensures_any {α : Type} (p : DemoterProgram α) :
    p.Ensures (OverDefault hashTopicPartition) fun _ => True := by
  induction p with
  | ret a => exact trivial
  | op o next ih => exact fun r _ => ih r

/-- The retry loop returns the agents of its last lookup with that lookup's outcome. -/
theorem ensures_fetchCandidates (maxCandidates : Nat) (now : Time) (cs : ClusterStats)
    (left extra : Nat) :
    (fetchCandidates tp maxCandidates now cs left extra).Ensures (OverDefault hashTopicPartition)
      fun found => Classified (found.1, found.2.1) := by
  induction left generalizing extra with
  | zero =>
      unfold fetchCandidates
      apply Program.Ensures.bind
      apply (ensures_candidatesOf _).weaken
      intro answer classified
      apply Program.Ensures.bind
      apply (ensures_any _).weaken
      intro counted _
      dsimp only
      split <;> exact classified
  | succ left ih =>
      unfold fetchCandidates
      apply Program.Ensures.bind
      apply (ensures_candidatesOf _).weaken
      intro answer classified
      apply Program.Ensures.bind
      apply (ensures_any _).weaken
      intro counted _
      dsimp only
      split
      · exact classified
      · exact ih (extra * 2)

theorem ensures_candidatesWithRoute (maxCandidates : Nat) :
    (candidatesWithRoute health tp maxCandidates).Ensures (OverDefault hashTopicPartition)
      Classified := by
  unfold candidatesWithRoute
  split
  · exact fun found => absurd rfl found
  · apply Program.Ensures.bind
    apply (ensures_any _).weaken
    intro now _
    apply Program.Ensures.bind
    apply (ensures_any _).weaken
    intro clusterStats _
    split
    · apply Program.Ensures.bind
      apply (ensures_fetchCandidates _ _ _ _ _).weaken
      rintro ⟨agents, route, noDemotedAgents⟩ classified
      dsimp only at classified ⊢
      split
      · exact classified
      · have counted : route.routeSource ≠ none := classified (List.cons_ne_nil _ _)
        split
        · exact fun _ => counted
        · apply Program.Ensures.bind
          apply (ensures_any _).weaken
          intro candidates _
          split
          · apply Program.Ensures.bind
            apply (ensures_any _).weaken
            intro _ _
            exact fun _ => counted
          · exact fun _ => counted
    · exact ensures_candidatesOf maxCandidates

/-- Without cluster statistics the Demoter passes the answer on. -/
theorem looks_of_default (health : HealthCheckConfig) (hashTopicPartition : String → Int → UInt64)
    (s : DefaultPartitionAssignmentStrategy) (tp : TopicPartition) :
    Looks health hashTopicPartition tp
      (s.candidatesWithRoute hashTopicPartition tp.topic tp.partition 1) := by
  have asked : (candidatesOf tp 1).Returns (OverDefault hashTopicPartition)
      (s.candidatesWithRoute hashTopicPartition tp.topic tp.partition 1) :=
    .op ⟨s, rfl⟩ (.ret _)
  apply Program.Returns.op (o := DemoterOp.clock) (r := Time.zero) trivial
  apply Program.Returns.op (o := DemoterOp.clusterStats _ _ _) (r := none) trivial
  exact asked

/-- An agent that the client is given comes with an outcome that is counted as a route. -/
theorem Looks.classified {answer : List Agent × RouteOutcome}
    (looks : Looks health hashTopicPartition tp answer) : Classified answer :=
  (ensures_candidatesWithRoute 1).of_returns looks

end Demoter

end Warpstream
