import Warpstream.AgentStatsAgreement
import Warpstream.Lib.Program
import Warpstream.PartitionAssignment

set_option autoImplicit false

/- The Demoter: a strategy that skips agents with a high error rate and probes them from time
to time. A `Candidates` call is a program whose operations are the sections under
`lastDemotedProbeMu` and the reads of the clock, of the tracker and of the wrapped strategy. -/
namespace Warpstream

/-- A `HealthCheckConfig` that passes `Validate`. -/
structure HealthCheckConfig where
  slowMultiplier : ℚ
  maxSlowFraction : ℚ
  faultyThreshold : ℚ
  maxFaultyFraction : ℚ
  slow : 1 ≤ slowMultiplier
  maxSlow : 0 ≤ maxSlowFraction ∧ maxSlowFraction ≤ 1
  faulty : 0 < faultyThreshold ∧ faultyThreshold ≤ 1
  maxFaulty : 0 ≤ maxFaultyFraction ∧ maxFaultyFraction ≤ 1

/-- A `DemoterConfig` that passes `Validate`. -/
structure DemoterConfig where
  probeInterval : Int
  positive : 0 < probeInterval

def Agent.cloneWithState (a : Agent) (state : AgentState) : Agent := { a with state := state }

def maxFractionFloor (configured : ℚ) (contributors : Nat) : ℚ :=
  if contributors = 0 then configured else max configured (1 / contributors)

inductive DemotionSuppressionReason where
  | notSuppressed
  | noClusterStats
  | manyFaultyAgents
  | manyFaultyAgentsSmallCluster
deriving DecidableEq

def isDemotionSuppressed (health : HealthCheckConfig) (clusterStats : Option ClusterStats) :
    Bool × DemotionSuppressionReason :=
  match clusterStats with
  | none => (true, .noClusterStats)
  | some cs =>
      let floor := maxFractionFloor health.maxFaultyFraction cs.faultyContributorsCount
      if cs.faultyFraction ≤ floor then (false, .notSuppressed)
      else if health.maxFaultyFraction < floor then (true, .manyFaultyAgentsSmallCluster)
      else (true, .manyFaultyAgents)

/-- The label of `transitionsTotal`. -/
inductive Transition where
  | demoted
  | restored
deriving DecidableEq, Repr

/-- What a section under the lock does to `lastDemotedProbe`: a counted transition, a slot
taken by `shouldProbe`, the forced probe of a call without candidates, the entries that a
`Refresh` deletes. -/
inductive DemoterEvent where
  | transition (t : Transition) (nodeID : Int)
  | probe (nodeID : Int) (now : Time)
  | forced (nodeID : Int) (now : Time)
  | pruned (nodeIDs : List Int)
deriving DecidableEq

/-- `lastDemotedProbe`, with what has been done to it. An agent is demoted when the map has
an entry for it. -/
structure DemoterState where
  lastDemotedProbe : GoMap Int Time := ∅
  events : List DemoterEvent := []

namespace DemoterState

def update (m : GoMap Int Time) : DemoterEvent → GoMap Int Time
  -- a zero timestamp, so that the first probe is due at once
  | .transition .demoted nodeID => m.insert nodeID Time.zero
  | .transition .restored nodeID => m.erase nodeID
  | .probe nodeID now => m.insert nodeID now
  | .forced nodeID now => m.insert nodeID now
  | .pruned nodeIDs => nodeIDs.foldl (fun m id => m.erase id) m

def record (d : DemoterState) (e : DemoterEvent) : DemoterState :=
  { lastDemotedProbe := update d.lastDemotedProbe e, events := d.events ++ [e] }

/-- The test of `isDemoted`, with its hysteresis: one request is enough for a demoted agent. -/
def isFaulty (d : DemoterState) (nodeID : Int) (stats : AgentStats) (cs : ClusterStats) : Bool :=
  let minRequests := if nodeID ∈ d.lastDemotedProbe then 1 else errorRateMinRequests cs
  stats.isFaulty minRequests cs

/-- The section of `isDemoted`. -/
def classify (d : DemoterState) (nodeID : Int) (stats : AgentStats) (cs : ClusterStats) :
    Bool × DemoterState :=
  let isFaulty := d.isFaulty nodeID stats cs
  if isFaulty ∧ nodeID ∉ d.lastDemotedProbe then
    (isFaulty, d.record (.transition .demoted nodeID))
  else if nodeID ∈ d.lastDemotedProbe ∧ ¬ isFaulty then
    (isFaulty, d.record (.transition .restored nodeID))
  else (isFaulty, d)

/-- The last probe of an agent: the zero time if the map has no entry. -/
def lastProbe (d : DemoterState) (nodeID : Int) : Time :=
  (d.lastDemotedProbe.lookup nodeID).getD Time.zero

def probeDue (cfg : DemoterConfig) (now : Time) (d : DemoterState) (nodeID : Int) : Bool :=
  ¬ now.sub (d.lastProbe nodeID) < cfg.probeInterval

def shouldProbe (cfg : DemoterConfig) (now : Time) (d : DemoterState) (nodeID : Int) :
    Bool × DemoterState :=
  if d.probeDue cfg now nodeID then (true, d.record (.probe nodeID now)) else (false, d)

/-- The section of `Refresh`. -/
def prune (d : DemoterState) (currentAgents : List Int) : DemoterState :=
  d.record (.pruned (d.lastDemotedProbe.keys.filter fun id => id ∉ currentAgents))

end DemoterState

/-- The operations of the Demoter. -/
inductive DemoterOp where
  | clock
  | clusterStats (now : Time) (slowMultiplier faultyThreshold : ℚ)
  | candidatesOf (tp : TopicPartition) (maxCandidates : Nat)
  | agentStats (now : Time) (nodeID : Int)
  | classify (nodeID : Int) (stats : AgentStats) (cs : ClusterStats)
  | shouldProbe (now : Time) (nodeID : Int)
  | forceProbe (now : Time) (nodeID : Int)
  | prune (currentAgents : List Int)

def DemoterOp.Ret : DemoterOp → Type
  | .clock => Time
  | .clusterStats .. => Option ClusterStats
  | .candidatesOf .. => List Agent × RouteOutcome
  | .agentStats .. => Option AgentStats
  | .classify .. => Bool
  | .shouldProbe .. => Bool
  | .forceProbe .. => Unit
  | .prune _ => Unit

/-- What the clock, the tracker and the wrapped strategy answer. -/
structure DemoterInput where
  now : Time := Time.zero
  clusterStats : Option ClusterStats := none
  candidates : List Agent × RouteOutcome := ([], .unclassified)
  agentStats : Option AgentStats := none

def DemoterOp.handle (cfg : DemoterConfig) :
    (o : DemoterOp) → DemoterInput → DemoterState → o.Ret × DemoterState
  | .clock, input, d => (input.now, d)
  | .clusterStats .., input, d => (input.clusterStats, d)
  | .candidatesOf .., input, d => (input.candidates, d)
  | .agentStats .., input, d => (input.agentStats, d)
  | .classify nodeID stats cs, _, d => d.classify nodeID stats cs
  | .shouldProbe now nodeID, _, d => d.shouldProbe cfg now nodeID
  | .forceProbe now nodeID, _, d => ((), d.record (.forced nodeID now))
  | .prune currentAgents, _, d => ((), d.prune currentAgents)

abbrev DemoterProgram := Program DemoterOp DemoterOp.Ret

namespace Demoter

def clock : DemoterProgram Time := Program.perform DemoterOp.clock

def trackerClusterStats (now : Time) (slowMultiplier faultyThreshold : ℚ) :
    DemoterProgram (Option ClusterStats) :=
  Program.perform (DemoterOp.clusterStats now slowMultiplier faultyThreshold)

def candidatesOf (tp : TopicPartition) (maxCandidates : Nat) :
    DemoterProgram (List Agent × RouteOutcome) :=
  Program.perform (DemoterOp.candidatesOf tp maxCandidates)

def trackerAgentStats (now : Time) (nodeID : Int) : DemoterProgram (Option AgentStats) :=
  Program.perform (DemoterOp.agentStats now nodeID)

def classify (nodeID : Int) (stats : AgentStats) (cs : ClusterStats) : DemoterProgram Bool :=
  Program.perform (DemoterOp.classify nodeID stats cs)

def shouldProbe (now : Time) (nodeID : Int) : DemoterProgram Bool :=
  Program.perform (DemoterOp.shouldProbe now nodeID)

def forceProbe (now : Time) (nodeID : Int) : DemoterProgram Unit :=
  Program.perform (DemoterOp.forceProbe now nodeID)

def isDemoted (now : Time) (nodeID : Int) (cs : ClusterStats) : DemoterProgram Bool := do
  match ← trackerAgentStats now nodeID with
  | none => pure false
  | some stats => classify nodeID stats cs

/-- The loop over the agents of one lookup: how many are not demoted, and whether none is. -/
def classifyAll (now : Time) (cs : ClusterStats) :
    List Agent → Nat → Bool → DemoterProgram (Nat × Bool)
  | [], nonDemoted, noDemotedAgents => pure (nonDemoted, noDemotedAgents)
  | c :: rest, nonDemoted, noDemotedAgents => do
      if ← isDemoted now c.nodeID cs then classifyAll now cs rest nonDemoted false
      else classifyAll now cs rest (nonDemoted + 1) noDemotedAgents

/-- The retry loop, with the number of retries left after this one. -/
def fetchCandidates (tp : TopicPartition) (maxCandidates : Nat) (now : Time) (cs : ClusterStats) :
    Nat → Nat → DemoterProgram (List Agent × RouteOutcome × Bool)
  | left, extra => do
      let asked := maxCandidates + extra
      let (agents, route) ← candidatesOf tp asked
      let (nonDemoted, noDemotedAgents) ← classifyAll now cs agents 0 true
      if maxCandidates ≤ nonDemoted ∨ agents.length < asked then
        pure (agents, route, noDemotedAgents)
      else
        match left with
        | 0 => pure (agents, route, noDemotedAgents)
        | left + 1 => fetchCandidates tp maxCandidates now cs left (extra * 2)

/-- The second pass over the agents. -/
def buildCandidates (maxCandidates : Nat) (now : Time) (cs : ClusterStats) :
    List Agent → List Agent → DemoterProgram (List Agent)
  | [], candidates => pure candidates
  | agent :: rest, candidates =>
      if maxCandidates ≤ candidates.length then pure candidates
      else do
        if ← isDemoted now agent.nodeID cs then
          if candidates ≠ [] then buildCandidates maxCandidates now cs rest candidates
          else if ← shouldProbe now agent.nodeID then
            buildCandidates maxCandidates now cs rest
              (candidates ++ [agent.cloneWithState .demoted])
          else buildCandidates maxCandidates now cs rest candidates
        else buildCandidates maxCandidates now cs rest (candidates ++ [agent])

def maxRetries : Nat := 6

def candidatesWithRoute (health : HealthCheckConfig) (tp : TopicPartition) (maxCandidates : Nat) :
    DemoterProgram (List Agent × RouteOutcome) :=
  if maxCandidates = 0 then pure ([], .unclassified)
  else do
    let now ← clock
    let clusterStats ← trackerClusterStats now health.slowMultiplier health.faultyThreshold
    match clusterStats, (isDemotionSuppressed health clusterStats).1 with
    | some cs, false =>
        let (agents, route, noDemotedAgents) ←
          fetchCandidates tp maxCandidates now cs (maxRetries - 1) 2
        match agents with
        | [] => pure ([], route)
        | first :: rest =>
            if noDemotedAgents then pure ((first :: rest).take maxCandidates, route)
            else
              let candidates ← buildCandidates maxCandidates now cs (first :: rest) []
              if candidates = [] then
                forceProbe now first.nodeID
                pure ([first.cloneWithState .demoted], route)
              else pure (candidates, route)
    | _, _ => candidatesOf tp maxCandidates

/-- `Refresh`. -/
def refresh (currentAgents : List Int) : DemoterProgram Unit :=
  Program.perform (DemoterOp.prune currentAgents)

end Demoter

end Warpstream
