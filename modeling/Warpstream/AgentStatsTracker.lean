import Mathlib.Data.Rat.Floor
import Warpstream.Lib.EpochRing
import Warpstream.ProduceResult

set_option autoImplicit false

/- Request outcomes per agent in a ring of time buckets, and the per-agent and the
cluster-wide view of it. Rates and thresholds are exact fractions. -/
namespace Warpstream

def numStatsBuckets : Nat := 6

def bucketDurationNs : Int := 10000000000

def minFilledBuckets : Nat := 2

structure AgentStats where
  latency : Nat := 0
  errorRate : ℚ := 0
  requestCount : Nat := 0

structure ClusterStats where
  baselineLatency : Nat := 0
  slowThreshold : Int := 0
  slowFraction : ℚ := 0
  slowContributorsCount : Nat := 0
  baselineErrorRate : ℚ := 0
  faultyThreshold : ℚ := 0
  avgRequestsPerAgent : Nat := 0
  faultyFraction : ℚ := 0
  faultyContributorsCount : Nat := 0

structure AverageAgentStatsBucket where
  epochStart : Int := 0
  successfulLatencySumMs : Nat := 0
  successfulLatencyCount : Nat := 0
  faultyCount : Nat := 0

structure AverageAgentStats where
  buckets : Fin numStatsBuckets → AverageAgentStatsBucket := fun _ => {}

structure AverageAgentStatsSnapshot where
  successfulRequestsLatencySumMs : Nat := 0
  successfulRequestsLatencyCount : Nat := 0
  faultyRequestsCount : Nat := 0
  filledBuckets : Nat := 0
deriving DecidableEq

/-- The ring slot of a time. Go's `%` keeps the sign of the dividend. -/
def bucketIndex (nowNs : Int) : Fin numStatsBuckets :=
  let idx := (nowNs.tdiv bucketDurationNs).tmod numStatsBuckets
  ⟨(if idx < 0 then idx + numStatsBuckets else idx).toNat, by
    have lower := Int.lt_tmod_of_pos (nowNs.tdiv bucketDurationNs)
      (by decide : (0 : Int) < numStatsBuckets)
    have upper := Int.tmod_lt_of_pos (nowNs.tdiv bucketDurationNs)
      (by decide : (0 : Int) < numStatsBuckets)
    have slots : (numStatsBuckets : Int) = 6 := rfl
    have slots' : numStatsBuckets = 6 := rfl
    simp only [idx]
    split <;> omega⟩

namespace AverageAgentStats

/-- The bucket of a time, emptied if it holds another epoch. -/
def currentBucket (s : AverageAgentStats) (nowNs : Int) : AverageAgentStatsBucket :=
  let epochStart := nowNs.tdiv bucketDurationNs * bucketDurationNs
  let b := s.buckets (bucketIndex nowNs)
  if b.epochStart ≠ epochStart then { epochStart := epochStart } else b

/-- The part of `TrackAgentRequest` under `bucketsMu`. The latency is a `time.Since` reading
in nanoseconds, which is never negative. -/
def track (s : AverageAgentStats) (nowNs : Int) (latency : Nat) (err : Option GoError) :
    AverageAgentStats :=
  let b := s.currentBucket nowNs
  let b :=
    if err = none then
      { b with
        successfulLatencySumMs := b.successfulLatencySumMs + latency / 1000000
        successfulLatencyCount := b.successfulLatencyCount + 1 }
    else { b with faultyCount := b.faultyCount + 1 }
  ⟨Function.update s.buckets (bucketIndex nowNs) b⟩

/-- The buckets that the loop of `snapshot` does not skip. -/
def countedBuckets (s : AverageAgentStats) (nowNs : Int) : List AverageAgentStatsBucket :=
  let currentEpoch := nowNs.tdiv bucketDurationNs * bucketDurationNs
  let cutoff := currentEpoch - (numStatsBuckets - 1 : Int) * bucketDurationNs
  ((List.finRange numStatsBuckets).map s.buckets).filter fun b =>
    ¬ (b.successfulLatencyCount + b.faultyCount = 0 ∨ b.epochStart < cutoff)

def snapshot (s : AverageAgentStats) (nowNs : Int) : AverageAgentStatsSnapshot :=
  let counted := s.countedBuckets nowNs
  { successfulRequestsLatencySumMs := (counted.map (·.successfulLatencySumMs)).sum
    successfulRequestsLatencyCount := (counted.map (·.successfulLatencyCount)).sum
    faultyRequestsCount := (counted.map (·.faultyCount)).sum
    filledBuckets := counted.length }

end AverageAgentStats

namespace AverageAgentStatsSnapshot

def totalRequestsCount (s : AverageAgentStatsSnapshot) : Nat :=
  s.successfulRequestsLatencyCount + s.faultyRequestsCount

/-- The window-average latency of the successful requests, in whole milliseconds. -/
def averageLatencyMs (s : AverageAgentStatsSnapshot) : Nat :=
  s.successfulRequestsLatencySumMs / s.successfulRequestsLatencyCount

def errorRate (s : AverageAgentStatsSnapshot) : ℚ := s.faultyRequestsCount / s.totalRequestsCount

def toAgentStats (s : AverageAgentStatsSnapshot) : AgentStats :=
  { latency := if 0 < s.successfulRequestsLatencyCount then s.averageLatencyMs * 1000000 else 0
    errorRate := if 0 < s.totalRequestsCount then s.errorRate else 0
    requestCount := s.totalRequestsCount }

end AverageAgentStatsSnapshot

def errorRateMinRequests (stats : ClusterStats) : Nat :=
  if stats.faultyThreshold ≤ 0 then 0
  else
    let base := max 1 ⌈1 / stats.faultyThreshold⌉.toNat
    if base ≤ stats.avgRequestsPerAgent then base else min base minFilledBuckets

/-- `AverageAgentStatsTracker`. -/
structure AverageAgentStatsTracker where
  stats : GoMap Int AverageAgentStats := ∅

namespace AverageAgentStatsTracker

/-- `getOrCreate`: the entry of an agent, empty on first use. -/
def getOrCreate (t : AverageAgentStatsTracker) (nodeID : Int) : AverageAgentStats :=
  (t.stats.lookup nodeID).getD {}

def trackAgentRequest (t : AverageAgentStatsTracker) (now : Time) (nodeID : Int) (latency : Nat)
    (err : Option GoError) : AverageAgentStatsTracker :=
  if errIs err .contextCanceled then t
  else ⟨t.stats.insert nodeID ((t.getOrCreate nodeID).track now.unixNano latency err)⟩

def purgeAgents (t : AverageAgentStatsTracker) (nodeIDs : List Int) : AverageAgentStatsTracker :=
  ⟨nodeIDs.foldl (fun stats id => stats.erase id) t.stats⟩

def agentStats (t : AverageAgentStatsTracker) (now : Time) (nodeID : Int) : Option AgentStats :=
  (t.stats.lookup nodeID).bind fun s =>
    let snap := s.snapshot now.unixNano
    if snap.filledBuckets < minFilledBuckets then none else some snap.toAgentStats

/-- The conversion of a float to an integer drops the fraction. -/
def truncate (q : ℚ) : Int := if 0 ≤ q then ⌊q⌋ else ⌈q⌉

/-- The conversion to int64. What becomes of a value outside the range is left to the
implementation; this is the result on amd64. -/
def truncateInt64 (q : ℚ) : Int :=
  if -2 ^ 63 ≤ truncate q ∧ truncate q < 2 ^ 63 then truncate q else -2 ^ 63

def snapshots (t : AverageAgentStatsTracker) (now : Time) : List AverageAgentStatsSnapshot :=
  t.stats.entries.map fun e => e.2.snapshot now.unixNano

/-- The agents with a request in the window. -/
def observedAgents (t : AverageAgentStatsTracker) (now : Time) : List AverageAgentStatsSnapshot :=
  (t.snapshots now).filter fun s => s.totalRequestsCount ≠ 0

/-- Those that also pass the filled-buckets gate. -/
def qualifiedAgents (t : AverageAgentStatsTracker) (now : Time) : List AverageAgentStatsSnapshot :=
  (t.observedAgents now).filter fun s => ¬ s.filledBuckets < minFilledBuckets

def agentAverageLatenciesMs (t : AverageAgentStatsTracker) (now : Time) : List Nat :=
  ((t.qualifiedAgents now).filter fun s => 0 < s.successfulRequestsLatencyCount).map
    (·.averageLatencyMs)

/-- The mean of the agents' average latencies, in whole milliseconds. -/
def baselineLatencyMs (t : AverageAgentStatsTracker) (now : Time) : Nat :=
  (t.agentAverageLatenciesMs now).sum / (t.agentAverageLatenciesMs now).length

/-- The products with `time.Millisecond` are int64. That of an average latency is in range,
since every latency is a `time.Duration`; that of the slow threshold need not be. -/
def clusterStats (t : AverageAgentStatsTracker) (now : Time) (slowMultiplier faultyThreshold : ℚ) :
    Option ClusterStats :=
  let observed := t.observedAgents now
  let qualified := t.qualifiedAgents now
  let latencies := t.agentAverageLatenciesMs now
  if qualified.length = 0 ∨ qualified.length * 2 < observed.length then none
  else
    let slowThresholdMs := truncateInt64 (t.baselineLatencyMs now * slowMultiplier)
    let avgRequestsPerAgent := (observed.map (·.totalRequestsCount)).sum / observed.length
    let minErrorRateRequests := errorRateMinRequests
      { faultyThreshold := faultyThreshold, avgRequestsPerAgent := avgRequestsPerAgent }
    let faultyAgentsCount := (qualified.filter fun s =>
      minErrorRateRequests ≤ s.totalRequestsCount ∧ faultyThreshold < s.errorRate).length
    let slowAgentsCount := (latencies.filter fun (ms : Nat) => slowThresholdMs < ms).length
    some
      { baselineLatency := t.baselineLatencyMs now * 1000000
        slowThreshold := int64 (slowThresholdMs * 1000000)
        -- a division by zero is zero
        slowFraction := slowAgentsCount / latencies.length
        slowContributorsCount := latencies.length
        baselineErrorRate := (qualified.map (·.faultyRequestsCount)).sum /
          (qualified.map (·.totalRequestsCount)).sum
        faultyThreshold := faultyThreshold
        avgRequestsPerAgent := avgRequestsPerAgent
        faultyFraction := faultyAgentsCount / observed.length
        faultyContributorsCount := observed.length }

end AverageAgentStatsTracker

end Warpstream
