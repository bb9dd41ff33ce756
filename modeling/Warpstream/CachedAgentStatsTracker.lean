import Warpstream.AgentStatsTracker
import Warpstream.Lib.RelyGuarantee

set_option autoImplicit false

/- The tracker that caches cluster stats. The sections under `cacheMu`, the waits for
`refreshMu` and the calls of the inner tracker are operations of their own. The inner
tracker answers anything: a call of it has a first and a last step, and a purge removes at
one moment in between. -/
namespace Warpstream

structure ClusterStatsCacheKey where
  slowMultiplier : ℚ
  faultyThreshold : ℚ
deriving DecidableEq

/-- A call of the inner `ClusterStats`: its arguments and its result, the `ClusterStats` call
it belongs to and when it began. -/
structure Computation where
  key : ClusterStatsCacheKey
  now : Time
  stats : Option ClusterStats
  caller : Nat
  began : Nat

/-- `clusterStatsCacheEntry`. The last two fields only say where the stats come from. -/
structure ClusterStatsCacheEntry where
  stats : Option ClusterStats
  computedAt : Time
  caller : Nat
  began : Nat

/-- What a `ClusterStats` call returned: the stats of a computation, found in the cache or
made by the call. -/
structure ClusterStatsReturn where
  key : ClusterStatsCacheKey
  now : Time
  started : Nat
  result : Computation
  cached : Bool

/-- A `PurgeAgents` call that returned. -/
structure PurgeReturn where
  removedAt : Nat
  returnedAt : Nat

/-- The cache and its locks, with a record of what happened. Operations are numbered by
`tick`; `cleared` holds the removals whose clear of the cache is done. `cachePurgeGen` is a
uint64 in the source. It is only compared with the value that the same call read before, so a
wrap could show only if one call computed its stats across `2 ^ 64` purges. -/
structure CacheState where
  refreshMu : Bool := false
  cache : GoMap ClusterStatsCacheKey ClusterStatsCacheEntry := ∅
  cachePurgeGen : Nat := 0
  tick : Nat := 0
  cleared : List Nat := []
  computations : List Computation := []
  returns : List ClusterStatsReturn := []
  purges : List PurgeReturn := []

inductive CacheOp where
  | enter
  | lookup (key : ClusterStatsCacheKey)
  | lockRefresh
  | unlockRefresh
  | readGen
  | beginCompute
  | endCompute (key : ClusterStatsCacheKey) (now : Time) (caller began : Nat)
  | store (key : ClusterStatsCacheKey) (gen : Nat) (entry : ClusterStatsCacheEntry)
  | leave (ret : ClusterStatsReturn)
  | removeInner (nodeIDs : List Int)
  | clearCache (removedAt : Nat)
  | leavePurge (removedAt : Nat)

def CacheOp.Ret : CacheOp → Type
  | .enter => Nat
  | .lookup _ => Option ClusterStatsCacheEntry
  | .readGen => Nat
  | .beginCompute => Nat
  | .endCompute .. => Option ClusterStats
  | .removeInner _ => Nat
  | _ => Unit

namespace CacheState

def next (s : CacheState) : CacheState := { s with tick := s.tick + 1 }

/-- What the inner tracker answers is the input. -/
def handle : (o : CacheOp) → Option ClusterStats → CacheState → Option (o.Ret × CacheState)
  | .enter, _, s => some (s.tick, s.next)
  | .lookup key, _, s => some (s.cache.lookup key, s.next)
  | .lockRefresh, _, s => if s.refreshMu then none else some ((), { s.next with refreshMu := true })
  | .unlockRefresh, _, s => some ((), { s.next with refreshMu := false })
  | .readGen, _, s => some (s.cachePurgeGen, s.next)
  | .beginCompute, _, s => some (s.tick, s.next)
  | .endCompute key now caller began, stats, s =>
      some (stats, { s.next with
        computations := s.computations ++ [⟨key, now, stats, caller, began⟩] })
  | .store key gen entry, _, s =>
      some ((), if s.cachePurgeGen = gen then { s.next with cache := s.cache.insert key entry }
        else s.next)
  | .leave ret, _, s => some ((), { s.next with returns := s.returns ++ [ret] })
  | .removeInner _, _, s => some (s.tick, s.next)
  | .clearCache removedAt, _, s =>
      some ((), { s.next with
        cache := ∅
        cachePurgeGen := s.cachePurgeGen + 1
        cleared := s.cleared ++ [removedAt] })
  | .leavePurge removedAt, _, s =>
      some ((), { s.next with purges := s.purges ++ [⟨removedAt, s.tick⟩] })

end CacheState

abbrev CacheProgram := Program CacheOp CacheOp.Ret

namespace CachedAgentStatsTracker

def perform (o : CacheOp) : CacheProgram o.Ret := Program.perform o

def lookup (cacheTTL : Int) (key : ClusterStatsCacheKey) (now : Time) :
    CacheProgram (Option ClusterStatsCacheEntry) := do
  let entry : Option ClusterStatsCacheEntry ← perform (.lookup key)
  match entry with
  | none => pure none
  | some entry => if cacheTTL ≤ now.sub entry.computedAt then pure none else pure (some entry)

/-- The return of a cached entry. -/
def hit (key : ClusterStatsCacheKey) (now : Time) (started : Nat)
    (entry : ClusterStatsCacheEntry) : ClusterStatsReturn :=
  { key, now, started, cached := true
    result := ⟨key, entry.computedAt, entry.stats, entry.caller, entry.began⟩ }

def clusterStats (cacheTTL : Int) (now : Time) (slowMultiplier faultyThreshold : ℚ) :
    CacheProgram Unit := do
  let key : ClusterStatsCacheKey := ⟨slowMultiplier, faultyThreshold⟩
  let started : Nat ← perform .enter
  match ← lookup cacheTTL key now with
  | some entry => perform (.leave (hit key now started entry))
  | none =>
      perform .lockRefresh
      match ← lookup cacheTTL key now with
      | some entry =>
          perform .unlockRefresh
          perform (.leave (hit key now started entry))
      | none =>
          let gen : Nat ← perform .readGen
          let began : Nat ← perform .beginCompute
          let stats : Option ClusterStats ← perform (.endCompute key now started began)
          perform (.store key gen ⟨stats, now, started, began⟩)
          perform .unlockRefresh
          perform (.leave ⟨key, now, started, ⟨key, now, stats, started, began⟩, false⟩)

def purgeAgents (nodeIDs : List Int) : CacheProgram Unit := do
  let removedAt : Nat ← perform (.removeInner nodeIDs)
  perform (.clearCache removedAt)
  perform (.leavePurge removedAt)

end CachedAgentStatsTracker

end Warpstream
