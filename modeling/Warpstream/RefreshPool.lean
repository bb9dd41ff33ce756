import Warpstream.AgentPool
import Warpstream.AgentStatsTracker
import Warpstream.Lib.Machine

set_option autoImplicit false

/- `refreshPool` and the requests that complete meanwhile. The refresh goroutine first
replaces the pool snapshot and then purges the agents that left, and a request can be tracked
at any time. -/
namespace Warpstream

/-- The pool, the tracker and the purge that a running `refreshPool` still has to make.
`tracked` holds the agents with a request since the last successful `refreshPool`, and
`trackedBefore` those between the last two. -/
structure RefreshState where
  pool : PoolState := {}
  tracker : AverageAgentStatsTracker := {}
  purging : Option (List Int) := none
  tracked : List Int := []
  trackedBefore : List Int := []

inductive RefreshAction where
  | refresh (metadata : Except GoError Kmsg.MetadataResponse)
  | purge
  | track (now : Time) (nodeID : Int) (latency : Nat) (err : Option GoError)

namespace RefreshState

/-- The first part of `refreshPool`. A failed fetch ends it. -/
def refresh (s : RefreshState) (metadata : Except GoError Kmsg.MetadataResponse) : RefreshState :=
  match AgentPool.refresh s.pool metadata with
  | (pool, .ok (removed, _)) => { s with pool := pool, purging := some removed }
  | (pool, .error _) => { s with pool := pool }

/-- The second part, which ends a successful `refreshPool`. -/
def purge (s : RefreshState) (removed : List Int) : RefreshState :=
  { s with
    tracker := if 0 < removed.length then s.tracker.purgeAgents removed else s.tracker
    purging := none
    tracked := []
    trackedBefore := s.tracked }

def track (s : RefreshState) (now : Time) (nodeID : Int) (latency : Nat) (err : Option GoError) :
    RefreshState :=
  { s with
    tracker := s.tracker.trackAgentRequest now nodeID latency err
    tracked := if errIs err .contextCanceled then s.tracked else nodeID :: s.tracked }

def step (s : RefreshState) : RefreshAction → Option RefreshState
  | .refresh metadata => if s.purging.isSome then none else some (s.refresh metadata)
  | .purge => s.purging.map s.purge
  | .track now nodeID latency err => some (s.track now nodeID latency err)

/-- The tracker has only agents of the pool and agents tracked since the refresh before. -/
def NoLeftovers (s : RefreshState) : Prop :=
  ∀ id ∈ s.tracker.stats, id ∈ s.pool.agents ∨ id ∈ s.trackedBefore

/-- A tracked request is of an agent of the pool, or of one that is about to be purged. A
cancelled request counts for nothing. -/
def tracksMember (s : RefreshState) : RefreshAction → Bool
  | .track _ nodeID _ err =>
      errIs err .contextCanceled ∨ nodeID ∈ s.pool.agents ∨ nodeID ∈ s.purging.getD []
  | _ => true

/-- Agents with an entry are in the pool or about to be purged. -/
def Members (s : RefreshState) : Prop :=
  ∀ id ∈ s.tracker.stats, id ∈ s.pool.agents ∨ id ∈ s.purging.getD []

theorem Members.refresh {s : RefreshState} (members : s.Members) (idle : s.purging = none)
    (metadata : Except GoError Kmsg.MetadataResponse) : (s.refresh metadata).Members := by
  intro id mem
  cases metadata with
  | error err => exact members id mem
  | ok metadata =>
      have before : id ∈ s.pool.agents := by simpa [idle] using members id mem
      by_cases stays : id ∈ (AgentPool.snapshot s.pool metadata).1.agents
      · exact Or.inl stays
      · exact Or.inr (List.mem_filter.mpr ⟨before, decide_eq_true stays⟩)

theorem mem_stats_purge {s : RefreshState} {removed : List Int} {id : Int} :
    id ∈ (s.purge removed).tracker.stats ↔ id ∈ s.tracker.stats ∧ id ∉ removed := by
  unfold purge
  dsimp only
  split
  · exact Inserts.mem_eraseAll
  · rename_i none
    rw [List.eq_nil_of_length_eq_zero (Nat.eq_zero_of_not_pos none)]
    simp

theorem Members.purge {s : RefreshState} (members : s.Members) {removed : List Int}
    (pending : s.purging = some removed) :
    ∀ id ∈ (s.purge removed).tracker.stats, id ∈ s.pool.agents := by
  intro id mem
  obtain ⟨old, kept⟩ := mem_stats_purge.mp mem
  have placed := members id old
  rw [pending, Option.getD_some] at placed
  exact placed.resolve_right kept

theorem Members.track {s : RefreshState} (members : s.Members) {now : Time} {nodeID : Int}
    {latency : Nat} {err : Option GoError}
    (member : s.tracksMember (.track now nodeID latency err) = true) :
    (s.track now nodeID latency err).Members := by
  intro id mem
  unfold RefreshState.track AverageAgentStatsTracker.trackAgentRequest at mem
  split at mem
  · exact members id mem
  · rename_i counts
    rcases (AList.mem_insert _).mp mem with rfl | old
    · have placed : id ∈ s.pool.agents ∨ id ∈ s.purging.getD [] := by
        simpa [tracksMember, counts] using member
      exact placed
    · exact members id old

theorem Members.step {s s' : RefreshState} {a : RefreshAction} (members : s.Members)
    (member : s.tracksMember a = true) (stepped : s.step a = some s') : s'.Members := by
  cases a with
  | refresh metadata =>
      unfold RefreshState.step at stepped
      dsimp only at stepped
      split at stepped
      · cases stepped
      · rename_i idle
        obtain rfl := Option.some.inj stepped
        exact members.refresh (by simpa using idle) metadata
  | purge =>
      obtain ⟨removed, pending, rfl⟩ := Option.map_eq_some_iff.mp stepped
      exact fun id mem => Or.inl (members.purge pending id mem)
  | track now nodeID latency err =>
      obtain rfl := Option.some.inj stepped
      exact members.track member

end RefreshState

/-- In every run in which only requests of present agents are tracked, the end of each
successful `refreshPool` leaves no stats of departed agents. -/
theorem refreshPool_leaves_no_departed {pool : PoolState} {actions : List RefreshAction}
    {s : RefreshState}
    (members : Machine.along RefreshState.step RefreshState.tracksMember { pool := pool } actions =
      true)
    (runs : Machine.run RefreshState.step { pool := pool } (actions ++ [.purge]) = some s) :
    s.NoLeftovers := by
  obtain ⟨mid, reached, ended⟩ := Machine.run_concat_eq_some.mp runs
  have placed : mid.Members := by
    refine Machine.invariant_along RefreshState.Members members ?_ ?_ reached
    · exact fun s a s' members member stepped => members.step member stepped
    · exact fun id mem => absurd mem (AList.notMem_empty id)
  obtain ⟨removed, pending, rfl⟩ := Option.map_eq_some_iff.mp ended
  exact fun id mem => Or.inl (placed.purge pending id mem)

/-- A Metadata response with the given brokers and no topics. -/
def brokers (ids : List Int) : Kmsg.MetadataResponse :=
  { brokers := ids.map fun id => { nodeID := id }, topics := [] }

def trackOne (nodeID : Int) : RefreshAction := .track (.unix 1000) nodeID 5 none

theorem refreshPool_leaves_no_departed_two :
    ∃ s : RefreshState,
      Machine.run RefreshState.step { pool := (AgentPool.refresh {} (.ok (brokers [1, 2]))).1 }
        ([trackOne 2, .refresh (.ok (brokers [1])), trackOne 2] ++ [.purge]) = some s ∧
      s.NoLeftovers := by
  have ran : (Machine.run RefreshState.step
      { pool := (AgentPool.refresh {} (.ok (brokers [1, 2]))).1 }
      ([trackOne 2, .refresh (.ok (brokers [1])), trackOne 2] ++ [.purge])).isSome = true := by
    decide +kernel
  obtain ⟨s, runs⟩ := Option.isSome_iff_exists.mp ran
  exact ⟨s, runs, refreshPool_leaves_no_departed (by decide +kernel) runs⟩

/-- Agent 2 leaves and is purged, then the outcome of a request to it is tracked. The next two
refreshes succeed and do not purge it again, as it was not in the pool before. -/
def lateOutcome : List RefreshAction :=
  [.refresh (.ok (brokers [1])), .purge, trackOne 2, .refresh (.ok (brokers [1])), .purge,
    .refresh (.ok (brokers [1])), .purge]

theorem refreshPool_leaves_departed_agent :
    ∃ s : RefreshState,
      Machine.run RefreshState.step { pool := (AgentPool.refresh {} (.ok (brokers [1, 2]))).1 }
        lateOutcome = some s ∧
      ¬ s.NoLeftovers := by
  have ran : (Machine.run RefreshState.step
      { pool := (AgentPool.refresh {} (.ok (brokers [1, 2]))).1 } lateOutcome).any
        (fun s => 2 ∈ s.tracker.stats ∧ 2 ∉ s.pool.agents ∧ 2 ∉ s.trackedBefore) = true := by
    decide +kernel
  obtain ⟨s, reached, shape⟩ := (Option.any_eq_true _ _).mp ran
  obtain ⟨left, departed, untracked⟩ := of_decide_eq_true shape
  exact ⟨s, reached, fun none => (none 2 left).elim departed untracked⟩

end Warpstream
