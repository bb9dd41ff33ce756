import Warpstream.AgentPool
import Warpstream.Lib.Machine

set_option autoImplicit false

/- The goroutine of `startBackgroundRefresh`, with the calls of `triggerRefresh`, the ticker,
the clock and `Close` around it. Durations are nanoseconds. -/
namespace Warpstream

open Kbin

/-- The two durations of the configuration that the loop uses. -/
structure RefreshIntervals where
  metadataRefreshInterval : Int
  onDemandMetadataRefreshInterval : Int

structure RefreshBackoff where
  floor : Int
  ceiling : Int
  delay : Int
deriving DecidableEq

def newRefreshBackoff (floor ceiling : Int) : RefreshBackoff := ⟨floor, ceiling, floor⟩

namespace RefreshBackoff

def current (b : RefreshBackoff) : Int := b.delay

def advance (b : RefreshBackoff) : RefreshBackoff :=
  if Int.tdiv b.ceiling 2 < b.delay then { b with delay := b.ceiling }
  else { b with delay := int64 (b.delay * 2) }

def reset (b : RefreshBackoff) : RefreshBackoff := { b with delay := b.floor }

end RefreshBackoff

inductive MetadataRefreshTrigger where
  | periodic
  | onDemand
deriving DecidableEq, Repr

/-- Where the loop stands. `tickTaken` is the inner `select`, `starting` a fetch that is
decided on, and `fetched` and `cooled` the two reads of the context before the next round. -/
inductive RefreshPhase where
  | select
  | tickTaken
  | starting (trigger : MetadataRefreshTrigger)
  | fetching (trigger : MetadataRefreshTrigger)
  | fetched
  | cooling (deadline : Nat)
  | cooled
  | returned
deriving DecidableEq

inductive RefreshEvent where
  | triggered
  | fetchStarted (trigger : MetadataRefreshTrigger)
  | fetchEnded (trigger : MetadataRefreshTrigger)
deriving DecidableEq

/-- `refreshNowCh` and `tick` say whether the two channels hold a value, `closed` whether
`refreshCtx` is cancelled, and `log` is what has happened. -/
structure RefreshLoop where
  pool : PoolState
  backoff : RefreshBackoff
  refreshNowCh : Bool := false
  tick : Bool := false
  closed : Bool := false
  phase : RefreshPhase := .select
  now : Nat := 0
  startedAt : Nat := 0
  log : List RefreshEvent := []

inductive RefreshLoopAction where
  | triggerRefresh
  | tick
  | wait (nanoseconds : Nat)
  | close
  | takeDone
  | takeNudge
  | takeTick
  | afterTick
  | startFetch
  | fetchReturns (fetched : Except GoError Kmsg.MetadataResponse)
  | cooldownEnds
  | next

namespace RefreshLoop

def start (c : RefreshIntervals) (pool : PoolState) : RefreshLoop :=
  { pool := pool
    backoff := newRefreshBackoff c.onDemandMetadataRefreshInterval c.metadataRefreshInterval }

/-- A send that is dropped when the channel is full. -/
def triggerRefresh (s : RefreshLoop) : RefreshLoop :=
  { s with refreshNowCh := true, log := s.log ++ [.triggered] }

def noteLeaderDrops (s : RefreshLoop) (dropped : LeaderDrops) (nudge : Bool) : RefreshLoop :=
  if dropped.count = 0 then s else if nudge then s.triggerRefresh else s

/-- The end of `refreshPool`. A failed fetch leaves the pool as it is. -/
def refreshPool (s : RefreshLoop) (fetched : Except GoError Kmsg.MetadataResponse) : RefreshLoop :=
  let refreshed := AgentPool.refresh s.pool fetched
  let s := { s with pool := refreshed.1 }
  match refreshed.2 with
  | .ok (_, dropped) => s.noteLeaderDrops dropped true
  | .error _ => s

/-- `time.Since`, which saturates. -/
def since (s : RefreshLoop) (start : Nat) : Int := min ((s.now : Int) - start) (2 ^ 63 - 1)

def waitRefreshCooldown (s : RefreshLoop) (delay elapsed : Int) : RefreshLoop :=
  let remaining := int64 (delay - elapsed)
  if remaining ≤ 0 then { s with phase := .cooled }
  else { s with phase := .cooling (s.now + remaining.toNat) }

/-- A fetch returns and the loop goes on to what follows it. -/
def fetchReturns (s : RefreshLoop) (trigger : MetadataRefreshTrigger)
    (fetched : Except GoError Kmsg.MetadataResponse) : RefreshLoop :=
  let s := s.refreshPool fetched
  let s : RefreshLoop := { s with log := s.log ++ [.fetchEnded trigger] }
  match trigger with
  | .periodic => { s with phase := .fetched }
  | .onDemand => s.waitRefreshCooldown s.backoff.current (s.since s.startedAt)

def step (s : RefreshLoop) : RefreshLoopAction → Option RefreshLoop
  | .triggerRefresh => some s.triggerRefresh
  | .tick => some { s with tick := true }
  | .wait nanoseconds => some { s with now := s.now + nanoseconds }
  | .close => some { s with closed := true }
  | .takeDone =>
      if s.phase = .select ∧ s.closed = true then some { s with phase := .returned } else none
  | .takeNudge =>
      if s.phase = .select ∧ s.refreshNowCh = true then
        some { s with refreshNowCh := false, phase := .starting .onDemand }
      else none
  | .takeTick =>
      if s.phase = .select ∧ s.tick = true then some { s with tick := false, phase := .tickTaken }
      else none
  | .afterTick =>
      if s.phase = .tickTaken then
        -- a nudge wins over the tick
        if s.refreshNowCh then
          some { s with refreshNowCh := false, phase := .starting .onDemand }
        else some { s with phase := .starting .periodic }
      else none
  | .startFetch =>
      match s.phase with
      | .starting .periodic =>
          some { s with phase := .fetching .periodic, log := s.log ++ [.fetchStarted .periodic] }
      | .starting .onDemand =>
          -- `ticker.Reset` leaves no stale tick
          some { s with
            tick := false
            startedAt := s.now
            phase := .fetching .onDemand
            log := s.log ++ [.fetchStarted .onDemand] }
      | _ => none
  | .fetchReturns fetched =>
      match s.phase with
      | .fetching trigger => some (s.fetchReturns trigger fetched)
      | _ => none
  | .cooldownEnds =>
      match s.phase with
      | .cooling deadline =>
          if deadline ≤ s.now ∨ s.closed = true then some { s with phase := .cooled } else none
      | _ => none
  | .next =>
      match s.phase with
      | .fetched =>
          if s.closed then some { s with phase := .returned }
          else some { s with backoff := s.backoff.reset, phase := .select }
      | .cooled =>
          if s.closed then some { s with phase := .returned }
          else some { s with backoff := s.backoff.advance, phase := .select }
      | _ => none

/-- What a step does. -/
inductive Moves (s : RefreshLoop) : RefreshLoop → Prop where
  | triggered : Moves s s.triggerRefresh
  /-- a tick, time or `Close` -/
  | outside {tick closed : Bool} {now : Nat} (stays : s.closed = true → closed = true)
      (later : s.now ≤ now) : Moves s { s with tick := tick, closed := closed, now := now }
  | returns (here : s.phase ≠ .starting .onDemand) (closed : s.closed = true) :
      Moves s { s with phase := .returned }
  | takeNudge (here : s.phase = .select ∨ s.phase = .tickTaken) :
      Moves s { s with refreshNowCh := false, phase := .starting .onDemand }
  | takeTick (here : s.phase = .select) : Moves s { s with tick := false, phase := .tickTaken }
  | periodic (here : s.phase = .tickTaken) (empty : s.refreshNowCh = false) :
      Moves s { s with phase := .starting .periodic }
  | startFetch {trigger : MetadataRefreshTrigger} {tick : Bool} {startedAt : Nat}
      (here : s.phase = .starting trigger) (clock : startedAt = s.startedAt ∨ startedAt = s.now) :
      Moves s
        { s with
          tick := tick
          startedAt := startedAt
          phase := .fetching trigger
          log := s.log ++ [.fetchStarted trigger] }
  | fetchReturns {trigger : MetadataRefreshTrigger}
      {fetched : Except GoError Kmsg.MetadataResponse} (here : s.phase = .fetching trigger) :
      Moves s (s.fetchReturns trigger fetched)
  | cooldownEnds {deadline : Nat} (here : s.phase = .cooling deadline)
      (ended : deadline ≤ s.now ∨ s.closed = true) : Moves s { s with phase := .cooled }
  | reset (here : s.phase = .fetched) :
      Moves s { s with backoff := s.backoff.reset, phase := .select }
  | advance (here : s.phase = .cooled) :
      Moves s { s with backoff := s.backoff.advance, phase := .select }

theorem moves_of_step {s s' : RefreshLoop} {action : RefreshLoopAction}
    (stepped : s.step action = some s') : s.Moves s' := by
  cases action with
  | triggerRefresh =>
      obtain rfl := Option.some.inj stepped
      exact .triggered
  | tick =>
      obtain rfl := Option.some.inj stepped
      exact .outside id (Nat.le_refl _)
  | wait nanoseconds =>
      obtain rfl := Option.some.inj stepped
      exact .outside id (Nat.le_add_right _ _)
  | close =>
      obtain rfl := Option.some.inj stepped
      exact .outside (fun _ => rfl) (Nat.le_refl _)
  | takeDone =>
      simp only [step] at stepped
      split at stepped
      · rename_i ready
        obtain rfl := Option.some.inj stepped
        exact .returns (by simp [ready.1]) ready.2
      · cases stepped
  | takeNudge =>
      simp only [step] at stepped
      split at stepped
      · rename_i ready
        obtain rfl := Option.some.inj stepped
        exact .takeNudge (Or.inl ready.1)
      · cases stepped
  | takeTick =>
      simp only [step] at stepped
      split at stepped
      · rename_i ready
        obtain rfl := Option.some.inj stepped
        exact .takeTick ready.1
      · cases stepped
  | afterTick =>
      simp only [step] at stepped
      split at stepped
      · rename_i taken
        split at stepped
        · obtain rfl := Option.some.inj stepped
          exact .takeNudge (Or.inr taken)
        · rename_i empty
          obtain rfl := Option.some.inj stepped
          exact .periodic taken (by simpa using empty)
      · cases stepped
  | startFetch =>
      simp only [step] at stepped
      split at stepped
      · rename_i here
        obtain rfl := Option.some.inj stepped
        exact .startFetch here (Or.inl rfl)
      · rename_i here
        obtain rfl := Option.some.inj stepped
        exact .startFetch here (Or.inr rfl)
      · cases stepped
  | fetchReturns fetched =>
      simp only [step] at stepped
      split at stepped
      · rename_i here
        obtain rfl := Option.some.inj stepped
        exact .fetchReturns here
      · cases stepped
  | cooldownEnds =>
      simp only [step] at stepped
      split at stepped
      · rename_i here
        split at stepped
        · rename_i ended
          obtain rfl := Option.some.inj stepped
          exact .cooldownEnds here ended
        · cases stepped
      · cases stepped
  | next =>
      simp only [step] at stepped
      split at stepped
      · rename_i here
        split at stepped
        · rename_i closed
          obtain rfl := Option.some.inj stepped
          exact .returns (by simp [here]) closed
        · obtain rfl := Option.some.inj stepped
          exact .reset here
      · rename_i here
        split at stepped
        · rename_i closed
          obtain rfl := Option.some.inj stepped
          exact .returns (by simp [here]) closed
        · obtain rfl := Option.some.inj stepped
          exact .advance here
      · cases stepped

end RefreshLoop

/-- The on-demand fetches that have ended since the last periodic one, or since the start. -/
def onDemandFetches (log : List RefreshEvent) : Nat :=
  log.foldl (fun k event =>
    match event with
    | .fetchEnded .onDemand => k + 1
    | .fetchEnded .periodic => 0
    | _ => k) 0

/-- A call of `triggerRefresh` is not followed by the start of a fetch. -/
def unserved (log : List RefreshEvent) : Bool :=
  log.foldl (fun waiting event =>
    match event with
    | .triggered => true
    | .fetchStarted _ => false
    | .fetchEnded _ => waiting) false

section events

variable (log : List RefreshEvent)

theorem onDemandFetches_triggered : onDemandFetches (log ++ [.triggered]) = onDemandFetches log := by
  rw [onDemandFetches, List.foldl_append]
  rfl

theorem onDemandFetches_fetchStarted (trigger : MetadataRefreshTrigger) :
    onDemandFetches (log ++ [.fetchStarted trigger]) = onDemandFetches log := by
  rw [onDemandFetches, List.foldl_append]
  rfl

theorem onDemandFetches_periodic : onDemandFetches (log ++ [.fetchEnded .periodic]) = 0 := by
  rw [onDemandFetches, List.foldl_append]
  rfl

theorem onDemandFetches_onDemand :
    onDemandFetches (log ++ [.fetchEnded .onDemand]) = onDemandFetches log + 1 := by
  rw [onDemandFetches, List.foldl_append]
  rfl

theorem unserved_fetchStarted (trigger : MetadataRefreshTrigger) :
    unserved (log ++ [.fetchStarted trigger]) = false := by
  rw [unserved, List.foldl_append]
  rfl

theorem unserved_fetchEnded (trigger : MetadataRefreshTrigger) :
    unserved (log ++ [.fetchEnded trigger]) = unserved log := by
  rw [unserved, List.foldl_append]
  rfl

end events

namespace RefreshIntervals

/-- The delay after `k` doublings. -/
def paced (c : RefreshIntervals) (k : Nat) : Int :=
  min (c.onDemandMetadataRefreshInterval * 2 ^ k) c.metadataRefreshInterval

/-- The intervals that the configuration allows, as values of `time.Duration`. -/
structure Valid (c : RefreshIntervals) : Prop where
  positive : 0 < c.onDemandMetadataRefreshInterval
  ordered : c.onDemandMetadataRefreshInterval ≤ c.metadataRefreshInterval
  fits : c.metadataRefreshInterval < 2 ^ 63

variable {c : RefreshIntervals}

theorem Valid.paced_range (valid : c.Valid) (k : Nat) : 0 < c.paced k ∧ c.paced k < 2 ^ 63 := by
  have doubled : (0 : Int) < 2 ^ k := Int.pow_pos (by decide)
  have positive := Int.mul_pos valid.positive doubled
  have ordered := valid.ordered
  have floor := valid.positive
  have fits := valid.fits
  unfold paced
  omega

theorem Valid.paced_zero (valid : c.Valid) : c.paced 0 = c.onDemandMetadataRefreshInterval := by
  rw [paced, Int.pow_zero, Int.mul_one]
  exact min_eq_left valid.ordered

/-- A delay of at most half the ceiling doubles without overflow, and a longer one would
reach the ceiling. -/
theorem Valid.advance (valid : c.Valid) {b : RefreshBackoff} {k : Nat}
    (ceiling : b.ceiling = c.metadataRefreshInterval) (delay : b.delay = c.paced k) :
    b.advance.delay = c.paced (k + 1) := by
  have range := valid.paced_range k
  have fits := valid.fits
  have half : Int.tdiv c.metadataRefreshInterval 2 = c.metadataRefreshInterval / 2 :=
    Int.tdiv_eq_ediv_of_nonneg (by have := valid.positive; have := valid.ordered; omega)
  have double : c.onDemandMetadataRefreshInterval * 2 ^ (k + 1) =
      2 * (c.onDemandMetadataRefreshInterval * 2 ^ k) := by
    rw [Int.pow_succ]
    ring
  unfold RefreshBackoff.advance
  rw [ceiling, delay, half]
  split
  · rename_i above
    change c.metadataRefreshInterval = c.paced (k + 1)
    unfold paced at above ⊢
    omega
  · rename_i below
    change int64 (c.paced k * 2) = c.paced (k + 1)
    rw [int64_eq (by omega) (by omega)]
    unfold paced at range below ⊢
    omega

end RefreshIntervals

namespace RefreshLoop

variable {c : RefreshIntervals} {s s' : RefreshLoop}

/-- What is known of the delay in each phase: it has been doubled once for every on-demand
fetch since the last periodic one, the last of them apart while the loop cools down. -/
def PacedOk (c : RefreshIntervals) (s : RefreshLoop) : Prop :=
  match s.phase with
  | .select | .tickTaken | .starting _ | .fetching _ =>
      s.backoff.delay = c.paced (onDemandFetches s.log)
  | .fetched => onDemandFetches s.log = 0
  | .cooling deadline =>
      ∃ k, onDemandFetches s.log = k + 1 ∧ s.backoff.delay = c.paced k ∧
        (deadline : Int) = s.startedAt + c.paced k
  | .cooled =>
      ∃ k, onDemandFetches s.log = k + 1 ∧ s.backoff.delay = c.paced k ∧
        (s.closed = true ∨ s.startedAt + c.paced k ≤ s.now)
  | .returned => s.closed = true

/-- What every step keeps. -/
structure Inv (c : RefreshIntervals) (s : RefreshLoop) : Prop where
  floor : s.backoff.floor = c.onDemandMetadataRefreshInterval
  ceiling : s.backoff.ceiling = c.metadataRefreshInterval
  clock : s.startedAt ≤ s.now
  kept : unserved s.log = true → s.refreshNowCh = true ∨ s.phase = .starting .onDemand
  paced : s.PacedOk c

theorem inv_start (valid : c.Valid) (pool : PoolState) : (start c pool).Inv c :=
  ⟨rfl, rfl, Nat.le_refl 0, fun waiting => (by cases waiting), valid.paced_zero.symm⟩

/-- A call that is not served waits in the channel, unless the loop is about to fetch for it. -/
theorem Inv.held (inv : s.Inv c) (elsewhere : s.phase ≠ .starting .onDemand)
    (waiting : unserved s.log = true) : s.refreshNowCh = true :=
  (inv.kept waiting).resolve_right elsewhere

/-- Calls of `triggerRefresh`, ticks, time and `Close` leave the loop where it is. -/
theorem Inv.outside (inv : s.Inv c) {log : List RefreshEvent} {refreshNowCh tick closed : Bool}
    {now : Nat} (same : onDemandFetches log = onDemandFetches s.log)
    (kept : unserved log = true → refreshNowCh = true ∨ s.phase = .starting .onDemand)
    (stays : s.closed = true → closed = true) (later : s.now ≤ now) :
    Inv c { s with
      log := log, refreshNowCh := refreshNowCh, tick := tick, closed := closed, now := now } := by
  refine ⟨inv.floor, inv.ceiling, Nat.le_trans inv.clock later, kept, ?_⟩
  have paced := inv.paced
  unfold PacedOk at paced ⊢
  cases here : s.phase with
  | select | tickTaken | starting | fetching | fetched =>
      simp only [here] at paced ⊢
      rw [same]
      exact paced
  | cooling deadline =>
      simp only [here] at paced ⊢
      rw [same]
      exact paced
  | cooled =>
      simp only [here] at paced ⊢
      obtain ⟨k, count, delay, rested⟩ := paced
      refine ⟨k, same.trans count, delay, ?_⟩
      rcases rested with done | over'
      · exact Or.inl (stays done)
      · right
        omega
  | returned =>
      simp only [here] at paced ⊢
      exact stays paced

/-- A step of the loop that ends in a phase before the end of a fetch. -/
theorem Inv.move (inv : s.Inv c) {phase : RefreshPhase} {tick refreshNowCh : Bool}
    (kept : unserved s.log = true → refreshNowCh = true ∨ phase = .starting .onDemand)
    (paced : PacedOk c { s with phase := phase }) :
    Inv c { s with phase := phase, tick := tick, refreshNowCh := refreshNowCh } :=
  ⟨inv.floor, inv.ceiling, inv.clock, kept, paced⟩

theorem Inv.startFetch (inv : s.Inv c) {trigger : MetadataRefreshTrigger} {tick : Bool}
    {startedAt : Nat} (starting : s.phase = .starting trigger) (clock : startedAt ≤ s.now) :
    Inv c { s with
      tick := tick, startedAt := startedAt, phase := .fetching trigger
      log := s.log ++ [.fetchStarted trigger] } := by
  refine ⟨inv.floor, inv.ceiling, clock, ?_, ?_⟩
  · intro waiting
    rw [unserved_fetchStarted] at waiting
    cases waiting
  · have paced := inv.paced
    simp only [PacedOk, starting] at paced
    dsimp only [PacedOk]
    rw [onDemandFetches_fetchStarted]
    exact paced

/-- The end of `refreshPool` calls `triggerRefresh` or not, and replaces the pool. -/
theorem refreshPool_cases (s : RefreshLoop) (fetched : Except GoError Kmsg.MetadataResponse) :
    ∃ pool, s.refreshPool fetched = { s with pool := pool } ∨
      s.refreshPool fetched = triggerRefresh { s with pool := pool } := by
  unfold refreshPool
  refine ⟨(AgentPool.refresh s.pool fetched).1, ?_⟩
  simp only
  split
  · unfold noteLeaderDrops
    split
    · exact Or.inl rfl
    · exact Or.inr rfl
  · exact Or.inl rfl

theorem Inv.refreshPool (inv : s.Inv c) (fetched : Except GoError Kmsg.MetadataResponse) :
    (s.refreshPool fetched).Inv c ∧ (s.refreshPool fetched).phase = s.phase := by
  obtain ⟨pool, same | nudged⟩ := refreshPool_cases s fetched
  · rw [same]
    exact ⟨⟨inv.floor, inv.ceiling, inv.clock, inv.kept, inv.paced⟩, rfl⟩
  · rw [nudged]
    have moved : Inv c { s with pool := pool } :=
      ⟨inv.floor, inv.ceiling, inv.clock, inv.kept, inv.paced⟩
    exact ⟨moved.outside (onDemandFetches_triggered s.log) (fun _ => Or.inl rfl) id
      (Nat.le_refl _), rfl⟩

/-- The wait for what is left of the delay ends when the delay has passed since the start of
the fetch. -/
theorem inv_waitRefreshCooldown (valid : c.Valid) {k : Nat}
    (floor : s.backoff.floor = c.onDemandMetadataRefreshInterval)
    (ceiling : s.backoff.ceiling = c.metadataRefreshInterval) (clock : s.startedAt ≤ s.now)
    (kept : unserved s.log = true → s.refreshNowCh = true)
    (count : onDemandFetches s.log = k + 1) (delay : s.backoff.delay = c.paced k) :
    (s.waitRefreshCooldown s.backoff.current (s.since s.startedAt)).Inv c := by
  have range := valid.paced_range k
  unfold waitRefreshCooldown since RefreshBackoff.current
  rw [delay]
  simp only
  rw [int64_eq (by omega) (by omega)]
  split
  · refine ⟨floor, ceiling, clock, fun waiting => Or.inl (kept waiting), k, count, delay, ?_⟩
    right
    change (s.startedAt : Int) + c.paced k ≤ s.now
    omega
  · refine ⟨floor, ceiling, clock, fun waiting => Or.inl (kept waiting), k, count, delay, ?_⟩
    change ((s.now + (c.paced k -
      min ((s.now : Int) - s.startedAt) (2 ^ 63 - 1)).toNat : Nat) : Int) = s.startedAt + c.paced k
    omega

theorem Inv.fetchReturns (inv : s.Inv c) (valid : c.Valid) {trigger : MetadataRefreshTrigger}
    (fetching : s.phase = .fetching trigger) (fetched : Except GoError Kmsg.MetadataResponse) :
    (s.fetchReturns trigger fetched).Inv c := by
  obtain ⟨done, phase⟩ := inv.refreshPool fetched
  rw [fetching] at phase
  have kept : unserved ((s.refreshPool fetched).log ++ [.fetchEnded trigger]) = true →
      (s.refreshPool fetched).refreshNowCh = true := by
    intro waiting
    rw [unserved_fetchEnded] at waiting
    rcases done.kept waiting with held | starting
    · exact held
    · cases phase.symm.trans starting
  have paced := done.paced
  simp only [PacedOk, phase] at paced
  cases trigger with
  | periodic =>
      exact ⟨done.floor, done.ceiling, done.clock, fun waiting => Or.inl (kept waiting),
        onDemandFetches_periodic _⟩
  | onDemand =>
      exact inv_waitRefreshCooldown valid done.floor done.ceiling done.clock kept
        (onDemandFetches_onDemand _) paced

theorem inv_step (valid : c.Valid) (s : RefreshLoop) (action : RefreshLoopAction) (s' : RefreshLoop)
    (inv : s.Inv c) (stepped : s.step action = some s') : s'.Inv c := by
  have paced := inv.paced
  unfold PacedOk at paced
  cases moves_of_step stepped with
  | triggered =>
      exact inv.outside (onDemandFetches_triggered s.log) (fun _ => Or.inl rfl) id (Nat.le_refl _)
  | outside stays later => exact inv.outside rfl inv.kept stays later
  | returns here closed => exact inv.move (fun waiting => Or.inl (inv.held here waiting)) closed
  | takeNudge here =>
      rcases here with here | here
      · simp only [here] at paced
        exact inv.move (fun _ => Or.inr rfl) paced
      · simp only [here] at paced
        exact inv.move (fun _ => Or.inr rfl) paced
  | takeTick here =>
      simp only [here] at paced
      exact inv.move (fun waiting => Or.inl (inv.held (by simp [here]) waiting)) paced
  | periodic here =>
      simp only [here] at paced
      exact inv.move (fun waiting => Or.inl (inv.held (by simp [here]) waiting)) paced
  | startFetch here clock =>
      apply inv.startFetch here
      have before := inv.clock
      omega
  | fetchReturns here => exact inv.fetchReturns valid here _
  | cooldownEnds here ended =>
      simp only [here] at paced
      obtain ⟨k, count, delay, due⟩ := paced
      refine inv.move (fun waiting => Or.inl (inv.held (by simp [here]) waiting))
        ⟨k, count, delay, ?_⟩
      rcases ended with due' | closed
      · right
        change (s.startedAt : Int) + c.paced k ≤ s.now
        omega
      · exact Or.inl closed
  | reset here =>
      simp only [here] at paced
      refine ⟨inv.floor, inv.ceiling, inv.clock,
        fun waiting => Or.inl (inv.held (by simp [here]) waiting), ?_⟩
      change s.backoff.floor = c.paced (onDemandFetches s.log)
      rw [paced, valid.paced_zero]
      exact inv.floor
  | advance here =>
      simp only [here] at paced
      obtain ⟨k, count, delay, -⟩ := paced
      have fields : s.backoff.advance.floor = s.backoff.floor ∧
          s.backoff.advance.ceiling = s.backoff.ceiling := by
        unfold RefreshBackoff.advance
        split <;> exact ⟨rfl, rfl⟩
      refine ⟨fields.1.trans inv.floor, fields.2.trans inv.ceiling, inv.clock,
        fun waiting => Or.inl (inv.held (by simp [here]) waiting), ?_⟩
      change s.backoff.advance.delay = c.paced (onDemandFetches s.log)
      rw [count]
      exact valid.advance inv.ceiling delay

end RefreshLoop

end Warpstream
