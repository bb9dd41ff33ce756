import Warpstream.HedgeCascade
import Warpstream.Lib.Machine

set_option autoImplicit false

/- `Hedger.ProduceSync` as a machine: the primary attempt, the hedge timer, the
fallback cascade and the context, in any order. -/
namespace Warpstream

/-- A `HedgerConfig` that passes `Validate`. -/
structure HedgerConfig where
  minHedgeDelay : Nat
  maxHedgeAgents : Nat
  agents : 1 ≤ maxHedgeAgents

inductive HedgeTrigger where
  | latency
  | primaryFailure
  | demotedProbe
deriving DecidableEq, Repr

inductive HedgeCause where
  | latency
  | demotedProbe
deriving DecidableEq, Repr

structure HedgeDecision where
  delay : Nat := 0
  eligible : Bool := false
  cause : HedgeCause := .latency
deriving DecidableEq, Repr

def HedgeDecision.trigger (d : HedgeDecision) : HedgeTrigger :=
  if d.cause = .demotedProbe then .demotedProbe else .latency

inductive ProduceFailureReason where
  | noAlternate
  | listDrained
  | budgetCap
  | terminalError
  | writeTimeout
  | internalError
deriving DecidableEq, Repr

/-- The reason that `observeProduceFailure` counts, if any. -/
def produceFailureReason : ProduceStop → Option ProduceFailureReason
  | .none | .canceled => none
  | .noAlternate => some .noAlternate
  | .listDrained => some .listDrained
  | .budgetCap => some .budgetCap
  | .terminalError => some .terminalError
  | .writeTimeout => some .writeTimeout
  | .internal => some .internalError

def finalStop (stopErr : Option GoError) (primary result : ProduceResult) (stop : ProduceStop) :
    ProduceStop :=
  if (!stop.exhausted && stop ≠ .writeTimeout) || result.succeeded then stop
  else
    let terminalPrimary :=
      match primary.error with
      | some err => !err.errorsIs .contextCanceled && !(getProduceResultErr err).retriable
      | none => false
    if terminalPrimary then .terminalError
    else if stop = .writeTimeout then stop
    else if errIs stopErr .contextDeadlineExceeded then .writeTimeout
    else if errIs stopErr .contextCanceled then .canceled
    else stop

/-- The metrics a call touches, as logs of what was counted. -/
structure HedgerMetrics where
  hedgeTriggers : List HedgeTrigger := []
  hedgeTriggerWins : List HedgeTrigger := []
  attemptsSuccess : List Nat := []
  attemptsFailure : List Nat := []
  produceRequestsFailed : List ProduceFailureReason := []

namespace HedgerMetrics

def observeHedgeWin (m : HedgerMetrics) (trigger : HedgeTrigger) : HedgerMetrics :=
  { m with hedgeTriggerWins := m.hedgeTriggerWins ++ [trigger] }

def observeProduceFailure (m : HedgerMetrics) (stop : ProduceStop) : HedgerMetrics :=
  { m with produceRequestsFailed := m.produceRequestsFailed ++ (produceFailureReason stop).toList }

def observeAttempts (m : HedgerMetrics) (result : ProduceResult) (attempts : Nat)
    (stop : ProduceStop) : HedgerMetrics :=
  if result.succeeded then { m with attemptsSuccess := m.attemptsSuccess ++ [attempts] }
  else
    observeProduceFailure { m with attemptsFailure := m.attemptsFailure ++ [attempts] }
      (if stop = .none then .internal else stop)

end HedgerMetrics

/-- What the goroutine of the call waits for. In a race `primaryLost` waits for the
cascade after the primary has failed and `fallbackLost` the other way round. -/
inductive CallPhase where
  | start
  | waitPrimary
  | waitPrimaryOrTimer
  | afterPrimary (primary : ProduceResult)
  | racing (trigger : HedgeTrigger)
  | primaryLost (primary : ProduceResult) (trigger : HedgeTrigger)
  | fallbackLost (fallback : HedgerProduceResult)
  | returned (result : ProduceResult)

/-- The two channels hold at most one value. `primaryRaw` is what the primary's agent
answered, `tookPrimary` and `tookFallback` what the call has read. -/
structure HedgerCall where
  maxHedgeAgents : Nat
  primaryID : Int
  candidates : TopicPartition → List Agent
  routed : List RoutedEncodedTopicPartitionRecords
  phase : CallPhase := .start
  ctxErr : Option GoError := none
  primaryRaw : Option ProduceResult := none
  primaryCh : Option ProduceResult := none
  cascade : Option Cascade := none
  fallbackCh : Option HedgerProduceResult := none
  tookPrimary : Option ProduceResult := none
  tookFallback : Option HedgerProduceResult := none
  metrics : HedgerMetrics := {}

inductive CallAction where
  | start (decision : HedgeDecision)
  | ctxEnds (err : GoError)
  | primaryReturns (res : ProduceResult)
  | timerFires
  | cascade (action : CascadeAction)
  | cascadeReturns (orders : ProduceResultAccumulator.MapOrders) (deadlineReached : Bool)
  | takePrimary (deadlineReached : Bool)
  | takeFallback (deadlineReached : Bool)

namespace HedgerCall

def cfg (c : HedgerCall) : HedgeConfig :=
  { maxHedgeAgents := c.maxHedgeAgents
    primaryID := c.primaryID
    candidates := c.candidates
    partitions := unrouteEncodedTopicPartitionRecords c.routed }

/-- The receive from the primary's channel. -/
def readPrimary (c : HedgerCall) (primary : ProduceResult) : HedgerCall :=
  { c with primaryCh := none, tookPrimary := some primary }

/-- The receive from the cascade's channel, or the cascade's return. -/
def readFallback (c : HedgerCall) (fallback : HedgerProduceResult) : HedgerCall :=
  { c with fallbackCh := none, tookFallback := some fallback }

/-- `runHedgingAttempts` begins. A duplicate partition ends it at once. -/
def startCascade (c : HedgerCall) (trigger : HedgeTrigger) : HedgerCall :=
  let c := { c with
    metrics := { c.metrics with hedgeTriggers := c.metrics.hedgeTriggers ++ [trigger] } }
  match Cascade.start c.cfg with
  | .ok cascade => { c with cascade := some cascade }
  | .error err => { c with fallbackCh := some { result := { err := some err }, stop := .internal } }

/-- Observe the attempt depth and return. -/
def finish (c : HedgerCall) (result : ProduceResult) (attempts : Nat) (stop : ProduceStop) :
    HedgerCall :=
  { c with
    phase := .returned result
    metrics := c.metrics.observeAttempts result attempts stop }

def observeHedgeWin (c : HedgerCall) (trigger : HedgeTrigger) (fallback : HedgerProduceResult) :
    HedgerCall :=
  if fallback.result.succeeded then { c with metrics := c.metrics.observeHedgeWin trigger } else c

def misroutedErr (p : RoutedEncodedTopicPartitionRecords) (primaryID : Int) : GoError :=
  let text := "hedger: partition " ++ p.topic ++ "/" ++ toString p.partition ++
    " routed to nodeID=" ++ toString p.nodeID ++ " but primaryID=" ++ toString primaryID
  { node := { text := text } }

def begin (c : HedgerCall) (decision : HedgeDecision) : HedgerCall :=
  match c.routed with
  | [] => { c with phase := .returned { resp := some {} } }
  | _ :: _ =>
      match c.routed.find? fun p => p.nodeID ≠ c.primaryID with
      | some p =>
          { c with
            phase := .returned { err := some (misroutedErr p c.primaryID) }
            metrics := { c.metrics with
              produceRequestsFailed := c.metrics.produceRequestsFailed ++ [.internalError] } }
      | none =>
          if decision.eligible then
            if decision.delay = 0 then
              { c.startCascade decision.trigger with phase := .racing decision.trigger }
            else { c with phase := .waitPrimaryOrTimer }
          else { c with phase := .waitPrimary }

/-- A value arrives from the primary's channel. -/
def onPrimary (c : HedgerCall) (primary : ProduceResult) (deadlineReached : Bool) :
    Option HedgerCall :=
  match c.phase with
  | .waitPrimary | .waitPrimaryOrTimer =>
      if primary.succeeded then some (c.finish primary 1 .none)
      else some { c.startCascade .primaryFailure with phase := .afterPrimary primary }
  | .racing trigger =>
      if primary.succeeded then some (c.finish primary 1 .none)
      else some { c with phase := .primaryLost primary trigger }
  | .fallbackLost fallback =>
      let result := selectProduceResult primary fallback.result
      some (c.finish result (if primary.succeeded then 1 else fallback.attempts)
        (finalStop (ctxStopErr c.ctxErr deadlineReached) primary result fallback.stop))
  | _ => none

/-- A value arrives from the cascade. -/
def onFallback (c : HedgerCall) (fallback : HedgerProduceResult) (deadlineReached : Bool) :
    Option HedgerCall :=
  match c.phase with
  | .afterPrimary primary =>
      let result := selectProduceResult primary fallback.result
      some ((c.observeHedgeWin .primaryFailure fallback).finish result fallback.attempts
        (finalStop (ctxStopErr c.ctxErr deadlineReached) primary result fallback.stop))
  | .racing trigger =>
      if fallback.result.succeeded then
        some ((c.observeHedgeWin trigger fallback).finish fallback.result fallback.attempts
          fallback.stop)
      else some { c with phase := .fallbackLost fallback }
  | .primaryLost primary trigger =>
      let result := selectProduceResult primary fallback.result
      some ((c.observeHedgeWin trigger fallback).finish result fallback.attempts
        (finalStop (ctxStopErr c.ctxErr deadlineReached) primary result fallback.stop))
  | _ => none

/-- The primary goroutine runs once the call has begun and answers once. -/
def primaryRuns (c : HedgerCall) : Bool :=
  match c.phase with
  | .start => false
  | _ => c.primaryRaw.isNone

def step (c : HedgerCall) : CallAction → Option HedgerCall
  | .start decision =>
      match c.phase with
      | .start => some (c.begin decision)
      | _ => none
  | .ctxEnds err => if c.ctxErr = none then some { c with ctxErr := some err } else none
  | .primaryReturns res =>
      if c.primaryRuns then
        some { c with
          primaryRaw := some res
          primaryCh := some (withCoverageCheck res c.cfg.partitions) }
      else none
  | .timerFires =>
      match c.phase with
      | .waitPrimaryOrTimer => some { c.startCascade .latency with phase := .racing .latency }
      | _ => none
  | .cascade action => do
      let cascade ← c.cascade
      let cascade ← cascade.step c.cfg c.ctxErr action
      some { c with cascade := some cascade }
  | .cascadeReturns orders deadlineReached => do
      let cascade ← c.cascade
      match cascade.phase with
      | .stopped exhaustion =>
          if cascade.acc.Orders orders then
            some { c with
              cascade := some { cascade with phase := .finished }
              fallbackCh := some (cascade.outcome exhaustion c.ctxErr deadlineReached orders) }
          else none
      | _ => none
  | .takePrimary deadlineReached => do
      let primary ← c.primaryCh
      (c.readPrimary primary).onPrimary primary deadlineReached
  | .takeFallback deadlineReached => do
      let fallback ← c.fallbackCh
      (c.readFallback fallback).onFallback fallback deadlineReached

/-- What the call does with the primary's result, by what it waits for. -/
inductive ReadsPrimary (c : HedgerCall) (primary : ProduceResult) (deadlineReached : Bool) :
    HedgerCall → Prop where
  | won (waits : c.phase = .waitPrimary ∨ c.phase = .waitPrimaryOrTimer ∨
        ∃ trigger, c.phase = .racing trigger) (success : primary.succeeded = true) :
      ReadsPrimary c primary deadlineReached ((c.readPrimary primary).finish primary 1 .none)
  | failed (waits : c.phase = .waitPrimary ∨ c.phase = .waitPrimaryOrTimer)
      (failure : primary.succeeded = false) :
      ReadsPrimary c primary deadlineReached
        { (c.readPrimary primary).startCascade .primaryFailure with phase := .afterPrimary primary }
  | lost {trigger : HedgeTrigger} (racing : c.phase = .racing trigger)
      (failure : primary.succeeded = false) :
      ReadsPrimary c primary deadlineReached
        { c.readPrimary primary with phase := .primaryLost primary trigger }
  | settled {fallback : HedgerProduceResult} (waits : c.phase = .fallbackLost fallback) :
      ReadsPrimary c primary deadlineReached
        ((c.readPrimary primary).finish (selectProduceResult primary fallback.result)
          (if primary.succeeded then 1 else fallback.attempts)
          (finalStop (ctxStopErr c.ctxErr deadlineReached) primary
            (selectProduceResult primary fallback.result) fallback.stop))

theorem readsPrimary_of_onPrimary {c c' : HedgerCall} {primary : ProduceResult}
    {deadlineReached : Bool}
    (next : (c.readPrimary primary).onPrimary primary deadlineReached = some c') :
    c.ReadsPrimary primary deadlineReached c' := by
  have phase : (c.readPrimary primary).phase = c.phase := rfl
  unfold onPrimary at next
  rw [phase] at next
  cases here : c.phase with
  | start | afterPrimary | primaryLost | returned =>
      rw [here] at next
      cases next
  | waitPrimary =>
      simp only [here] at next
      split at next <;> obtain rfl := Option.some.inj next
      · exact .won (Or.inl here) ‹_›
      · exact .failed (Or.inl here) (Bool.eq_false_iff.mpr ‹_›)
  | waitPrimaryOrTimer =>
      simp only [here] at next
      split at next <;> obtain rfl := Option.some.inj next
      · exact .won (Or.inr (Or.inl here)) ‹_›
      · exact .failed (Or.inr here) (Bool.eq_false_iff.mpr ‹_›)
  | racing trigger =>
      simp only [here] at next
      split at next <;> obtain rfl := Option.some.inj next
      · exact .won (Or.inr (Or.inr ⟨trigger, here⟩)) ‹_›
      · exact .lost here (Bool.eq_false_iff.mpr ‹_›)
  | fallbackLost fallback =>
      simp only [here] at next
      obtain rfl := Option.some.inj next
      exact .settled here

/-- What the call does with the cascade's result. -/
inductive ReadsFallback (c : HedgerCall) (fallback : HedgerProduceResult) (deadlineReached : Bool) :
    HedgerCall → Prop where
  | settled {primary : ProduceResult} {trigger : HedgeTrigger}
      (waits : (c.phase = .afterPrimary primary ∧ trigger = .primaryFailure) ∨
        c.phase = .primaryLost primary trigger) :
      ReadsFallback c fallback deadlineReached
        (((c.readFallback fallback).observeHedgeWin trigger fallback).finish
          (selectProduceResult primary fallback.result) fallback.attempts
          (finalStop (ctxStopErr c.ctxErr deadlineReached) primary
            (selectProduceResult primary fallback.result) fallback.stop))
  | won {trigger : HedgeTrigger} (racing : c.phase = .racing trigger)
      (success : fallback.result.succeeded = true) :
      ReadsFallback c fallback deadlineReached
        (((c.readFallback fallback).observeHedgeWin trigger fallback).finish fallback.result
          fallback.attempts fallback.stop)
  | lost {trigger : HedgeTrigger} (racing : c.phase = .racing trigger)
      (failure : fallback.result.succeeded = false) :
      ReadsFallback c fallback deadlineReached
        { c.readFallback fallback with phase := .fallbackLost fallback }

theorem readsFallback_of_onFallback {c c' : HedgerCall} {fallback : HedgerProduceResult}
    {deadlineReached : Bool}
    (next : (c.readFallback fallback).onFallback fallback deadlineReached = some c') :
    c.ReadsFallback fallback deadlineReached c' := by
  have phase : (c.readFallback fallback).phase = c.phase := rfl
  unfold onFallback at next
  rw [phase] at next
  cases here : c.phase with
  | start | waitPrimary | waitPrimaryOrTimer | fallbackLost | returned =>
      rw [here] at next
      cases next
  | afterPrimary primary =>
      simp only [here] at next
      obtain rfl := Option.some.inj next
      exact .settled (Or.inl ⟨here, rfl⟩)
  | primaryLost primary trigger =>
      simp only [here] at next
      obtain rfl := Option.some.inj next
      exact .settled (Or.inr here)
  | racing trigger =>
      simp only [here] at next
      split at next <;> obtain rfl := Option.some.inj next
      · exact .won here ‹_›
      · exact .lost here (Bool.eq_false_iff.mpr ‹_›)

/-- The ways through `step`. -/
inductive Moves (c : HedgerCall) : CallAction → HedgerCall → Prop where
  | start {decision : HedgeDecision} (fresh : c.phase = .start) :
      Moves c (.start decision) (c.begin decision)
  | ctxEnds {err : GoError} (alive : c.ctxErr = none) :
      Moves c (.ctxEnds err) { c with ctxErr := some err }
  | primaryReturns {res : ProduceResult} (runs : c.primaryRuns = true) :
      Moves c (.primaryReturns res)
        { c with
          primaryRaw := some res
          primaryCh := some (withCoverageCheck res c.cfg.partitions) }
  | timerFires (waits : c.phase = .waitPrimaryOrTimer) :
      Moves c .timerFires { c.startCascade .latency with phase := .racing .latency }
  | cascade {action : CascadeAction} {before after : Cascade} (running : c.cascade = some before)
      (moved : before.step c.cfg c.ctxErr action = some after) :
      Moves c (.cascade action) { c with cascade := some after }
  | cascadeReturns {orders : ProduceResultAccumulator.MapOrders} {deadlineReached : Bool}
      {cascade : Cascade} {exhaustion : ProduceStop} (running : c.cascade = some cascade)
      (stopped : cascade.phase = .stopped exhaustion) (ordered : cascade.acc.Orders orders) :
      Moves c (.cascadeReturns orders deadlineReached)
        { c with
          cascade := some { cascade with phase := .finished }
          fallbackCh := some (cascade.outcome exhaustion c.ctxErr deadlineReached orders) }
  | takePrimary {deadlineReached : Bool} {primary : ProduceResult} {c' : HedgerCall}
      (arrived : c.primaryCh = some primary)
      (next : (c.readPrimary primary).onPrimary primary deadlineReached = some c') :
      Moves c (.takePrimary deadlineReached) c'
  | takeFallback {deadlineReached : Bool} {fallback : HedgerProduceResult} {c' : HedgerCall}
      (arrived : c.fallbackCh = some fallback)
      (next : (c.readFallback fallback).onFallback fallback deadlineReached = some c') :
      Moves c (.takeFallback deadlineReached) c'

theorem moves_of_step {c c' : HedgerCall} {action : CallAction}
    (stepped : c.step action = some c') : c.Moves action c' := by
  cases action with
  | start decision =>
      simp only [step] at stepped
      split at stepped
      · rename_i fresh
        obtain rfl := Option.some.inj stepped
        exact .start fresh
      · cases stepped
  | ctxEnds err =>
      simp only [step] at stepped
      split at stepped
      · rename_i alive
        obtain rfl := Option.some.inj stepped
        exact .ctxEnds alive
      · cases stepped
  | primaryReturns res =>
      simp only [step] at stepped
      split at stepped
      · rename_i runs
        obtain rfl := Option.some.inj stepped
        exact .primaryReturns runs
      · cases stepped
  | timerFires =>
      simp only [step] at stepped
      split at stepped
      · rename_i waits
        obtain rfl := Option.some.inj stepped
        exact .timerFires waits
      · cases stepped
  | cascade action =>
      simp only [step, Option.bind_eq_bind, Option.bind_eq_some_iff] at stepped
      obtain ⟨before, running, after, moved, eq⟩ := stepped
      obtain rfl := Option.some.inj eq
      exact .cascade running moved
  | cascadeReturns orders deadlineReached =>
      simp only [step, Option.bind_eq_bind, Option.bind_eq_some_iff] at stepped
      obtain ⟨cascade, running, eq⟩ := stepped
      split at eq
      · rename_i exhaustion stopped
        split at eq
        · rename_i ordered
          obtain rfl := Option.some.inj eq
          exact .cascadeReturns running stopped ordered
        · cases eq
      · cases eq
  | takePrimary deadlineReached =>
      simp only [step, Option.bind_eq_bind, Option.bind_eq_some_iff] at stepped
      obtain ⟨primary, arrived, next⟩ := stepped
      exact .takePrimary arrived next
  | takeFallback deadlineReached =>
      simp only [step, Option.bind_eq_bind, Option.bind_eq_some_iff] at stepped
      obtain ⟨fallback, arrived, next⟩ := stepped
      exact .takeFallback arrived next

end HedgerCall

end Warpstream
