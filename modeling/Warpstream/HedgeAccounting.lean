import Warpstream.HedgerFullAck

set_option autoImplicit false

/- What a call of the Hedger counts, and what it returned: the trigger of its cascade, the win,
the depth of its attempts and the reason of a failure. -/
namespace Warpstream

namespace HedgerMetrics

/-- No attempt depth was observed and no failure reason counted. -/
structure Unobserved (m : HedgerMetrics) : Prop where
  success : m.attemptsSuccess = []
  failure : m.attemptsFailure = []
  reasons : m.produceRequestsFailed = []

/-- One attempt depth was observed, under the outcome of the result. A failure has one reason
unless the caller canceled the call. -/
structure Observed (m : HedgerMetrics) (maxHedgeAgents : Nat) (res : ProduceResult)
    (canceled : Bool) : Prop where
  depth : ∃ d, 1 ≤ d ∧ d ≤ maxHedgeAgents ∧
    m.attemptsSuccess = (if res.succeeded then [d] else []) ∧
    m.attemptsFailure = (if res.succeeded then [] else [d])
  success : res.succeeded = true → m.produceRequestsFailed = []
  failure : res.succeeded = false → canceled = false → m.produceRequestsFailed.length = 1

theorem length_produceFailureReason {stop : ProduceStop} (reason : stop ≠ .canceled) :
    (produceFailureReason (if stop = .none then .internal else stop)).toList.length = 1 := by
  cases stop with
  | canceled => exact absurd rfl reason
  | none | noAlternate | listDrained | budgetCap | terminalError | writeTimeout | internal => rfl

theorem Unobserved.observeAttempts {m : HedgerMetrics} (unobserved : m.Unobserved)
    {maxHedgeAgents attempts : Nat} (least : 1 ≤ attempts) (most : attempts ≤ maxHedgeAgents)
    {res : ProduceResult} {stop : ProduceStop} {canceled : Bool}
    (cause : res.succeeded = false → stop = .canceled → canceled = true) :
    (m.observeAttempts res attempts stop).Observed maxHedgeAgents res canceled := by
  unfold HedgerMetrics.observeAttempts
  cases outcome : res.succeeded with
  | true =>
      refine ⟨⟨attempts, least, most, ?_, ?_⟩, fun _ => unobserved.reasons, ?_⟩
      · simp [outcome, unobserved.success]
      · simp [outcome, unobserved.failure]
      · simp [outcome]
  | false =>
      refine ⟨⟨attempts, least, most, ?_, ?_⟩, ?_, ?_⟩
      · simp [outcome, observeProduceFailure, unobserved.success]
      · simp [outcome, observeProduceFailure, unobserved.failure]
      · simp [outcome]
      · intro _ notCanceled
        have reason : stop ≠ .canceled := by
          intro same
          rw [cause outcome same] at notCanceled
          cases notCanceled
        rw [if_neg Bool.false_ne_true, observeProduceFailure, unobserved.reasons, List.nil_append]
        exact length_produceFailureReason reason

end HedgerMetrics

section Stops

theorem errIs_ctxStopErr {ctxErr : Option GoError} {deadlineReached : Bool}
    (canceled : errIs (ctxStopErr ctxErr deadlineReached) .contextCanceled = true) :
    errIs ctxErr .contextCanceled = true := by
  cases ctxErr with
  | some err => exact canceled
  | none =>
      unfold ctxStopErr at canceled
      cases deadlineReached with
      | true => exact absurd canceled (by decide)
      | false => exact canceled

/-- A cascade that stops as canceled has read a canceled context. -/
theorem errIs_of_classifyProduceStop {terminal : Bool} {terminalErr ctxErr : Option GoError}
    {exhaustion : ProduceStop}
    (stopped : classifyProduceStop terminal terminalErr ctxErr exhaustion = .canceled) :
    errIs ctxErr .contextCanceled = true := by
  unfold classifyProduceStop at stopped
  split at stopped
  · cases stopped
  · split at stopped
    · assumption
    · split at stopped
      · cases stopped
      · split at stopped
        · rename_i exhausted
          rw [stopped] at exhausted
          cases exhausted
        · split at stopped <;> cases stopped

theorem canceled_of_finalStop {stopErr : Option GoError} {primary result : ProduceResult}
    {stop : ProduceStop} (stopped : finalStop stopErr primary result stop = .canceled) :
    stop = .canceled ∨ errIs stopErr .contextCanceled = true := by
  have chain (terminalPrimary : Bool)
      (last : (if terminalPrimary then ProduceStop.terminalError
        else if stop = .writeTimeout then stop
        else if errIs stopErr .contextDeadlineExceeded then .writeTimeout
        else if errIs stopErr .contextCanceled then .canceled
        else stop) = .canceled) :
      stop = .canceled ∨ errIs stopErr .contextCanceled = true := by
    split at last
    · cases last
    · split at last
      · exact Or.inl last
      · split at last
        · cases last
        · split at last
          · exact Or.inr ‹_›
          · exact Or.inl last
  unfold finalStop at stopped
  split at stopped
  · exact Or.inl stopped
  · exact chain _ stopped

end Stops

theorem selectProduceResult_of_fallback {primary fallback : ProduceResult}
    (lost : primary.succeeded = false) (success : fallback.succeeded = true) :
    selectProduceResult primary fallback = fallback := by
  have clean : fallback.err = none := (ProduceResult.succeeded_iff.mp success).1
  unfold selectProduceResult
  simp [lost, clean]

namespace Cascade

/-- The depth of a cascade stays within the budget: every pending partition was in every wave,
and a wave finds room for each of them. -/
theorem attempts_step {cfg : HedgeConfig} {c c' : Cascade} (ok : c.Ok cfg)
    (depth : 1 ≤ c.attempts ∧ c.attempts ≤ cfg.maxHedgeAgents) (move : Move cfg c c') :
    1 ≤ c'.attempts ∧ c'.attempts ≤ cfg.maxHedgeAgents := by
  cases move with
  | stop => exact depth
  | receive => exact depth
  | dispatch order legs tried chosen top pending some picked grouped =>
      obtain ⟨p, mem⟩ := List.exists_mem_of_ne_nil _ some
      have keys := ok.acc.remaining_keys pending
      have distinct := keys.nodup_iff.mpr c.acc.pending.keys_nodup
      have inside : p.topicPartition ∈ order.map EncodedTopicPartitionRecords.topicPartition :=
        List.mem_map_of_mem mem
      have room := (pickCandidates_tried distinct picked p.topicPartition).2 inside
      rw [ok.tried _ (keys.mem_iff.mp inside)] at room
      change 1 ≤ c.attempts + 1 ∧ c.attempts + 1 ≤ cfg.maxHedgeAgents
      omega

theorem attempts_start {cfg : HedgeConfig} {c : Cascade} (started : Cascade.start cfg = .ok c) :
    c.attempts = 1 := by
  unfold Cascade.start at started
  cases made : newProduceResultAccumulator cfg.partitions with
  | error err =>
      rw [made] at started
      cases started
  | ok acc =>
      rw [made] at started
      obtain rfl := Except.ok.inj started
      rfl

end Cascade

/-- A depth within the budget, and no cancellation that was not one. -/
structure HedgerProduceResult.Bounded (maxHedgeAgents : Nat) (canceled : Bool)
    (fallback : HedgerProduceResult) : Prop where
  least : 1 ≤ fallback.attempts
  most : fallback.attempts ≤ maxHedgeAgents
  stop : fallback.stop = .canceled → canceled = true

theorem HedgerProduceResult.Bounded.canceled_of_finalStop {maxHedgeAgents : Nat}
    {ctxErr : Option GoError} {fallback : HedgerProduceResult}
    (bounded : fallback.Bounded maxHedgeAgents (errIs ctxErr .contextCanceled))
    {deadlineReached : Bool} {primary res : ProduceResult}
    (stopped : finalStop (ctxStopErr ctxErr deadlineReached) primary res fallback.stop = .canceled) :
    errIs ctxErr .contextCanceled = true := by
  rcases Warpstream.canceled_of_finalStop stopped with same | ended
  · exact bounded.stop same
  · exact errIs_ctxStopErr ended

namespace HedgerCall

variable {c c' : HedgerCall}

/-- The caller has canceled the call. -/
def canceled (c : HedgerCall) : Bool := errIs c.ctxErr .contextCanceled

/-- A win is counted, under the trigger of the cascade, exactly when the result is the
cascade's success. -/
def Wins (c : HedgerCall) (res : ProduceResult) : Prop :=
  (∃ fallback trigger, c.tookFallback = some fallback ∧ fallback.result.succeeded = true ∧
      res = fallback.result ∧ c.metrics.hedgeTriggers = [trigger] ∧
      c.metrics.hedgeTriggerWins = [trigger]) ∨
    ((∀ fallback, c.tookFallback = some fallback → fallback.result.succeeded = false) ∧
      c.metrics.hedgeTriggerWins = [])

/-- What has been counted in each phase. -/
def PhaseBooks (c : HedgerCall) : Prop :=
  match c.phase with
  | .returned res =>
      c.routed = [] ∨ (c.Wins res ∧ c.metrics.Observed c.maxHedgeAgents res c.canceled)
  | .start | .waitPrimary | .waitPrimaryOrTimer =>
      c.metrics.Unobserved ∧ c.metrics.hedgeTriggerWins = []
  | .afterPrimary _ =>
      c.metrics.Unobserved ∧ c.metrics.hedgeTriggerWins = [] ∧
        c.metrics.hedgeTriggers = [.primaryFailure]
  | .racing trigger | .primaryLost _ trigger =>
      c.metrics.Unobserved ∧ c.metrics.hedgeTriggerWins = [] ∧ c.metrics.hedgeTriggers = [trigger]
  | .fallbackLost fallback =>
      c.metrics.Unobserved ∧ c.metrics.hedgeTriggerWins = [] ∧ fallback.result.succeeded = false

/-- What holds in every phase: one trigger for the cascade, and nothing out of bounds that the
call has read or may still read. -/
structure Ledger (c : HedgerCall) : Prop where
  agents : 1 ≤ c.maxHedgeAgents
  triggers : c.metrics.hedgeTriggers.length = if c.cascade = none then 0 else 1
  attempts : ∀ cascade, c.cascade = some cascade →
    1 ≤ cascade.attempts ∧ cascade.attempts ≤ c.maxHedgeAgents
  sent : ∀ fallback, c.fallbackCh = some fallback → fallback.Bounded c.maxHedgeAgents c.canceled
  took : ∀ fallback, c.tookFallback = some fallback → fallback.Bounded c.maxHedgeAgents c.canceled

/-- What every step of a call keeps about its metrics. -/
structure Books (c : HedgerCall) : Prop where
  ledger : c.Ledger
  phase : c.PhaseBooks

theorem books_init {maxHedgeAgents : Nat} (agents : 1 ≤ maxHedgeAgents) {primaryID : Int}
    {candidates : TopicPartition → List Agent} {routed : List RoutedEncodedTopicPartitionRecords} :
    Books { maxHedgeAgents, primaryID, candidates, routed } :=
  ⟨⟨agents, rfl, by simp, by simp, by simp⟩, ⟨rfl, rfl, rfl⟩, rfl⟩

theorem Ledger.setPhase (ledger : c.Ledger) (phase : CallPhase) : Ledger { c with phase := phase } :=
  ⟨ledger.agents, ledger.triggers, ledger.attempts, ledger.sent, ledger.took⟩

theorem Ledger.readPrimary (ledger : c.Ledger) (primary : ProduceResult) :
    (c.readPrimary primary).Ledger :=
  ⟨ledger.agents, ledger.triggers, ledger.attempts, ledger.sent, ledger.took⟩

theorem Ledger.readFallback (ledger : c.Ledger) {fallback : HedgerProduceResult}
    (arrived : c.fallbackCh = some fallback) : (c.readFallback fallback).Ledger := by
  refine ⟨ledger.agents, ledger.triggers, ledger.attempts, ?_, ?_⟩
  · intro other found
    cases found
  · intro other found
    obtain rfl := Option.some.inj found
    exact ledger.sent fallback arrived

theorem Ledger.observeHedgeWin (ledger : c.Ledger) (trigger : HedgeTrigger) :
    Ledger { c with metrics := c.metrics.observeHedgeWin trigger } :=
  ⟨ledger.agents, ledger.triggers, ledger.attempts, ledger.sent, ledger.took⟩

theorem startCascade_of_ok {cascade : Cascade} (started : Cascade.start c.cfg = .ok cascade)
    (trigger : HedgeTrigger) :
    c.startCascade trigger = { c with
      cascade := some cascade
      metrics := { c.metrics with hedgeTriggers := c.metrics.hedgeTriggers ++ [trigger] } } := by
  have same : Cascade.start { c with metrics := { c.metrics with
      hedgeTriggers := c.metrics.hedgeTriggers ++ [trigger] } }.cfg = .ok cascade := started
  simp only [startCascade, same]

/-- The start of the cascade, where there is none yet. -/
theorem Books.startCascade (ledger : c.Ledger) (core : c.Core) (noCascade : c.cascade = none)
    (trigger : HedgeTrigger) {phase : CallPhase}
    (ok : ∀ cascade metrics, metrics = { c.metrics with hedgeTriggers := [trigger] } →
      PhaseBooks { c with cascade := some cascade, metrics := metrics, phase := phase }) :
    Books { c.startCascade trigger with phase := phase } := by
  obtain ⟨cascade, started, -⟩ := Cascade.ok_start core.distinct
  have none : c.metrics.hedgeTriggers = [] := by
    have counted := ledger.triggers
    rw [if_pos noCascade] at counted
    exact List.length_eq_zero_iff.mp counted
  rw [startCascade_of_ok started, none, List.nil_append]
  refine ⟨⟨ledger.agents, ?_, ?_, ledger.sent, ledger.took⟩, ok cascade _ rfl⟩
  · simp
  · intro k found
    obtain rfl := Option.some.inj found
    rw [Cascade.attempts_start started]
    exact ⟨le_refl 1, ledger.agents⟩

/-- The trigger and its win are not touched by the observation of the depth. -/
theorem observeAttempts_triggers (m : HedgerMetrics) (res : ProduceResult) (attempts : Nat)
    (stop : ProduceStop) :
    (m.observeAttempts res attempts stop).hedgeTriggers = m.hedgeTriggers ∧
      (m.observeAttempts res attempts stop).hedgeTriggerWins = m.hedgeTriggerWins := by
  unfold HedgerMetrics.observeAttempts
  split
  · exact ⟨rfl, rfl⟩
  · exact ⟨rfl, rfl⟩

theorem Books.finish (ledger : c.Ledger) (unobserved : c.metrics.Unobserved) {res : ProduceResult}
    (wins : c.Wins res) {attempts : Nat} (least : 1 ≤ attempts)
    (most : attempts ≤ c.maxHedgeAgents) {stop : ProduceStop}
    (cause : res.succeeded = false → stop = .canceled → c.canceled = true) :
    (c.finish res attempts stop).Books := by
  obtain ⟨triggers, won⟩ := observeAttempts_triggers c.metrics res attempts stop
  refine ⟨⟨ledger.agents, ?_, ledger.attempts, ledger.sent, ledger.took⟩, Or.inr ⟨?_, ?_⟩⟩
  · exact (congrArg List.length triggers).trans ledger.triggers
  · change Wins { c with
      phase := .returned res
      metrics := c.metrics.observeAttempts res attempts stop } res
    unfold Wins
    rw [triggers, won]
    exact wins
  · exact unobserved.observeAttempts least most cause

theorem Books.begin (books : c.Books) (inv : c.Inv) (fresh : c.phase = .start)
    (decision : HedgeDecision) : (c.begin decision).Books := by
  have known := inv.phase
  simp only [PhaseOk, fresh] at known
  have counted := books.phase
  simp only [PhaseBooks, fresh] at counted
  unfold HedgerCall.begin
  split
  · exact ⟨books.ledger.setPhase _, Or.inl ‹_›⟩
  · rw [inv.core.notMisrouted]
    simp only
    split
    · split
      · refine Books.startCascade books.ledger inv.core known.2.2.1 _ ?_
        rintro cascade metrics rfl
        exact ⟨⟨counted.1.success, counted.1.failure, counted.1.reasons⟩, counted.2, rfl⟩
      · exact ⟨books.ledger.setPhase _, counted⟩
    · exact ⟨books.ledger.setPhase _, counted⟩

/-- While the call waits for an attempt it has observed nothing and counted no win. -/
theorem Books.unobserved_of_waits (books : c.Books)
    (waits : c.phase = .waitPrimary ∨ c.phase = .waitPrimaryOrTimer ∨
      ∃ trigger, c.phase = .racing trigger) :
    c.metrics.Unobserved ∧ c.metrics.hedgeTriggerWins = [] := by
  have counted := books.phase
  rcases waits with here | here | ⟨trigger, here⟩ <;> simp only [PhaseBooks, here] at counted
  · exact counted
  · exact counted
  · exact ⟨counted.1, counted.2.1⟩

theorem Books.readsPrimary (books : c.Books) (inv : c.Inv) {primary : ProduceResult}
    {deadlineReached : Bool} (read : c.ReadsPrimary primary deadlineReached c') : c'.Books := by
  have ledger := books.ledger.readPrimary primary
  have counted := books.phase
  cases read with
  | won waits success =>
      -- nothing was read from the cascade
      obtain ⟨unobserved, noWins⟩ := books.unobserved_of_waits waits
      refine Books.finish ledger unobserved (Or.inr ⟨?_, noWins⟩) (le_refl 1) ledger.agents ?_
      · intro fallback found
        cases (inv.unread_of_waits waits).symm.trans found
      · intro failed
        cases success.symm.trans failed
  | failed waits =>
      obtain ⟨unobserved, noWins⟩ := books.unobserved_of_waits (waits.imp_right Or.inl)
      refine Books.startCascade ledger (inv.core.readPrimary primary) (inv.idle_of_waits waits).2.1
        _ ?_
      rintro cascade metrics rfl
      exact ⟨⟨unobserved.success, unobserved.failure, unobserved.reasons⟩, noWins, rfl⟩
  | lost racing =>
      simp only [PhaseBooks, racing] at counted
      exact ⟨ledger.setPhase _, counted⟩
  | @settled fallback waits =>
      have known := inv.phase
      simp only [PhaseOk, waits] at known
      simp only [PhaseBooks, waits] at counted
      obtain ⟨-, took, -⟩ := known
      obtain ⟨unobserved, noWins, failed⟩ := counted
      have bounded := ledger.took fallback took
      refine Books.finish ledger unobserved (Or.inr ⟨?_, noWins⟩) ?_ ?_ ?_
      · intro other found
        obtain rfl := Option.some.inj (took.symm.trans found)
        exact failed
      · split
        · exact le_refl 1
        · exact bounded.least
      · split
        · exact ledger.agents
        · exact bounded.most
      · intro _ stopped
        exact bounded.canceled_of_finalStop stopped

/-- The cascade's result is returned, or merged with that of a primary that has failed. -/
theorem Books.finish_fallback (books : c.Books) {fallback : HedgerProduceResult}
    (arrived : c.fallbackCh = some fallback) {trigger : HedgeTrigger}
    (unobserved : c.metrics.Unobserved) (noWins : c.metrics.hedgeTriggerWins = [])
    (triggers : c.metrics.hedgeTriggers = [trigger]) {res : ProduceResult}
    (same : fallback.result.succeeded = true → res = fallback.result) {stop : ProduceStop}
    (cause : stop = .canceled → c.canceled = true) :
    (((c.readFallback fallback).observeHedgeWin trigger fallback).finish res fallback.attempts
      stop).Books := by
  have ledger := books.ledger.readFallback arrived
  have bounded := books.ledger.sent fallback arrived
  unfold HedgerCall.observeHedgeWin
  split
  · rename_i success
    refine Books.finish (ledger.observeHedgeWin trigger)
      ⟨unobserved.success, unobserved.failure, unobserved.reasons⟩
      (Or.inl ⟨fallback, trigger, rfl, success, same success, triggers, ?_⟩) bounded.least
      bounded.most (fun _ => cause)
    change c.metrics.hedgeTriggerWins ++ [trigger] = [trigger]
    rw [noWins, List.nil_append]
  · rename_i failed
    refine Books.finish ledger unobserved (Or.inr ⟨?_, noWins⟩) bounded.least bounded.most
      (fun _ => cause)
    intro other found
    obtain rfl := Option.some.inj found
    simpa using failed

theorem Books.readsFallback (books : c.Books) (inv : c.Inv) {fallback : HedgerProduceResult}
    {deadlineReached : Bool} (arrived : c.fallbackCh = some fallback)
    (read : c.ReadsFallback fallback deadlineReached c') : c'.Books := by
  have bounded := books.ledger.sent fallback arrived
  have counted := books.phase
  cases read with
  | @settled primary trigger waits =>
      have lost := (inv.lost_of_waits waits).2
      have counts : c.metrics.Unobserved ∧ c.metrics.hedgeTriggerWins = [] ∧
          c.metrics.hedgeTriggers = [trigger] := by
        rcases waits with ⟨here, rfl⟩ | here <;>
        · simp only [PhaseBooks, here] at counted
          exact counted
      exact books.finish_fallback arrived counts.1 counts.2.1 counts.2.2
        (selectProduceResult_of_fallback lost) bounded.canceled_of_finalStop
  | won racing =>
      simp only [PhaseBooks, racing] at counted
      exact books.finish_fallback arrived counted.1 counted.2.1 counted.2.2 (fun _ => rfl)
        bounded.stop
  | lost racing failure =>
      simp only [PhaseBooks, racing] at counted
      exact ⟨(books.ledger.readFallback arrived).setPhase _, counted.1, counted.2.1, failure⟩

/-- The context ends. Until then nothing was taken for a cancellation. -/
theorem Books.ctxEnds (books : c.Books) (alive : c.ctxErr = none) (err : GoError) :
    Books { c with ctxErr := some err } := by
  have before : c.canceled = false := by
    unfold canceled
    rw [alive]
    rfl
  have later (fallback : HedgerProduceResult)
      (bounded : fallback.Bounded c.maxHedgeAgents c.canceled) :
      fallback.Bounded c.maxHedgeAgents (errIs (some err) .contextCanceled) := by
    refine ⟨bounded.least, bounded.most, ?_⟩
    intro stopped
    cases before.symm.trans (bounded.stop stopped)
  have ledger := books.ledger
  refine ⟨⟨ledger.agents, ledger.triggers, ledger.attempts,
    fun fallback found => later fallback (ledger.sent fallback found),
    fun fallback found => later fallback (ledger.took fallback found)⟩, ?_⟩
  have counted := books.phase
  unfold PhaseBooks at counted ⊢
  cases here : c.phase with
  | start | waitPrimary | waitPrimaryOrTimer | afterPrimary | racing | primaryLost | fallbackLost =>
      simp only [here] at counted ⊢
      exact counted
  | returned res =>
      simp only [here] at counted ⊢
      refine counted.imp id ?_
      rintro ⟨wins, observed⟩
      exact ⟨wins, observed.depth, observed.success, fun failed _ => observed.failure failed before⟩

/-- A step of the cascade, or its return: the call has not read its result. -/
theorem Books.cascade (books : c.Books) {before : Cascade} (running : c.cascade = some before)
    (after : Cascade) (depth : 1 ≤ after.attempts ∧ after.attempts ≤ c.maxHedgeAgents)
    {ch : Option HedgerProduceResult}
    (sent : ∀ fallback, ch = some fallback → fallback.Bounded c.maxHedgeAgents c.canceled) :
    Books { c with cascade := some after, fallbackCh := ch } := by
  have ledger := books.ledger
  refine ⟨⟨ledger.agents, ?_, ?_, sent, ledger.took⟩, books.phase⟩
  · have counted := ledger.triggers
    rw [running] at counted
    exact counted
  · intro k found
    obtain rfl := Option.some.inj found
    exact depth

theorem books_step (c : HedgerCall) (action : CallAction) (c' : HedgerCall)
    (kept : c.Inv ∧ c.Books) (stepped : c.step action = some c') : c'.Inv ∧ c'.Books := by
  obtain ⟨inv, books⟩ := kept
  refine ⟨inv_step c action c' inv stepped, ?_⟩
  cases moves_of_step stepped with
  | start fresh => exact books.begin inv fresh _
  | ctxEnds alive => exact books.ctxEnds alive _
  | primaryReturns =>
      have ledger := books.ledger
      exact ⟨⟨ledger.agents, ledger.triggers, ledger.attempts, ledger.sent, ledger.took⟩, books.phase⟩
  | timerFires waits =>
      have known := inv.phase
      simp only [PhaseOk, waits] at known
      have counted := books.phase
      simp only [PhaseBooks, waits] at counted
      refine Books.startCascade books.ledger inv.core known.2.2.1 _ ?_
      rintro cascade metrics rfl
      exact ⟨⟨counted.1.success, counted.1.failure, counted.1.reasons⟩, counted.2, rfl⟩
  | cascade running moved =>
      have depth := Cascade.attempts_step (inv.core.cascade _ running)
        (books.ledger.attempts _ running) (Cascade.move_of_step moved)
      exact books.cascade running _ depth books.ledger.sent
  | @cascadeReturns _ _ cascade _ running =>
      have depth := books.ledger.attempts cascade running
      refine books.cascade running { cascade with phase := .finished } depth ?_
      intro fallback found
      obtain rfl := Option.some.inj found
      refine ⟨depth.1, depth.2, ?_⟩
      intro stopped
      exact errIs_ctxStopErr (errIs_of_classifyProduceStop stopped)
  | takePrimary _ next => exact books.readsPrimary inv (readsPrimary_of_onPrimary next)
  | takeFallback arrived next =>
      exact books.readsFallback inv arrived (readsFallback_of_onFallback next)

/-- What a call with partitions has counted: a trigger for its cascade, and at its return a win
if the result is the cascade's success, one depth, and the reason of a failure. -/
structure Accounted (c : HedgerCall) : Prop where
  trigger : c.metrics.hedgeTriggers.length = if c.cascade = none then 0 else 1
  unreturned : (∀ res, c.phase ≠ .returned res) →
    c.metrics.Unobserved ∧ c.metrics.hedgeTriggerWins = []
  fallback : ∀ fallback, c.tookFallback = some fallback → c.Surfaced fallback
  wins : ∀ res, c.phase = .returned res → c.Wins res
  observed : ∀ res, c.phase = .returned res → c.metrics.Observed c.maxHedgeAgents res c.canceled

theorem Books.accounted (books : c.Books) (told : c.Told) (some : c.routed ≠ []) :
    c.Accounted := by
  have counted := books.phase
  have returned (res : ProduceResult) (here : c.phase = .returned res) :
      c.Wins res ∧ c.metrics.Observed c.maxHedgeAgents res c.canceled := by
    simp only [PhaseBooks, here] at counted
    exact counted.resolve_left some
  refine ⟨books.ledger.triggers, ?_, told.took, fun res here => (returned res here).1,
    fun res here => (returned res here).2⟩
  intro running
  unfold PhaseBooks at counted
  cases here : c.phase with
  | start | waitPrimary | waitPrimaryOrTimer =>
      simp only [here] at counted
      exact counted
  | afterPrimary | racing | primaryLost | fallbackLost =>
      simp only [here] at counted
      exact ⟨counted.1, counted.2.1⟩
  | returned res => exact absurd here (running res)

section Triggers

theorem triggers_startCascade (c : HedgerCall) (trigger : HedgeTrigger) :
    c.metrics.hedgeTriggers <+: (c.startCascade trigger).metrics.hedgeTriggers := by
  rw [metrics_startCascade]
  exact List.prefix_append _ _

theorem triggers_finish (c : HedgerCall) (res : ProduceResult) (attempts : Nat)
    (stop : ProduceStop) :
    (c.finish res attempts stop).metrics.hedgeTriggers = c.metrics.hedgeTriggers :=
  (observeAttempts_triggers c.metrics res attempts stop).1

theorem triggers_observeHedgeWin (c : HedgerCall) (trigger : HedgeTrigger)
    (fallback : HedgerProduceResult) :
    (c.observeHedgeWin trigger fallback).metrics.hedgeTriggers = c.metrics.hedgeTriggers := by
  unfold HedgerCall.observeHedgeWin
  split <;> rfl

/-- A counted trigger stays counted. -/
theorem triggers_begin (c : HedgerCall) (decision : HedgeDecision) :
    c.metrics.hedgeTriggers <+: (c.begin decision).metrics.hedgeTriggers := by
  unfold HedgerCall.begin
  split
  · exact List.prefix_refl _
  · split
    · exact List.prefix_refl _
    · split
      · split
        · exact triggers_startCascade c _
        · exact List.prefix_refl _
      · exact List.prefix_refl _

theorem triggers_readsPrimary {primary : ProduceResult} {deadlineReached : Bool}
    (read : c.ReadsPrimary primary deadlineReached c') :
    c.metrics.hedgeTriggers <+: c'.metrics.hedgeTriggers := by
  cases read with
  | won | settled =>
      rw [triggers_finish]
      exact List.prefix_refl _
  | failed => exact triggers_startCascade (c.readPrimary primary) _
  | lost => exact List.prefix_refl _

theorem triggers_readsFallback {fallback : HedgerProduceResult} {deadlineReached : Bool}
    (read : c.ReadsFallback fallback deadlineReached c') :
    c'.metrics.hedgeTriggers = c.metrics.hedgeTriggers := by
  cases read with
  | settled | won =>
      rw [triggers_finish, triggers_observeHedgeWin]
      rfl
  | lost => rfl

theorem triggers_step {action : CallAction} (stepped : c.step action = some c') :
    c.metrics.hedgeTriggers <+: c'.metrics.hedgeTriggers := by
  cases moves_of_step stepped with
  | start => exact triggers_begin c _
  | ctxEnds | primaryReturns | cascade | cascadeReturns => exact List.prefix_refl _
  | timerFires => exact triggers_startCascade c _
  | takePrimary _ next => exact triggers_readsPrimary (readsPrimary_of_onPrimary next)
  | takeFallback _ next =>
      rw [triggers_readsFallback (readsFallback_of_onFallback next)]

end Triggers

end HedgerCall

end Warpstream
