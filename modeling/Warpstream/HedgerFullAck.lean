import Warpstream.HedgerRetry

set_option autoImplicit false

/- When a result that acknowledges every partition succeeds. The cascade reads the context
after its loop, so its result can carry the context's error next to a response that
acknowledges everything. -/
namespace Warpstream

namespace HedgerMetrics

/-- No failed attempt was observed and no failure reason counted. -/
def NoFailures (m : HedgerMetrics) : Prop := m.attemptsFailure = [] ∧ m.produceRequestsFailed = []

theorem NoFailures.observeAttempts {m : HedgerMetrics} (quiet : m.NoFailures)
    {result : ProduceResult} (success : result.succeeded = true) (attempts : Nat)
    (stop : ProduceStop) : (m.observeAttempts result attempts stop).NoFailures := by
  unfold HedgerMetrics.observeAttempts
  rw [if_pos success]
  exact quiet

end HedgerMetrics

namespace HedgerCall

variable {c c' : HedgerCall}

/-- The result of the cascade, which has ended, with the context's error if it had one by
then. -/
def Surfaced (c : HedgerCall) (fallback : HedgerProduceResult) : Prop :=
  ∃ cascade orders ctxErr, c.cascade = some cascade ∧ cascade.phase = .finished ∧
    cascade.acc.Orders orders ∧ (ctxErr = none ∨ ctxErr = c.ctxErr) ∧
    fallback.result = { cascade.acc.result orders with
      err := ctxErr.or (cascade.acc.result orders).err }

theorem not_surfaced (running : ∀ cascade, c.cascade = some cascade → cascade.phase ≠ .finished)
    (fallback : HedgerProduceResult) : ¬ c.Surfaced fallback := by
  rintro ⟨cascade, -, -, found, finished, -⟩
  exact running cascade found finished

/-- What the cascade sent is what the call read, and a call that has not failed has counted
no failure. -/
structure Told (c : HedgerCall) : Prop where
  sent : ∀ fallback, c.fallbackCh = some fallback → c.Surfaced fallback
  took : ∀ fallback, c.tookFallback = some fallback → c.Surfaced fallback
  failures : c.metrics.NoFailures ∨ ∃ res, c.phase = .returned res ∧ res.succeeded = false
  read : ∀ res, c.phase = .returned res → res.succeeded = false → c.tookFallback ≠ none

theorem told_init {maxHedgeAgents : Nat} {primaryID : Int} {candidates : TopicPartition → List Agent}
    {routed : List RoutedEncodedTopicPartitionRecords} :
    Told { maxHedgeAgents, primaryID, candidates, routed } :=
  ⟨by simp, by simp, Or.inl ⟨rfl, rfl⟩, by simp⟩

theorem Told.quiet (told : c.Told) (running : ∀ res, c.phase ≠ .returned res) :
    c.metrics.NoFailures := by
  rcases told.failures with quiet | ⟨res, returned, -⟩
  · exact quiet
  · exact absurd returned (running res)

/-- A phase in which the call has not returned. -/
theorem Told.setPhase (told : c.Told) (quiet : c.metrics.NoFailures) {phase : CallPhase}
    (running : ∀ res, phase ≠ .returned res) : Told { c with phase := phase } :=
  ⟨told.sent, told.took, Or.inl quiet, fun res returned => absurd returned (running res)⟩

theorem Told.finish (told : c.Told) (quiet : c.metrics.NoFailures) {res : ProduceResult}
    (read : res.succeeded = false → c.tookFallback ≠ none) (attempts : Nat) (stop : ProduceStop) :
    (c.finish res attempts stop).Told := by
  refine ⟨told.sent, told.took, ?_, ?_⟩
  · cases success : res.succeeded with
    | true => exact Or.inl (quiet.observeAttempts success attempts stop)
    | false => exact Or.inr ⟨res, rfl, success⟩
  · intro answer returned failed
    obtain rfl : res = answer := CallPhase.returned.inj returned
    exact read failed

theorem metrics_startCascade (trigger : HedgeTrigger) :
    (c.startCascade trigger).metrics =
      { c.metrics with hedgeTriggers := c.metrics.hedgeTriggers ++ [trigger] } := by
  unfold startCascade
  simp only
  split <;> rfl

theorem Told.startCascade (told : c.Told) (core : c.Core) (noCascade : c.cascade = none)
    (quiet : c.metrics.NoFailures) (trigger : HedgeTrigger) {phase : CallPhase}
    (running : ∀ res, phase ≠ .returned res) :
    Told { c.startCascade trigger with phase := phase } := by
  have unsent := not_surfaced (c := c) (by simp [noCascade])
  have counted := metrics_startCascade (c := c) trigger
  obtain ⟨cascade, metrics, -, -, eq⟩ := startCascade_eq core trigger
  rw [eq] at counted ⊢
  refine ⟨?_, ?_, Or.inl ?_, fun res returned => absurd returned (running res)⟩
  · intro fallback found
    exact absurd (told.sent fallback found) (unsent fallback)
  · intro fallback found
    exact absurd (told.took fallback found) (unsent fallback)
  · change metrics.NoFailures
    rw [show metrics = _ from counted]
    exact quiet

theorem Told.begin (told : c.Told) (inv : c.Inv) (fresh : c.phase = .start)
    (decision : HedgeDecision) : (c.begin decision).Told := by
  have known := inv.phase
  simp only [PhaseOk, fresh] at known
  obtain ⟨-, -, noCascade, -⟩ := known
  have quiet := told.quiet (by simp [fresh])
  unfold HedgerCall.begin
  split
  · refine ⟨told.sent, told.took, Or.inl quiet, ?_⟩
    intro res returned failed
    rw [← CallPhase.returned.inj returned] at failed
    cases failed
  · rw [inv.core.notMisrouted]
    simp only
    split
    · split
      · exact told.startCascade inv.core noCascade quiet _ (by simp)
      · exact told.setPhase quiet (by simp)
    · exact told.setPhase quiet (by simp)

theorem Told.readsPrimary (told : c.Told) (inv : c.Inv) {primary : ProduceResult}
    {deadlineReached : Bool} (read : c.ReadsPrimary primary deadlineReached c') : c'.Told := by
  have reading : (c.readPrimary primary).Told := ⟨told.sent, told.took, told.failures, told.read⟩
  cases read with
  | won waits success =>
      have quiet : c.metrics.NoFailures := told.quiet (by
        rcases waits with here | here | ⟨trigger, here⟩ <;> simp [here])
      exact reading.finish quiet (by simp [success]) _ _
  | failed waits =>
      have quiet : c.metrics.NoFailures := told.quiet (by
        rcases waits with here | here <;> simp [here])
      exact reading.startCascade (inv.core.readPrimary primary) (inv.idle_of_waits waits).2.1 quiet _
        (by simp)
  | lost racing => exact reading.setPhase (told.quiet (by simp [racing])) (by simp)
  | @settled fallback waits =>
      have known := inv.phase
      simp only [PhaseOk, waits] at known
      refine reading.finish (told.quiet (by simp [waits])) (fun _ => ?_) _ _
      change c.tookFallback ≠ none
      rw [known.2.1]
      exact Option.some_ne_none fallback

theorem Told.observeHedgeWin (told : c.Told) (quiet : c.metrics.NoFailures)
    (trigger : HedgeTrigger) (fallback : HedgerProduceResult) :
    (c.observeHedgeWin trigger fallback).Told ∧
      (c.observeHedgeWin trigger fallback).metrics.NoFailures ∧
      (c.observeHedgeWin trigger fallback).tookFallback = c.tookFallback := by
  unfold HedgerCall.observeHedgeWin
  split
  · exact ⟨⟨told.sent, told.took, Or.inl quiet, told.read⟩, quiet, rfl⟩
  · exact ⟨told, quiet, rfl⟩

theorem Told.readsFallback (told : c.Told) {fallback : HedgerProduceResult}
    {deadlineReached : Bool} (arrived : c.fallbackCh = some fallback)
    (read : c.ReadsFallback fallback deadlineReached c') : c'.Told := by
  have reading : (c.readFallback fallback).Told := by
    refine ⟨by simp [HedgerCall.readFallback], ?_, told.failures,
      fun _ _ _ => Option.some_ne_none fallback⟩
    intro answer found
    obtain rfl : fallback = answer := Option.some.inj found
    exact told.sent fallback arrived
  have finished (quiet : c.metrics.NoFailures) (trigger : HedgeTrigger) (res : ProduceResult)
      (attempts : Nat) (stop : ProduceStop) :
      (((c.readFallback fallback).observeHedgeWin trigger fallback).finish res attempts
        stop).Told := by
    obtain ⟨kept, counted, took⟩ := reading.observeHedgeWin quiet trigger fallback
    refine kept.finish counted (fun _ => ?_) attempts stop
    rw [took]
    exact Option.some_ne_none fallback
  cases read with
  | settled waits =>
      have quiet : c.metrics.NoFailures := told.quiet (by
        rcases waits with ⟨here, -⟩ | here <;> simp [here])
      exact finished quiet _ _ _ _
  | won racing => exact finished (told.quiet (by simp [racing])) _ _ _ _
  | lost racing => exact reading.setPhase (told.quiet (by simp [racing])) (by simp)

theorem told_step (c : HedgerCall) (action : CallAction) (c' : HedgerCall)
    (kept : c.Inv ∧ c.Told) (stepped : c.step action = some c') : c'.Inv ∧ c'.Told := by
  obtain ⟨inv, told⟩ := kept
  refine ⟨inv_step c action c' inv stepped, ?_⟩
  cases moves_of_step stepped with
  | start fresh => exact told.begin inv fresh _
  | @ctxEnds err alive =>
      have later (fallback : HedgerProduceResult) (surfaced : c.Surfaced fallback) :
          Surfaced { c with ctxErr := some err } fallback := by
        obtain ⟨cascade, orders, ctxErr, found, finished, ordered, seen, eq⟩ := surfaced
        rw [alive, or_self] at seen
        exact ⟨cascade, orders, ctxErr, found, finished, ordered, Or.inl seen, eq⟩
      exact ⟨fun fallback found => later fallback (told.sent fallback found),
        fun fallback found => later fallback (told.took fallback found), told.failures,
        told.read⟩
  | primaryReturns => exact ⟨told.sent, told.took, told.failures, told.read⟩
  | timerFires waits =>
      have known := inv.phase
      simp only [PhaseOk, waits] at known
      exact told.startCascade inv.core known.2.2.1 (told.quiet (by simp [waits])) _ (by simp)
  | cascade running moved =>
      have unfinished := (Cascade.move_of_step moved).unfinished.1
      have silent := not_surfaced (c := c) (by simpa [running] using unfinished)
      exact ⟨fun fallback found => absurd (told.sent fallback found) (silent fallback),
        fun fallback found => absurd (told.took fallback found) (silent fallback), told.failures,
        told.read⟩
  | @cascadeReturns orders _ _ _ running stopped ordered =>
      have silent := not_surfaced (c := c) (by simp [running, stopped])
      refine ⟨?_, fun fallback found => absurd (told.took fallback found) (silent fallback),
        told.failures, told.read⟩
      intro fallback found
      obtain rfl := Option.some.inj found
      exact ⟨_, orders, c.ctxErr, rfl, rfl, ordered, Or.inr rfl, rfl⟩
  | takePrimary _ next => exact told.readsPrimary inv (readsPrimary_of_onPrimary next)
  | takeFallback arrived next =>
      exact told.readsFallback arrived (readsFallback_of_onFallback next)

/-- A call that begins no attempt: it has no partitions, or one of another agent. -/
structure Idle (c : HedgerCall) : Prop where
  reason : c.routed = [] ∨ ∃ p ∈ c.routed, p.nodeID ≠ c.primaryID
  cascade : c.cascade = none
  fallbackCh : c.fallbackCh = none
  tookFallback : c.tookFallback = none
  phase : (c.phase = .start ∧ c.metrics.NoFailures) ∨
    ∃ res, c.phase = .returned res ∧
      ((c.routed = [] ∧ res.succeeded = true ∧ c.metrics.NoFailures) ∨
        (c.routed ≠ [] ∧ ∃ err, res = { err := some err }))

theorem Idle.begin (idle : c.Idle) (fresh : c.phase = .start) (decision : HedgeDecision) :
    (c.begin decision).Idle := by
  have quiet : c.metrics.NoFailures := by
    rcases idle.phase with ⟨-, quiet⟩ | ⟨res, returned, -⟩
    · exact quiet
    · cases fresh.symm.trans returned
  unfold HedgerCall.begin
  split
  · rename_i empty
    exact ⟨idle.reason, idle.cascade, idle.fallbackCh, idle.tookFallback,
      Or.inr ⟨_, rfl, Or.inl ⟨empty, rfl, quiet⟩⟩⟩
  · rename_i first rest routed
    have some : c.routed ≠ [] := by simp [routed]
    have elsewhere : ∃ p ∈ c.routed, p.nodeID ≠ c.primaryID := idle.reason.resolve_left some
    cases found : c.routed.find? (fun p => p.nodeID ≠ c.primaryID) with
    | none =>
        obtain ⟨p, mem, other⟩ := elsewhere
        have here := List.find?_eq_none.mp found p mem
        simp [other] at here
    | some p =>
        exact ⟨idle.reason, idle.cascade, idle.fallbackCh, idle.tookFallback,
          Or.inr ⟨_, rfl, Or.inr ⟨some, _, rfl⟩⟩⟩

/-- Nothing waits for the primary of such a call. -/
theorem Idle.not_readsPrimary (idle : c.Idle) {primary : ProduceResult} {deadlineReached : Bool} :
    ¬ c.ReadsPrimary primary deadlineReached c' := by
  have phase : c.phase = .start ∨ ∃ res, c.phase = .returned res :=
    idle.phase.imp And.left fun ⟨res, returned, _⟩ => ⟨res, returned⟩
  intro read
  cases read with
  | won waits | failed waits | settled waits =>
      rcases phase with here | ⟨res, here⟩ <;> simp [here] at waits
  | lost racing => rcases phase with here | ⟨res, here⟩ <;> simp [here] at racing

theorem idle_step (c : HedgerCall) (action : CallAction) (c' : HedgerCall) (idle : c.Idle)
    (stepped : c.step action = some c') : c'.Idle := by
  cases moves_of_step stepped with
  | start fresh => exact idle.begin fresh _
  | ctxEnds | primaryReturns =>
      exact ⟨idle.reason, idle.cascade, idle.fallbackCh, idle.tookFallback, idle.phase⟩
  | timerFires waits =>
      rcases idle.phase with ⟨fresh, -⟩ | ⟨res, returned, -⟩
      · cases fresh.symm.trans waits
      · cases returned.symm.trans waits
  | cascade running => cases idle.cascade.symm.trans running
  | cascadeReturns running => cases idle.cascade.symm.trans running
  | takePrimary _ next => exact absurd (readsPrimary_of_onPrimary next) idle.not_readsPrimary
  | takeFallback arrived => cases idle.fallbackCh.symm.trans arrived

/-- The cascade returns when the context has ended and nothing is pending. -/
def returnsLate (c : HedgerCall) : CallAction → Bool
  | .cascadeReturns _ _ =>
      c.ctxErr.isSome && (c.cascade.map fun k => k.acc.pending.keys.isEmpty).getD false
  | _ => false

/-- The call reads a success of the primary. -/
def takesSuccess (c : HedgerCall) : CallAction → Bool
  | .takePrimary _ => (c.primaryCh.map ProduceResult.succeeded).getD false
  | _ => false

/-- What such a run leaves behind: the call read the context's error next to a response with
everything acknowledged, and no success of the primary. -/
def EndsAfterLastAck (c : HedgerCall) : Prop :=
  ∃ cascade fallback err, c.cascade = some cascade ∧ c.tookFallback = some fallback ∧
    cascade.acc.pending.keys = [] ∧ c.ctxErr = some err ∧ fallback.result.err = some err ∧
    (c.tookPrimary.map ProduceResult.succeeded).getD false = false

/-- Every requested partition is resolved exactly when none is pending. -/
theorem resolved_iff_pending_nil {a : ProduceResultAccumulator} {requested : List TopicPartition}
    {legs : List LegResult} (ok : a.Ok requested legs) :
    (∀ tp ∈ requested, tp ∈ a.resolved) ↔ a.pending.keys = [] := by
  rw [List.eq_nil_iff_forall_not_mem]
  constructor
  · intro resolved tp pending
    exact ok.apart tp pending (resolved tp ((ok.covers tp).mpr (Or.inl pending)))
  · intro none tp wanted
    exact ((ok.covers tp).mp wanted).resolve_left (none tp)

theorem Inv.reports_nil_iff (inv : c.Inv) {res : ProduceResult} (source : c.FromCascade res)
    {cascade : Cascade} (ran : c.cascade = some cascade) :
    (∀ tp ∈ c.cfg.requested, recordErrFromResult res tp = none) ↔
      cascade.acc.pending.keys = [] := by
  obtain ⟨k, orders, found, -, ordered, present⟩ := source
  obtain rfl := Option.some.inj (ran.symm.trans found)
  have ok := (inv.core.cascade cascade ran).acc
  rw [← resolved_iff_pending_nil ok]
  refine forall₂_congr fun tp wanted => ?_
  exact ok.recordErr_eq_none ordered present wanted

/-- A cascade with nothing pending gives its context's error or succeeds. -/
theorem Surfaced.of_pending_nil {fallback : HedgerProduceResult} (surfaced : c.Surfaced fallback)
    (inv : c.Inv) {cascade : Cascade} (ran : c.cascade = some cascade)
    (none : cascade.acc.pending.keys = []) (failed : fallback.result.succeeded = false) :
    ∃ err, c.ctxErr = some err ∧ fallback.result.err = some err := by
  obtain ⟨k, orders, ctxErr, found, -, ordered, seen, eq⟩ := surfaced
  obtain rfl := Option.some.inj (ran.symm.trans found)
  have ok := (inv.core.cascade cascade ran).acc
  have clean : cascade.acc.result orders = { resp := some (cascade.acc.responseLocked orders) } := by
    simp [ProduceResultAccumulator.result, none]
  rw [clean, Option.or_none] at eq
  cases ctxErr with
  | some err =>
      have ended : some err = c.ctxErr := seen.resolve_left (Option.some_ne_none err)
      exact ⟨err, ended.symm, by rw [eq]⟩
  | none =>
      have success : fallback.result.succeeded = true := by
        rw [eq, ProduceResult.succeeded_iff]
        refine ⟨rfl, _, rfl, ?_⟩
        intro e mem
        obtain ⟨wanted, value⟩ := (ok.mem_response ordered e).mp mem
        rw [value, ok.outcome_code]
        exact (resolved_iff_pending_nil ok).mpr none e.1 wanted
      rw [success] at failed
      cases failed

theorem Inv.full_ack_iff (inv : c.Inv) (told : c.Told) (some : c.routed ≠ [])
    {res : ProduceResult} (returned : c.phase = .returned res) :
    ((∀ tp ∈ c.cfg.requested, recordErrFromResult res tp = none) →
        res.succeeded = true ∧ c.metrics.NoFailures) ↔ ¬ c.EndsAfterLastAck := by
  have known := inv.phase
  simp only [PhaseOk, returned] at known
  obtain ⟨source, same⟩ := known.resolve_left fun empty => some empty.1
  have merged (failed : res.succeeded = false) : c.FromCascade res := by
    rcases source with ⟨-, success⟩ | merged
    · cases success.symm.trans failed
    · exact merged
  constructor
  · rintro implies ⟨cascade, fallback, err, ran, took, none, -, failed, lost⟩
    have unread : c.readSuccess = false := by
      simp [readSuccess, lost, took, ProduceResult.succeeded, ProduceResult.error, failed]
    rw [unread] at same
    have success := (implies ((inv.reports_nil_iff (merged same) ran).mpr none)).1
    cases success.symm.trans same
  · intro notLate nil
    have success : res.succeeded = true := by
      by_contra failed
      rw [Bool.not_eq_true] at failed
      obtain ⟨fallback, took⟩ := Option.ne_none_iff_exists'.mp (told.read res returned failed)
      obtain ⟨cascade, _, ran, -⟩ := merged failed
      have none := (inv.reports_nil_iff (merged failed) ran).mp nil
      rw [same, readSuccess, Bool.or_eq_false_iff] at failed
      have lost : fallback.result.succeeded = false := by simpa [took] using failed.2
      obtain ⟨err, ended, surfaced⟩ := (told.took fallback took).of_pending_nil inv ran none lost
      exact notLate ⟨cascade, fallback, err, ran, took, none, ended, surfaced, failed.1⟩
    refine ⟨success, ?_⟩
    rcases told.failures with quiet | ⟨answer, again, failed⟩
    · exact quiet
    · obtain rfl := CallPhase.returned.inj (returned.symm.trans again)
      cases success.symm.trans failed

/-- The result of the cascade, sent or read. -/
def Sent (c : HedgerCall) (fallback : HedgerProduceResult) : Prop :=
  c.fallbackCh = some fallback ∨ c.tookFallback = some fallback

theorem frame_observeHedgeWin (trigger : HedgeTrigger) (fallback : HedgerProduceResult) :
    (c.observeHedgeWin trigger fallback).tookFallback = c.tookFallback ∧
      (c.observeHedgeWin trigger fallback).fallbackCh = c.fallbackCh ∧
      (c.observeHedgeWin trigger fallback).cascade = c.cascade ∧
      (c.observeHedgeWin trigger fallback).ctxErr = c.ctxErr ∧
      (c.observeHedgeWin trigger fallback).tookPrimary = c.tookPrimary := by
  unfold HedgerCall.observeHedgeWin
  split <;> exact ⟨rfl, rfl, rfl, rfl, rfl⟩

/-- A cascade that has returned stays as it is, sends nothing more, and the context's error
does not change. -/
theorem finished_step (inv : c.Inv) {action : CallAction} (stepped : c.step action = some c')
    {cascade : Cascade} (found : c.cascade = some cascade) (finished : cascade.phase = .finished) :
    c'.cascade = some cascade ∧ (∀ err, c.ctxErr = some err → c'.ctxErr = some err) ∧
      ∀ fallback, c'.Sent fallback → c.Sent fallback := by
  have started : ∀ {P : Prop}, c.cascade = none → P := fun none => by
    cases none.symm.trans found
  have known := inv.phase
  cases moves_of_step stepped with
  | start fresh =>
      simp only [PhaseOk, fresh] at known
      exact started known.2.2.1
  | ctxEnds alive => exact ⟨found, by simp [alive], fun _ sent => sent⟩
  | primaryReturns => exact ⟨found, fun _ ended => ended, fun _ sent => sent⟩
  | timerFires waits =>
      simp only [PhaseOk, waits] at known
      exact started known.2.2.1
  | cascade running moved =>
      obtain rfl := Option.some.inj (found.symm.trans running)
      exact absurd finished (Cascade.move_of_step moved).unfinished.1
  | cascadeReturns running stopped =>
      obtain rfl := Option.some.inj (found.symm.trans running)
      cases finished.symm.trans stopped
  | takePrimary _ next =>
      cases readsPrimary_of_onPrimary next with
      | won | lost | settled => exact ⟨found, fun _ ended => ended, fun _ sent => sent⟩
      | failed waits => exact started (inv.idle_of_waits waits).2.1
  | @takeFallback _ answer _ arrived next =>
      have read : ∀ fallback, (c.readFallback answer).Sent fallback → c.Sent fallback := by
        rintro fallback (left | took)
        · cases left
        · exact Or.inl (arrived.trans took)
      cases readsFallback_of_onFallback next with
      | @settled _ trigger | @won trigger =>
          obtain ⟨took, left, same, ended, -⟩ :=
            frame_observeHedgeWin (c := c.readFallback answer) trigger answer
          refine ⟨same.trans found, fun _ was => ended.trans was, fun fallback sent => read _ ?_⟩
          exact sent.imp left.symm.trans took.symm.trans
      | lost => exact ⟨found, fun _ ended => ended, read⟩

/-- The step after which the cascade has returned. -/
theorem finishes_step (inv : c.Inv) {action : CallAction} (stepped : c.step action = some c')
    {cascade : Cascade} (found : c'.cascade = some cascade) (finished : cascade.phase = .finished) :
    c.cascade = some cascade ∨
      ∃ orders deadlineReached before exhaustion, action = .cascadeReturns orders deadlineReached ∧
        c.cascade = some before ∧ before.phase = .stopped exhaustion ∧ cascade.acc = before.acc ∧
        c'.fallbackCh = some (before.outcome exhaustion c.ctxErr deadlineReached orders) ∧
        c'.tookFallback = c.tookFallback := by
  have fresh : ∀ {P : Prop} {trigger : HedgeTrigger} {d : HedgerCall}, d.Core →
      (d.startCascade trigger).cascade = some cascade → P := by
    intro P trigger d core here
    obtain ⟨new, metrics, -, top, eq⟩ := startCascade_eq core trigger
    rw [eq] at here
    obtain rfl : new = cascade := Option.some.inj here
    cases finished.symm.trans top.1
  cases moves_of_step stepped with
  | start =>
      left
      revert found
      unfold HedgerCall.begin
      split
      · exact id
      · rw [inv.core.notMisrouted]
        simp only
        split
        · split
          · exact fresh inv.core
          · exact id
        · exact id
  | ctxEnds | primaryReturns => exact Or.inl found
  | timerFires => exact fresh inv.core found
  | cascade running moved =>
      obtain rfl := Option.some.inj found
      exact absurd finished (Cascade.move_of_step moved).unfinished.2
  | @cascadeReturns orders deadlineReached before exhaustion running stopped =>
      obtain rfl := Option.some.inj found
      exact Or.inr ⟨orders, deadlineReached, before, exhaustion, rfl, running, stopped, rfl, rfl, rfl⟩
  | @takePrimary _ primary _ arrived next =>
      cases readsPrimary_of_onPrimary next with
      | won | lost | settled => exact Or.inl found
      | failed => exact fresh (inv.core.readPrimary primary) found
  | @takeFallback _ answer _ arrived next =>
      left
      cases readsFallback_of_onFallback next with
      | @settled _ trigger | @won trigger =>
          have same := (frame_observeHedgeWin (c := c.readFallback answer) trigger answer).2.2.1
          exact same.symm.trans found
      | lost => exact found

/-- The cascade returned after the context had ended, with nothing pending. -/
def Late (c : HedgerCall) : Prop :=
  ∃ cascade err, c.cascade = some cascade ∧ cascade.phase = .finished ∧
    cascade.acc.pending.keys = [] ∧ c.ctxErr = some err ∧
    ∀ fallback, c.Sent fallback → fallback.result.err = some err

theorem late_step (c : HedgerCall) (action : CallAction) (c' : HedgerCall) (kept : c.Inv ∧ c.Late)
    (stepped : c.step action = some c') : c'.Inv ∧ c'.Late := by
  obtain ⟨inv, cascade, err, found, finished, nil, ended, told⟩ := kept
  obtain ⟨found', ended', sent⟩ := finished_step inv stepped found finished
  exact ⟨inv_step c action c' inv stepped, cascade, err, found', finished, nil, ended' err ended,
    fun fallback here => told fallback (sent fallback here)⟩

theorem late_of_returnsLate (told : c.Told) {action : CallAction}
    (late : c.returnsLate action = true) (stepped : c.step action = some c') : c'.Late := by
  cases moves_of_step stepped with
  | @cascadeReturns orders deadlineReached cascade exhaustion running stopped =>
      have silent := not_surfaced (c := c) (by simp [running, stopped])
      simp only [returnsLate, running, Option.map_some, Option.getD_some, Bool.and_eq_true,
        List.isEmpty_iff] at late
      obtain ⟨err, ended⟩ := Option.isSome_iff_exists.mp late.1
      refine ⟨_, err, rfl, rfl, late.2, ended, ?_⟩
      rintro fallback (sent | took)
      · rw [← Option.some.inj sent]
        simp [Cascade.outcome, ended]
      · exact absurd (told.took fallback took) (silent fallback)
  | _ => cases late

/-- A cascade that had nothing pending sent no error. -/
def OnTime (c : HedgerCall) : Prop :=
  ∀ cascade fallback, c.cascade = some cascade → cascade.phase = .finished →
    cascade.acc.pending.keys = [] → c.Sent fallback → fallback.result.err = none

theorem onTime_step (c : HedgerCall) (action : CallAction) (c' : HedgerCall)
    (kept : (c.Inv ∧ c.Told) ∧ c.OnTime) (timely : (!c.returnsLate action) = true)
    (stepped : c.step action = some c') : (c'.Inv ∧ c'.Told) ∧ c'.OnTime := by
  obtain ⟨both, onTime⟩ := kept
  refine ⟨told_step c action c' both stepped, ?_⟩
  obtain ⟨inv, told⟩ := both
  intro cascade fallback found finished nil sent
  rcases finishes_step inv stepped found finished with before |
    ⟨orders, deadlineReached, before, exhaustion, rfl, running, stopped, same, sends, took⟩
  · have earlier := (finished_step inv stepped before finished).2.2 fallback sent
    exact onTime cascade fallback before finished nil earlier
  · rw [same] at nil
    have alive : c.ctxErr = none := by simpa [returnsLate, running, nil] using timely
    rcases sent with here | here
    · rw [← Option.some.inj (sends.symm.trans here)]
      simp [Cascade.outcome, alive, ProduceResultAccumulator.result, nil]
    · have silent := not_surfaced (c := c) (by simp [running, stopped])
      exact absurd (told.took fallback (took.symm.trans here)) (silent fallback)

/-- The call has read a success of the primary. -/
def TookSuccess (c : HedgerCall) : Prop :=
  (c.tookPrimary.map ProduceResult.succeeded).getD false = true

theorem tookPrimary_startCascade (trigger : HedgeTrigger) :
    (c.startCascade trigger).tookPrimary = c.tookPrimary := by
  unfold HedgerCall.startCascade
  simp only
  split <;> rfl

theorem tookPrimary_begin (decision : HedgeDecision) :
    (c.begin decision).tookPrimary = c.tookPrimary := by
  unfold HedgerCall.begin
  split
  · rfl
  · split
    · rfl
    · split
      · split
        · exact tookPrimary_startCascade decision.trigger
        · rfl
      · rfl

/-- Only the receive from the primary's channel changes what was read from it. -/
theorem tookPrimary_step {action : CallAction} (stepped : c.step action = some c') :
    c'.tookPrimary = c.tookPrimary ∨
      ∃ deadlineReached primary, action = .takePrimary deadlineReached ∧
        c.primaryCh = some primary ∧ c'.tookPrimary = some primary := by
  cases moves_of_step stepped with
  | start => exact Or.inl (tookPrimary_begin _)
  | ctxEnds | primaryReturns | cascade | cascadeReturns => exact Or.inl rfl
  | timerFires => exact Or.inl (tookPrimary_startCascade _)
  | @takePrimary deadlineReached primary _ arrived next =>
      refine Or.inr ⟨deadlineReached, primary, rfl, arrived, ?_⟩
      cases readsPrimary_of_onPrimary next with
      | won | lost | settled => rfl
      | failed => exact tookPrimary_startCascade _
  | @takeFallback _ answer _ arrived next =>
      left
      cases readsFallback_of_onFallback next with
      | @settled _ trigger | @won trigger =>
          exact (frame_observeHedgeWin (c := c.readFallback answer) trigger answer).2.2.2.2
      | lost => rfl

theorem notTookSuccess_step (c : HedgerCall) (action : CallAction) (c' : HedgerCall)
    (unread : ¬ c.TookSuccess) (allowed : (!c.takesSuccess action) = true)
    (stepped : c.step action = some c') : ¬ c'.TookSuccess := by
  rcases tookPrimary_step stepped with same | ⟨_, primary, rfl, arrived, took⟩
  · rwa [TookSuccess, same]
  · simpa [TookSuccess, took, takesSuccess, arrived] using allowed

/-- A call that has returned reads nothing more. -/
theorem tookSuccess_step (c : HedgerCall) (action : CallAction) (c' : HedgerCall)
    (kept : c.TookSuccess ∧ ∃ res, c.phase = .returned res) (stepped : c.step action = some c') :
    c'.TookSuccess ∧ ∃ res, c'.phase = .returned res := by
  obtain ⟨success, res, returned⟩ := kept
  cases moves_of_step stepped with
  | start fresh => cases fresh.symm.trans returned
  | ctxEnds | primaryReturns | cascade | cascadeReturns => exact ⟨success, res, returned⟩
  | timerFires waits => cases waits.symm.trans returned
  | takePrimary _ next =>
      cases readsPrimary_of_onPrimary next with
      | won waits | failed waits | settled waits => simp [returned] at waits
      | lost racing => cases racing.symm.trans returned
  | takeFallback _ next =>
      cases readsFallback_of_onFallback next with
      | settled waits => simp [returned] at waits
      | won racing | lost racing => cases racing.symm.trans returned

theorem tookSuccess_of_takesSuccess {action : CallAction} (takes : c.takesSuccess action = true)
    (stepped : c.step action = some c') : c'.TookSuccess ∧ ∃ res, c'.phase = .returned res := by
  cases moves_of_step stepped with
  | @takePrimary _ primary _ arrived next =>
      have success : primary.succeeded = true := by simpa [takesSuccess, arrived] using takes
      cases readsPrimary_of_onPrimary next with
      | won | settled => exact ⟨success, _, rfl⟩
      | failed _ failure | lost _ failure => cases success.symm.trans failure
  | _ => cases takes

theorem Idle.full_ack (idle : c.Idle) {res : ProduceResult} (returned : c.phase = .returned res) :
    (∀ tp ∈ c.cfg.requested, recordErrFromResult res tp = none) →
      res.succeeded = true ∧ c.metrics.NoFailures := by
  intro nil
  rcases idle.phase with ⟨fresh, -⟩ | ⟨answer, again, outcome⟩
  · cases fresh.symm.trans returned
  · obtain rfl := CallPhase.returned.inj (returned.symm.trans again)
    rcases outcome with ⟨-, success, quiet⟩ | ⟨some, err, rfl⟩
    · exact ⟨success, quiet⟩
    · obtain ⟨p, mem⟩ := List.exists_mem_of_ne_nil _ some
      have wanted : p.topicPartition ∈ c.cfg.requested := by
        simp only [HedgeConfig.requested, cfg, unrouteEncodedTopicPartitionRecords, List.map_map]
        exact List.mem_map_of_mem mem
      cases nil _ wanted

/-- A run ends so exactly when the cascade returned late in it and no success of the primary
was read. -/
theorem endsAfterLastAck_iff {start : HedgerCall} {actions : List CallAction} {res : ProduceResult}
    (kept : start.Inv ∧ start.Told) (fresh : start.phase = .start)
    (runs : Machine.run step start actions = some c) (some : c.routed ≠ [])
    (returned : c.phase = .returned res) :
    c.EndsAfterLastAck ↔
      Machine.along step (fun c action => !c.returnsLate action) start actions = false ∧
        Machine.along step (fun c action => !c.takesSuccess action) start actions = true := by
  have known := kept.1.phase
  simp only [PhaseOk, fresh] at known
  obtain ⟨unread, untaken, noCascade, -⟩ := known
  obtain ⟨inv, told⟩ := Machine.invariant_run_all _ told_step kept runs
  constructor
  · rintro ⟨cascade, fallback, err, found, took, nil, ended, surfaced, lost⟩
    constructor
    · by_contra timely
      rw [Bool.not_eq_false] at timely
      have onTime := (Machine.invariant_along (fun c => (c.Inv ∧ c.Told) ∧ c.OnTime) timely
        onTime_step ⟨kept, fun cascade _ found => by cases noCascade.symm.trans found⟩ runs).2
      obtain ⟨k, -, -, ran, finished, -⟩ := told.took fallback took
      obtain rfl := Option.some.inj (found.symm.trans ran)
      cases surfaced.symm.trans (onTime cascade fallback found finished nil (Or.inr took))
    · by_contra reads
      rw [Bool.not_eq_true] at reads
      obtain ⟨before, action, after, mid, next, -, -, takes, stepped, later⟩ :=
        Machine.exists_of_along_eq_false runs reads
      have success := (Machine.invariant_run_all _ tookSuccess_step
        (tookSuccess_of_takesSuccess (by simpa using takes) stepped) later).1
      cases lost.symm.trans success
  · rintro ⟨late, reads⟩
    obtain ⟨before, action, after, mid, next, -, reached, returns, stepped, later⟩ :=
      Machine.exists_of_along_eq_false runs late
    have both := Machine.invariant_run_all _ told_step kept reached
    obtain ⟨-, cascade, err, found, -, nil, ended, sent⟩ := Machine.invariant_run_all _ late_step
      ⟨inv_step mid action next both.1 stepped,
        late_of_returnsLate both.2 (by simpa using returns) stepped⟩ later
    have lost := Machine.invariant_along (fun c => ¬ c.TookSuccess) reads notTookSuccess_step
      (by simp [TookSuccess, unread]) runs
    rw [TookSuccess, Bool.not_eq_true] at lost
    have outcome := inv.phase
    simp only [PhaseOk, returned] at outcome
    obtain ⟨-, same⟩ := outcome.resolve_left fun empty => some empty.1
    -- without a success of the primary the call has read the cascade's result
    have took : c.tookFallback ≠ none := by
      intro none
      apply told.read res returned _ none
      rw [same, readSuccess, lost, none]
      rfl
    obtain ⟨fallback, took⟩ := Option.ne_none_iff_exists'.mp took
    exact ⟨cascade, fallback, err, found, took, nil, ended, sent fallback (Or.inr took), lost⟩

/-- The cascade of such a call never runs. -/
theorem Idle.along_timely {start : HedgerCall} {actions : List CallAction} (idle : start.Idle)
    (runs : Machine.run step start actions = some c) :
    Machine.along step (fun c action => !c.returnsLate action) start actions = true := by
  by_contra late
  rw [Bool.not_eq_true] at late
  obtain ⟨before, action, after, mid, next, -, reached, returns, stepped, -⟩ :=
    Machine.exists_of_along_eq_false runs late
  have still := Machine.invariant_run_all _ idle_step idle reached
  cases moves_of_step stepped with
  | cascadeReturns running => cases still.cascade.symm.trans running
  | _ => simp [returnsLate] at returns

end HedgerCall

/-- In every run of a call for distinct partitions, a result without an error for any of them
succeeds and no failure is counted, if and only if the cascade does not return with nothing
pending in a context that has ended, or the call reads a success of the primary. -/
theorem full_ack_succeeds_iff_not_returnsLate (maxHedgeAgents : Nat) (primaryID : Int)
    (candidates : TopicPartition → List Agent) (routed : List RoutedEncodedTopicPartitionRecords)
    (actions : List CallAction) (c : HedgerCall) (res : ProduceResult)
    (distinct : (routed.map fun p => p.topicPartition).Nodup)
    (runs : Machine.run HedgerCall.step { maxHedgeAgents, primaryID, candidates, routed } actions =
      some c)
    (returned : c.phase = .returned res) :
    ((∀ p ∈ routed, recordErrFromResult res p.topicPartition = none) →
        res.succeeded = true ∧ c.metrics.NoFailures) ↔
      Machine.along HedgerCall.step (fun c action => !c.returnsLate action)
          { maxHedgeAgents, primaryID, candidates, routed } actions = true ∨
        Machine.along HedgerCall.step (fun c action => !c.takesSuccess action)
          { maxHedgeAgents, primaryID, candidates, routed } actions = false := by
  have same : c.routed = routed :=
    Machine.invariant_run_all (fun c => c.routed = routed)
      (fun _ _ _ eq stepped => (HedgerCall.routed_step _ _ _ stepped).trans eq) rfl runs
  have requested : (∀ p ∈ routed, recordErrFromResult res p.topicPartition = none) ↔
      ∀ tp ∈ c.cfg.requested, recordErrFromResult res tp = none := by
    rw [HedgeConfig.requested, HedgerCall.cfg, same, unrouteEncodedTopicPartitionRecords,
      List.map_map, List.forall_mem_map]
    rfl
  rw [requested]
  by_cases works : routed ≠ [] ∧ ∀ p ∈ routed, p.nodeID = primaryID
  · obtain ⟨some, node⟩ := works
    have start : HedgerCall.Inv { maxHedgeAgents, primaryID, candidates, routed } ∧
        HedgerCall.Told { maxHedgeAgents, primaryID, candidates, routed } :=
      ⟨HedgerCall.inv_init distinct node, HedgerCall.told_init⟩
    obtain ⟨inv, told⟩ := Machine.invariant_run_all _ HedgerCall.told_step start runs
    have filled : c.routed ≠ [] := by rwa [same]
    rw [inv.full_ack_iff told filled returned,
      HedgerCall.endsAfterLastAck_iff start rfl runs filled returned, not_and_or,
      Bool.not_eq_false, Bool.not_eq_true]
  · have reason : routed = [] ∨ ∃ p ∈ routed, p.nodeID ≠ primaryID := by
      simpa only [ne_eq, not_and_or, not_not, not_forall, exists_prop] using works
    have start : HedgerCall.Idle { maxHedgeAgents, primaryID, candidates, routed } :=
      ⟨reason, rfl, rfl, rfl, Or.inl ⟨rfl, rfl, rfl⟩⟩
    have idle := Machine.invariant_run_all _ HedgerCall.idle_step start runs
    exact iff_of_true (idle.full_ack returned) (Or.inl (start.along_timely runs))

/-- The primary loses its connection, two other agents acknowledge a partition each, and the
deadline passes when the cascade has returned but the call has not read its result. -/
def bothAckedInTime : List CallAction :=
  let p := onlyPartition.toEncodedTopicPartitionRecords
  let q := otherPartition.toEncodedTopicPartitionRecords
  [.start {}, .primaryReturns { err := some connectionClosed }, .takePrimary false,
    .cascade (.wave [q, p] [⟨3, [q]⟩, ⟨2, [p]⟩]),
    .cascade (.legResult 1 { resp := some { topics := [⟨"t", 0, [⟨0, 0⟩]⟩] } }),
    .cascade (.legResult 0 { resp := some { topics := [⟨"t", 0, [⟨1, 0⟩]⟩] } }),
    .cascadeReturns ⟨[(⟨"t", 0⟩, ⟨0, 0⟩), (⟨"t", 1⟩, ⟨1, 0⟩)], []⟩ false,
    .ctxEnds GoError.contextDeadlineExceeded, .takeFallback true]

theorem full_ack_succeeds_iff_not_returnsLate_inTime :
    ∃ c res, Machine.run HedgerCall.step
        { maxHedgeAgents := 2, primaryID := 1, candidates := oneAlternate,
          routed := [onlyPartition, otherPartition] } bothAckedInTime = some c ∧
      c.phase = .returned res ∧
      (∀ p ∈ [onlyPartition, otherPartition], recordErrFromResult res p.topicPartition = none) ∧
      res.succeeded = true ∧ c.metrics.NoFailures := by
  have state : ((Machine.run HedgerCall.step
      { maxHedgeAgents := 2, primaryID := 1, candidates := oneAlternate,
        routed := [onlyPartition, otherPartition] } bothAckedInTime).bind fun c =>
          c.reports [⟨"t", 0⟩, ⟨"t", 1⟩]) = some [true, true] := by
    decide
  obtain ⟨c, runs, reports⟩ := Option.bind_eq_some_iff.mp state
  obtain ⟨res, returned, acked⟩ := HedgerCall.returned_of_reports reports
  have all : ∀ p ∈ [onlyPartition, otherPartition],
      recordErrFromResult res p.topicPartition = none := by
    simpa [onlyPartition, otherPartition, EncodedTopicPartitionRecords.topicPartition] using acked
  have property := (full_ack_succeeds_iff_not_returnsLate 2 1 oneAlternate
    [onlyPartition, otherPartition] bothAckedInTime c res (by decide) runs returned).mpr
      (Or.inl (by decide))
  exact ⟨c, res, runs, returned, all, property all⟩

/-- The primary loses its connection, the other agent acknowledges the partition, and the
deadline passes before the cascade reads the context. -/
def ackedThenDeadline : List CallAction :=
  let p := onlyPartition.toEncodedTopicPartitionRecords
  [.start {}, .primaryReturns { err := some connectionClosed }, .takePrimary false,
    .cascade (.wave [p] [⟨2, [p]⟩]),
    .cascade (.legResult 0 { resp := some { topics := [⟨"t", 0, [⟨0, 0⟩]⟩] } }),
    .ctxEnds GoError.contextDeadlineExceeded,
    .cascadeReturns ⟨[(⟨"t", 0⟩, ⟨0, 0⟩)], []⟩ false, .takeFallback false]

/-- The record is reported delivered, and the call fails with a write timeout. -/
theorem acked_call_counts_write_timeout :
    ∃ c res, Machine.run HedgerCall.step twoAgentCall ackedThenDeadline = some c ∧
      c.phase = .returned res ∧ (∀ p ∈ c.routed, recordErrFromResult res p.topicPartition = none) ∧
      res.succeeded = false ∧ c.metrics.attemptsFailure = [2] ∧
      c.metrics.produceRequestsFailed = [.writeTimeout] := by
  refine ⟨_, _, rfl, rfl, ?_, rfl, rfl, rfl⟩
  intro p mem
  rw [List.mem_singleton.mp mem]
  rfl

end Warpstream
