import Warpstream.HedgeAccounting

set_option autoImplicit false

/- In a race the cascade runs in a goroutine of its own, and it counts its trigger when it
begins. That may be late: after the primary's result has been read, or after the call has
returned. Seen with its cascade begun, such a call takes the steps of a `HedgerCall`. -/
namespace Warpstream

/-- A call, with the trigger of a goroutine that has not begun. -/
structure RacedCall where
  call : HedgerCall
  spawned : Option HedgeTrigger := none

inductive RaceAction where
  | call (action : CallAction)
  | cascadeBegins

/-- A phase of a call that waits for its cascade, or has returned. -/
def CallPhase.Raced (phase : CallPhase) (trigger : HedgeTrigger) : Prop :=
  phase = .racing trigger ∨ (∃ primary, phase = .primaryLost primary trigger) ∨
    ∃ res, phase = .returned res

namespace RacedCall

/-- `runHedgingAttemptsAndRaceWithPrimary` starts its goroutine. -/
def spawn (c : HedgerCall) (trigger : HedgeTrigger) : RacedCall :=
  { call := { c with phase := .racing trigger }, spawned := some trigger }

/-- The start of a call. Its cascade is left to the goroutine. -/
def begin (c : HedgerCall) (decision : HedgeDecision) : RacedCall :=
  match (c.begin decision).phase with
  | .racing trigger => spawn c trigger
  | _ => { call := c.begin decision }

def step (r : RacedCall) : RaceAction → Option RacedCall
  | .cascadeBegins => r.spawned.map fun trigger => { call := r.call.startCascade trigger }
  | .call (.start decision) =>
      match r.call.phase with
      | .start => some (begin r.call decision)
      | _ => none
  | .call .timerFires =>
      match r.call.phase with
      | .waitPrimaryOrTimer => some (spawn r.call .latency)
      | _ => none
  | .call action => (r.call.step action).map fun c => { r with call := c }

/-- The ways through `step`. -/
inductive Moves (r : RacedCall) : RaceAction → RacedCall → Prop where
  | cascadeBegins {trigger : HedgeTrigger} (spawned : r.spawned = some trigger) :
      Moves r .cascadeBegins { call := r.call.startCascade trigger }
  | start {decision : HedgeDecision} (fresh : r.call.phase = .start) :
      Moves r (.call (.start decision)) (begin r.call decision)
  | timerFires (waits : r.call.phase = .waitPrimaryOrTimer) :
      Moves r (.call .timerFires) (spawn r.call .latency)
  | call {action : CallAction} {c : HedgerCall} (moved : r.call.step action = some c)
      (notStart : ∀ decision, action ≠ .start decision) (notTimer : action ≠ .timerFires) :
      Moves r (.call action) { r with call := c }

theorem moves_of_step {r r' : RacedCall} {action : RaceAction}
    (stepped : r.step action = some r') : r.Moves action r' := by
  cases action with
  | cascadeBegins =>
      obtain ⟨trigger, spawned, rfl⟩ := Option.map_eq_some_iff.mp stepped
      exact .cascadeBegins spawned
  | call action =>
      cases action with
      | start decision =>
          simp only [step] at stepped
          split at stepped
          · obtain rfl := Option.some.inj stepped
            exact .start ‹_›
          · cases stepped
      | timerFires =>
          simp only [step] at stepped
          split at stepped
          · obtain rfl := Option.some.inj stepped
            exact .timerFires ‹_›
          · cases stepped
      | ctxEnds | primaryReturns | cascade | cascadeReturns | takePrimary | takeFallback =>
          obtain ⟨c, moved, rfl⟩ := Option.map_eq_some_iff.mp stepped
          exact .call moved (by simp) (by simp)

/-- The call as if its goroutine had begun. -/
def seen (r : RacedCall) : HedgerCall :=
  match r.spawned with
  | some trigger => r.call.startCascade trigger
  | none => r.call

/-- Nothing of the cascade is there before its goroutine begins. -/
structure Waits (r : RacedCall) (trigger : HedgeTrigger) : Prop where
  phase : r.call.phase.Raced trigger
  cascade : r.call.cascade = none
  fallbackCh : r.call.fallbackCh = none
  tookFallback : r.call.tookFallback = none

structure Kept (r : RacedCall) : Prop where
  inv : r.seen.Inv
  waits : ∀ trigger, r.spawned = some trigger → r.Waits trigger

variable {r r' : RacedCall} {c c' : HedgerCall} {trigger : HedgeTrigger}

section Commutes

/-- The start of the cascade reads what the call is about and writes the cascade's own fields
and its trigger. Everything else the call does may come before or after it. -/
theorem startCascade_setPhase (c : HedgerCall) (trigger : HedgeTrigger) (phase : CallPhase) :
    HedgerCall.startCascade { c with phase := phase } trigger =
      { c.startCascade trigger with phase := phase } := by
  simp only [HedgerCall.startCascade, HedgerCall.cfg]
  split <;> rfl

theorem startCascade_ctxEnds (c : HedgerCall) (trigger : HedgeTrigger) (err : GoError) :
    HedgerCall.startCascade { c with ctxErr := some err } trigger =
      { c.startCascade trigger with ctxErr := some err } := by
  simp only [HedgerCall.startCascade, HedgerCall.cfg]
  split <;> rfl

theorem startCascade_primaryReturns (c : HedgerCall) (trigger : HedgeTrigger)
    (raw res : ProduceResult) :
    HedgerCall.startCascade { c with primaryRaw := some raw, primaryCh := some res } trigger =
      { c.startCascade trigger with primaryRaw := some raw, primaryCh := some res } := by
  simp only [HedgerCall.startCascade, HedgerCall.cfg]
  split <;> rfl

theorem startCascade_readPrimary (c : HedgerCall) (trigger : HedgeTrigger)
    (primary : ProduceResult) :
    (c.readPrimary primary).startCascade trigger =
      (c.startCascade trigger).readPrimary primary := by
  simp only [HedgerCall.startCascade, HedgerCall.cfg, HedgerCall.readPrimary]
  split <;> rfl

theorem startCascade_finish (c : HedgerCall) (trigger : HedgeTrigger) (res : ProduceResult)
    (attempts : Nat) (stop : ProduceStop) :
    (c.finish res attempts stop).startCascade trigger =
      (c.startCascade trigger).finish res attempts stop := by
  simp only [HedgerCall.startCascade, HedgerCall.cfg, HedgerCall.finish,
    HedgerMetrics.observeAttempts]
  split <;> split <;> rfl

/-- What the start of the cascade leaves alone. -/
theorem startCascade_fields (c : HedgerCall) (trigger : HedgeTrigger) :
    (c.startCascade trigger).phase = c.phase ∧ (c.startCascade trigger).ctxErr = c.ctxErr ∧
      (c.startCascade trigger).primaryRaw = c.primaryRaw ∧
      (c.startCascade trigger).primaryCh = c.primaryCh ∧
      (c.startCascade trigger).tookFallback = c.tookFallback ∧
      (c.startCascade trigger).cfg = c.cfg := by
  simp only [HedgerCall.startCascade, HedgerCall.cfg]
  split <;> exact ⟨rfl, rfl, rfl, rfl, rfl, rfl⟩

end Commutes

theorem begin_of_racing {decision : HedgeDecision}
    (racing : (c.begin decision).phase = .racing trigger) :
    c.begin decision = { c.startCascade trigger with phase := .racing trigger } := by
  unfold HedgerCall.begin at racing ⊢
  split at racing
  · cases racing
  · split at racing
    · cases racing
    · split at racing
      · split at racing
        · obtain rfl := CallPhase.racing.inj racing
          simp only [*]
          rfl
        · cases racing
      · cases racing

theorem seen_spawn (c : HedgerCall) (trigger : HedgeTrigger) :
    (spawn c trigger).seen = { c.startCascade trigger with phase := .racing trigger } :=
  startCascade_setPhase c trigger (.racing trigger)

theorem seen_begin (c : HedgerCall) (decision : HedgeDecision) :
    (begin c decision).seen = c.begin decision := by
  unfold begin
  split
  · rename_i trigger racing
    rw [seen_spawn, begin_of_racing racing]
  · rfl

theorem begin_of_spawned {decision : HedgeDecision}
    (spawned : (begin c decision).spawned = some trigger) : begin c decision = spawn c trigger := by
  unfold begin at spawned ⊢
  cases phase : (c.begin decision).phase with
  | racing other =>
      rw [phase] at spawned
      obtain rfl : other = trigger := Option.some.inj spawned
      rfl
  | start | waitPrimary | waitPrimaryOrTimer | afterPrimary | primaryLost | fallbackLost | returned =>
      rw [phase] at spawned
      cases spawned

/-- A call whose goroutine has not begun reads the primary's result. -/
theorem onPrimary_of_waits {primary : ProduceResult} {deadlineReached : Bool}
    (raced : c.phase.Raced trigger)
    (next : (c.readPrimary primary).onPrimary primary deadlineReached = some c') :
    ((c.startCascade trigger).readPrimary primary).onPrimary primary deadlineReached =
        some (c'.startCascade trigger) ∧
      c'.phase.Raced trigger ∧ c'.cascade = c.cascade ∧ c'.fallbackCh = c.fallbackCh ∧
      c'.tookFallback = c.tookFallback := by
  have phase : ((c.startCascade trigger).readPrimary primary).phase = c.phase :=
    (startCascade_fields c trigger).1
  have phase' : (c.readPrimary primary).phase = c.phase := rfl
  unfold HedgerCall.onPrimary at next ⊢
  rw [phase]
  rw [phase'] at next
  rcases raced with racing | ⟨other, lost⟩ | ⟨res, returned⟩
  · rw [racing] at next ⊢
    dsimp only at next ⊢
    split at next
    · rename_i success
      obtain rfl := Option.some.inj next
      rw [if_pos success, startCascade_finish, startCascade_readPrimary]
      exact ⟨rfl, Or.inr (Or.inr ⟨primary, rfl⟩), rfl, rfl, rfl⟩
    · rename_i failed
      obtain rfl := Option.some.inj next
      have lost := startCascade_setPhase (c.readPrimary primary) trigger
        (.primaryLost primary trigger)
      rw [if_neg failed, lost, startCascade_readPrimary]
      exact ⟨rfl, Or.inr (Or.inl ⟨primary, rfl⟩), rfl, rfl, rfl⟩
  · rw [lost] at next
    cases next
  · rw [returned] at next
    cases next

/-- A step of the call while its goroutine has not begun, and the same step with its cascade
begun. -/
theorem step_of_waits (waits : r.Waits trigger) {action : CallAction}
    (stepped : r.call.step action = some c') (notStart : ∀ decision, action ≠ .start decision)
    (notTimer : action ≠ .timerFires) :
    (r.call.startCascade trigger).step action = some (c'.startCascade trigger) ∧
      Waits { r with call := c' } trigger := by
  obtain ⟨phase, ctxErr, raw, ch, -, cfg⟩ := startCascade_fields r.call trigger
  cases HedgerCall.moves_of_step stepped with
  | start => exact absurd rfl (notStart _)
  | timerFires => exact absurd rfl notTimer
  | @ctxEnds err alive =>
      refine ⟨?_, waits.phase, waits.cascade, waits.fallbackCh, waits.tookFallback⟩
      rw [startCascade_ctxEnds]
      simp only [HedgerCall.step, ctxErr, alive, ↓reduceIte]
  | @primaryReturns res runs =>
      refine ⟨?_, waits.phase, waits.cascade, waits.fallbackCh, waits.tookFallback⟩
      have runs' : (r.call.startCascade trigger).primaryRuns = true := by
        unfold HedgerCall.primaryRuns at runs ⊢
        rwa [phase, raw]
      rw [startCascade_primaryReturns]
      simp only [HedgerCall.step, runs', ↓reduceIte, cfg]
  | cascade running => cases waits.cascade.symm.trans running
  | cascadeReturns running => cases waits.cascade.symm.trans running
  | @takePrimary deadlineReached primary _ arrived next =>
      obtain ⟨same, raced, cascade, fallbackCh, took⟩ := onPrimary_of_waits waits.phase next
      refine ⟨?_, raced, cascade.trans waits.cascade, fallbackCh.trans waits.fallbackCh,
        took.trans waits.tookFallback⟩
      simp only [HedgerCall.step, ch, arrived, Option.bind_eq_bind, Option.bind_some]
      exact same
  | takeFallback arrived => cases waits.fallbackCh.symm.trans arrived

/-- Before its race a call has no cascade. -/
theorem Kept.spawned_eq_none (kept : r.Kept)
    (early : r.call.phase = .start ∨ r.call.phase = .waitPrimaryOrTimer) : r.spawned = none := by
  cases spawned : r.spawned with
  | none => rfl
  | some trigger =>
      rcases (kept.waits trigger spawned).phase with racing | ⟨primary, lost⟩ | ⟨res, returned⟩ <;>
        rcases early with here | here
      · cases here.symm.trans racing
      · cases here.symm.trans racing
      · cases here.symm.trans lost
      · cases here.symm.trans lost
      · cases here.symm.trans returned
      · cases here.symm.trans returned

theorem Kept.waits_spawn (kept : r.Kept)
    (early : r.call.phase = .start ∨ r.call.phase = .waitPrimaryOrTimer) (trigger : HedgeTrigger) :
    (spawn r.call trigger).Waits trigger := by
  have known := kept.inv.phase
  unfold seen at known
  rw [kept.spawned_eq_none early] at known
  have none : r.call.tookPrimary = none ∧ r.call.tookFallback = none ∧ r.call.cascade = none ∧
      r.call.fallbackCh = none := by
    rcases early with here | here
    · simpa only [HedgerCall.PhaseOk, here] using known
    · simpa only [HedgerCall.PhaseOk, here] using known
  exact ⟨Or.inl rfl, none.2.2.1, none.2.2.2, none.2.1⟩

/-- A step is a step of the call as it is seen, or the goroutine's beginning. -/
theorem step_seen (r : RacedCall) (action : RaceAction) (r' : RacedCall) (kept : r.Kept)
    (stepped : r.step action = some r') :
    (r'.seen = r.seen ∨ ∃ b, r.seen.step b = some r'.seen) ∧
      ∀ trigger, r'.spawned = some trigger → r'.Waits trigger := by
  cases moves_of_step stepped with
  | cascadeBegins spawned =>
      refine ⟨Or.inl ?_, ?_⟩
      · unfold seen
        rw [spawned]
      · intro other found
        cases found
  | @start decision fresh =>
      have seen_eq : r.seen = r.call := by
        unfold seen
        rw [kept.spawned_eq_none (Or.inl fresh)]
      refine ⟨Or.inr ⟨.start decision, ?_⟩, ?_⟩
      · rw [seen_eq, seen_begin]
        simp only [HedgerCall.step, fresh]
      · intro trigger spawned
        rw [begin_of_spawned spawned]
        exact kept.waits_spawn (Or.inl fresh) trigger
  | timerFires waits =>
      have seen_eq : r.seen = r.call := by
        unfold seen
        rw [kept.spawned_eq_none (Or.inr waits)]
      refine ⟨Or.inr ⟨.timerFires, ?_⟩, ?_⟩
      · rw [seen_eq, seen_spawn]
        simp only [HedgerCall.step, waits]
      · intro trigger spawned
        obtain rfl := Option.some.inj spawned
        exact kept.waits_spawn (Or.inr waits) .latency
  | @call action c moved notStart notTimer =>
      cases spawned : r.spawned with
      | none =>
          refine ⟨Or.inr ⟨action, ?_⟩, ?_⟩
          · unfold seen
            simp only [spawned]
            exact moved
          · intro trigger found
            cases found
      | some trigger =>
          obtain ⟨same, waits⟩ := step_of_waits (kept.waits trigger spawned) moved notStart notTimer
          refine ⟨Or.inr ⟨action, ?_⟩, ?_⟩
          · unfold seen
            simp only [spawned]
            exact same
          · intro other found
            obtain rfl := Option.some.inj found
            exact ⟨waits.phase, waits.cascade, waits.fallbackCh, waits.tookFallback⟩

theorem kept_step (r : RacedCall) (action : RaceAction) (r' : RacedCall) (kept : r.Kept)
    (stepped : r.step action = some r') : r'.Kept := by
  obtain ⟨seen, waits⟩ := step_seen r action r' kept stepped
  refine ⟨?_, waits⟩
  rcases seen with same | ⟨b, moved⟩
  · rw [same]
    exact kept.inv
  · exact HedgerCall.inv_step _ b _ kept.inv moved

theorem triggers_step {action : RaceAction} (stepped : r.step action = some r') :
    r.call.metrics.hedgeTriggers <+: r'.call.metrics.hedgeTriggers := by
  cases moves_of_step stepped with
  | cascadeBegins => exact HedgerCall.triggers_startCascade r.call _
  | @start decision =>
      unfold begin
      split
      · exact List.prefix_refl _
      · exact HedgerCall.triggers_begin r.call decision
  | timerFires => exact List.prefix_refl _
  | call moved => exact HedgerCall.triggers_step moved

/-- What the call has counted once its goroutine has begun, without the trigger. -/
theorem Waits.accounted (waits : r.Waits trigger)
    (begun : (r.call.startCascade trigger).Accounted) : r.call.Accounted := by
  obtain ⟨phase, ctxErr, -, -, took, cfg⟩ := startCascade_fields r.call trigger
  have metrics := HedgerCall.metrics_startCascade (c := r.call) trigger
  have agents : (r.call.startCascade trigger).maxHedgeAgents = r.call.maxHedgeAgents :=
    congrArg HedgeConfig.maxHedgeAgents cfg
  have canceled : (r.call.startCascade trigger).canceled = r.call.canceled := by
    unfold HedgerCall.canceled
    rw [ctxErr]
  refine ⟨?_, ?_, ?_, ?_, ?_⟩
  · have counted := begun.trigger
    rw [metrics, List.length_append, List.length_singleton] at counted
    rw [if_pos waits.cascade]
    split at counted <;> omega
  · intro running
    have none := begun.unreturned (by rwa [phase])
    rw [metrics] at none
    exact ⟨⟨none.1.success, none.1.failure, none.1.reasons⟩, none.2⟩
  · intro fallback found
    cases waits.tookFallback.symm.trans found
  · intro res returned
    rcases begun.wins res (phase.trans returned) with ⟨fallback, -, read, -⟩ | ⟨-, none⟩
    · cases waits.tookFallback.symm.trans (took.symm.trans read)
    · right
      rw [metrics] at none
      refine ⟨?_, none⟩
      intro fallback found
      cases waits.tookFallback.symm.trans found
  · intro res returned
    have observed := begun.observed res (phase.trans returned)
    rw [metrics, agents, canceled] at observed
    exact ⟨observed.depth, observed.success, observed.failure⟩

theorem Kept.accounted (kept : r.Kept) (begun : r.seen.Accounted) : r.call.Accounted := by
  unfold seen at begun
  cases spawned : r.spawned with
  | none =>
      rw [spawned] at begun
      exact begun
  | some trigger =>
      rw [spawned] at begun
      exact (kept.waits trigger spawned).accounted begun

end RacedCall

section Runs

variable (cfg : HedgerConfig) {primaryID : Int} (candidates : TopicPartition → List Agent)
  {routed : List RoutedEncodedTopicPartitionRecords} {actions : List RaceAction} {r : RacedCall}

/-- A call of `ProduceSync`, before it begins. -/
def RacedCall.new (cfg : HedgerConfig) (primaryID : Int) (candidates : TopicPartition → List Agent)
    (routed : List RoutedEncodedTopicPartitionRecords) : RacedCall :=
  { call := { maxHedgeAgents := cfg.maxHedgeAgents, primaryID, candidates, routed } }

theorem RacedCall.accounted_run (distinct : (routed.map fun p => p.topicPartition).Nodup)
    (node : ∀ p ∈ routed, p.nodeID = primaryID) (filled : routed ≠ [])
    (runs : Machine.run RacedCall.step (.new cfg primaryID candidates routed) actions = some r) :
    r.call.Accounted := by
  have fresh : (RacedCall.new cfg primaryID candidates routed).Kept :=
    ⟨HedgerCall.inv_init distinct node, fun trigger spawned => by cases spawned⟩
  have kept := Machine.invariant_run_all _ RacedCall.kept_step fresh runs
  obtain ⟨seen, ran⟩ := Machine.run_of_simulates RacedCall.Kept RacedCall.seen RacedCall.kept_step
    (fun r action r' kept stepped => (RacedCall.step_seen r action r' kept stepped).1) fresh runs
  obtain ⟨-, books⟩ := Machine.invariant_run_all _ HedgerCall.books_step
    ⟨HedgerCall.inv_init distinct node, HedgerCall.books_init cfg.agents⟩ ran
  obtain ⟨-, told⟩ := Machine.invariant_run_all _ HedgerCall.told_step
    ⟨HedgerCall.inv_init distinct node, HedgerCall.told_init⟩ ran
  have same : r.seen.routed = routed :=
    Machine.invariant_run_all (fun c => c.routed = routed)
      (fun _ _ _ eq stepped => (HedgerCall.routed_step _ _ _ stepped).trans eq) rfl ran
  exact kept.accounted (books.accounted told (by rwa [same]))

end Runs

/-- In every run of a call with partitions the counters match what it returned. A cascade that
has begun stays the only one. -/
theorem hedge_accounting_matches_result (cfg : HedgerConfig) {primaryID : Int}
    (candidates : TopicPartition → List Agent) {routed : List RoutedEncodedTopicPartitionRecords}
    (distinct : (routed.map fun p => p.topicPartition).Nodup)
    (node : ∀ p ∈ routed, p.nodeID = primaryID) (filled : routed ≠ []) (actions : List RaceAction)
    {r : RacedCall}
    (runs : Machine.run RacedCall.step (.new cfg primaryID candidates routed) actions = some r) :
    r.call.Accounted ∧
      ∀ before after mid, actions = before ++ after →
        Machine.run RacedCall.step (.new cfg primaryID candidates routed) before = some mid →
        mid.call.cascade ≠ none → r.call.cascade ≠ none ∧
          r.call.metrics.hedgeTriggers = mid.call.metrics.hedgeTriggers := by
  have accounted := RacedCall.accounted_run cfg candidates distinct node filled runs
  refine ⟨accounted, ?_⟩
  rintro before after mid rfl reached begun
  obtain ⟨again, reached', later⟩ := Machine.run_append_eq_some.mp runs
  obtain rfl := Option.some.inj (reached.symm.trans reached')
  have grown : mid.call.metrics.hedgeTriggers <+: r.call.metrics.hedgeTriggers :=
    Machine.invariant_run_all
      (fun r => mid.call.metrics.hedgeTriggers <+: r.call.metrics.hedgeTriggers)
      (fun _ _ _ before stepped => before.trans (RacedCall.triggers_step stepped))
      (List.prefix_refl _) later
  have one := (RacedCall.accounted_run cfg candidates distinct node filled reached).trigger
  rw [if_neg begun] at one
  have most := accounted.trigger
  have least := grown.length_le
  by_cases none : r.call.cascade = none
  · rw [if_pos none] at most
    omega
  · rw [if_neg none] at most
    exact ⟨none, (grown.eq_of_length (by omega)).symm⟩

/-- The primary succeeds before the goroutine of the cascade begins: the trigger is counted, a
win is not. -/
theorem hedge_accounting_matches_result_late :
    let p := onlyPartition.toEncodedTopicPartitionRecords
    let acks : Kmsg.ProduceResponse := { topics := [⟨"t", 0, [⟨0, 0⟩]⟩] }
    let actions : List RaceAction :=
      [.call (.start { eligible := true }), .call (.primaryReturns { resp := some acks }),
        .call (.takePrimary false), .cascadeBegins, .call (.cascade (.wave [p] [⟨2, [p]⟩]))]
    ∃ r, Machine.run RacedCall.step
        (.new ⟨0, 2, by decide⟩ 1 (fun _ => [⟨2, .healthy⟩]) [onlyPartition]) actions = some r ∧
      r.call.Accounted ∧ r.call.metrics.hedgeTriggers = [.latency] ∧
      r.call.metrics.hedgeTriggerWins = [] ∧ r.call.metrics.attemptsSuccess = [1] := by
  intro p acks actions
  have distinct : ([onlyPartition].map fun p => p.topicPartition).Nodup := by simp
  have node : ∀ p ∈ [onlyPartition], p.nodeID = 1 := by simp [onlyPartition]
  refine ⟨_, rfl, ?_, rfl, rfl, rfl⟩
  exact (hedge_accounting_matches_result ⟨0, 2, by decide⟩ (fun _ => [⟨2, .healthy⟩]) distinct node
    (by simp) actions rfl).1

/-- A call without partitions returns a success and observes no depth. -/
theorem empty_call_observes_nothing :
    ∃ r res, Machine.run RacedCall.step (.new ⟨0, 2, by decide⟩ 1 (fun _ => []) [])
        [.call (.start {})] = some r ∧
      r.call.phase = .returned res ∧ res.succeeded = true ∧ r.call.metrics.attemptsSuccess = [] ∧
      r.call.metrics.attemptsFailure = [] ∧ ¬ r.call.Accounted := by
  refine ⟨_, _, rfl, rfl, rfl, rfl, rfl, ?_⟩
  intro accounted
  obtain ⟨depth, -, -, observed, -⟩ := (accounted.observed _ rfl).depth
  cases observed

end Warpstream
