import Warpstream.HedgerOutcome

set_option autoImplicit false

/- `Hedger.ProduceSync` returns: every step of a call uses up some of a bound known when
the call starts, and a call that has not returned has a step to take, be it its own or
the answer of an agent. -/
namespace Warpstream

def CascadePhase.rank : CascadePhase → Nat
  | .top | .collecting => 3
  | .stopped _ => 2
  | .finished => 0

namespace Cascade

/-- An upper bound on the steps left: each wave has at most one leg a partition, and there
are at most `maxHedgeAgents - 1` waves. -/
def fuel (cfg : HedgeConfig) (c : Cascade) : Nat :=
  (cfg.maxHedgeAgents - c.attempts) * (cfg.partitions.length + 2) + c.waiting.length + c.phase.rank

theorem length_legs_le {cfg : HedgeConfig} {c : Cascade} (ok : c.Ok cfg)
    {order : List EncodedTopicPartitionRecords} {legs : List HedgeLeg}
    {tried : GoMap TopicPartition (List Int)} {chosen : List (Int × EncodedTopicPartitionRecords)}
    (pending : c.acc.Remaining order)
    (picked : pickCandidates cfg c.tried order = .ok (tried, chosen))
    (grouped : legs.Perm (groupLegs chosen)) : legs.length ≤ cfg.partitions.length := by
  have keys := ok.acc.remaining_keys pending
  have distinct := keys.nodup_iff.mpr c.acc.pending.keys_nodup
  have inside : order.map EncodedTopicPartitionRecords.topicPartition ⊆ cfg.requested :=
    fun tp mem => (ok.acc.covers tp).mpr (Or.inl (keys.mem_iff.mp mem))
  calc legs.length = (FirstSeen.groupBy Prod.fst chosen).length := by
        rw [grouped.length_eq, groupLegs, List.length_map]
    _ ≤ chosen.length := FirstSeen.length_groupBy_le _ _
    _ = order.length := by rw [← pickCandidates_parts picked, List.length_map]
    _ ≤ cfg.partitions.length := by
        simpa [HedgeConfig.requested] using (distinct.subperm inside).length_le

theorem Move.uses {cfg : HedgeConfig} {c c' : Cascade} (move : Move cfg c c') (ok : c.Ok cfg) :
    c'.fuel cfg < c.fuel cfg := by
  cases move with
  | stop exhaustion running =>
      have rank : c.phase.rank = 3 := by rcases running with here | here <;> rw [here] <;> rfl
      have after : (c.stop exhaustion).phase.rank = 2 := rfl
      have same : (c.stop exhaustion).attempts = c.attempts := rfl
      have waiting : (c.stop exhaustion).waiting = c.waiting := rfl
      rw [fuel, fuel, rank, after, same, waiting]
      omega
  | dispatch order legs tried chosen top pending some picked grouped =>
      have keys := ok.acc.remaining_keys pending
      have distinct := keys.nodup_iff.mpr c.acc.pending.keys_nodup
      have few := length_legs_le ok pending picked grouped
      -- the first partition of the wave shows that the budget allows it
      obtain ⟨p, mem⟩ := List.exists_mem_of_ne_nil _ some
      have waits := List.mem_map_of_mem (f := EncodedTopicPartitionRecords.topicPartition) mem
      have budget := (pickCandidates_tried distinct picked p.topicPartition).2 waits
      rw [ok.tried _ (keys.mem_iff.mp waits)] at budget
      have spent : cfg.maxHedgeAgents - c.attempts = cfg.maxHedgeAgents - (c.attempts + 1) + 1 := by
        omega
      simp only [fuel, Cascade.dispatch, top, CascadePhase.rank, spent, Nat.add_mul]
      omega
  | receive i leg res collecting found =>
      have bound : i < c.waiting.length := (List.getElem?_eq_some_iff.mp found).1
      have rank : (c.receive i leg res).phase.rank ≤ 3 := by
        generalize (c.receive i leg res).phase = phase
        cases phase <;> simp [CascadePhase.rank]
      have fewer : (c.receive i leg res).waiting.length = c.waiting.length - 1 := by
        rw [Cascade.receive, List.length_eraseIdx_of_lt bound]
      have same : (c.receive i leg res).attempts = c.attempts := rfl
      simp only [fuel, same, fewer, collecting, CascadePhase.rank] at rank ⊢
      omega

/-- A cascade in its loop can move, given the answers of its legs. -/
theorem exists_step {cfg : HedgeConfig} {c : Cascade} (ok : c.Ok cfg) (ctxErr : Option GoError)
    (running : c.phase = .top ∨ c.phase = .collecting) :
    ∃ action, (c.step cfg ctxErr action).isSome := by
  rcases running with top | collecting
  · by_cases live : ctxErr = none
    · have remaining : c.acc.Remaining (c.acc.pending.entries.map Sigma.snd) := List.Perm.refl _
      cases picked : pickCandidates cfg c.tried (c.acc.pending.entries.map Sigma.snd) with
      | error exhaustion =>
          refine ⟨.wave (c.acc.pending.entries.map Sigma.snd) [], ?_⟩
          simp only [step, top, live, remaining, and_self, ↓reduceIte, picked]
          split <;> rfl
      | ok choice =>
          refine ⟨.wave (c.acc.pending.entries.map Sigma.snd) (groupLegs choice.2), ?_⟩
          simp only [step, top, live, remaining, and_self, ↓reduceIte, picked, List.Perm.refl]
          split <;> rfl
    · exact ⟨.leaveLoop, by simp [step, top, live]⟩
  · obtain ⟨leg, rest, out⟩ := List.exists_cons_of_ne_nil (ok.busy collecting)
    exact ⟨.legResult 0 {}, by simp [step, collecting, out]⟩

end Cascade

def CallPhase.rank : CallPhase → Nat
  | .start => 1
  | _ => 0

/-- The context of the call ends, which no step of a call has to wait for. -/
def CallAction.endsCtx : CallAction → Bool
  | .ctxEnds _ => true
  | _ => false

namespace HedgerCall

def ctxFuel (c : HedgerCall) : Nat := if c.ctxErr.isNone then 1 else 0

def primaryFuel (c : HedgerCall) : Nat :=
  if c.primaryRaw.isNone then 2 else if c.primaryCh.isSome then 1 else 0

def cascadeFuel (c : HedgerCall) : Nat :=
  match c.cascade with
  | none => c.maxHedgeAgents * (c.cfg.partitions.length + 2) + 4
  | some cascade => cascade.fuel c.cfg

def fallbackFuel (c : HedgerCall) : Nat := if c.fallbackCh.isSome then 1 else 0

/-- An upper bound on the steps a call can still take. -/
def fuel (c : HedgerCall) : Nat :=
  c.phase.rank + c.ctxFuel + c.primaryFuel + c.cascadeFuel + c.fallbackFuel

variable {c c' : HedgerCall}

theorem fuel_setPhase {phase : CallPhase} (metrics : HedgerMetrics) (begun : phase.rank = 0) :
    fuel { c with phase := phase, metrics := metrics } ≤ c.fuel := by
  change phase.rank + c.ctxFuel + c.primaryFuel + c.cascadeFuel + c.fallbackFuel ≤ c.fuel
  rw [begun, fuel]
  omega

theorem fuel_startCascade (core : c.Core) (noCascade : c.cascade = none) (trigger : HedgeTrigger)
    {phase : CallPhase} (begun : phase.rank = 0) :
    fuel { c.startCascade trigger with phase := phase } < c.fuel := by
  obtain ⟨cascade, metrics, -, ⟨top, waiting⟩, eq⟩ := startCascade_eq core trigger
  have before : c.cascadeFuel = c.maxHedgeAgents * (c.cfg.partitions.length + 2) + 4 := by
    simp only [cascadeFuel, noCascade]
  have after : cascade.fuel c.cfg ≤ c.maxHedgeAgents * (c.cfg.partitions.length + 2) + 3 := by
    have budget : c.cfg.maxHedgeAgents - cascade.attempts ≤ c.maxHedgeAgents := Nat.sub_le _ _
    have waves := Nat.mul_le_mul_right (c.cfg.partitions.length + 2) budget
    simp only [Cascade.fuel, top, waiting, CascadePhase.rank, List.length_nil]
    omega
  rw [eq]
  change phase.rank + c.ctxFuel + c.primaryFuel + cascade.fuel c.cfg + c.fallbackFuel < c.fuel
  rw [begun, fuel, before]
  omega

theorem fuel_readPrimary (core : c.Core) {primary : ProduceResult}
    (arrived : c.primaryCh = some primary) : (c.readPrimary primary).fuel < c.fuel := by
  obtain ⟨raw, answered, -⟩ := core.primaryCh primary arrived
  have before : c.primaryFuel = 1 := by simp [primaryFuel, answered, arrived]
  have after : (c.readPrimary primary).primaryFuel = 0 := by
    simp [primaryFuel, readPrimary, answered]
  change c.phase.rank + c.ctxFuel + (c.readPrimary primary).primaryFuel + c.cascadeFuel +
    c.fallbackFuel < c.fuel
  rw [after, fuel, before]
  omega

theorem fuel_readFallback {fallback : HedgerProduceResult} (arrived : c.fallbackCh = some fallback) :
    (c.readFallback fallback).fuel < c.fuel := by
  have before : c.fallbackFuel = 1 := by simp [fallbackFuel, arrived]
  change c.phase.rank + c.ctxFuel + c.primaryFuel + c.cascadeFuel + 0 < c.fuel
  rw [fuel, before]
  omega

/-- Reading the cascade's answer changes the phase and the metrics. -/
theorem ReadsFallback.setsPhase {fallback : HedgerProduceResult} {deadlineReached : Bool}
    (read : c.ReadsFallback fallback deadlineReached c') :
    ∃ phase metrics, phase.rank = 0 ∧
      c' = { c.readFallback fallback with phase := phase, metrics := metrics } := by
  cases read with
  | @settled _ trigger =>
      obtain ⟨metrics, eq⟩ := observeHedgeWin_eq (c.readFallback fallback) trigger fallback
      rw [eq]
      exact ⟨_, _, rfl, rfl⟩
  | @won trigger =>
      obtain ⟨metrics, eq⟩ := observeHedgeWin_eq (c.readFallback fallback) trigger fallback
      rw [eq]
      exact ⟨_, _, rfl, rfl⟩
  | lost => exact ⟨_, c.metrics, rfl, rfl⟩

theorem fuel_begin (inv : c.Inv) (fresh : c.phase = .start) (decision : HedgeDecision) :
    (c.begin decision).fuel < c.fuel := by
  have known := inv.phase
  simp only [PhaseOk, fresh] at known
  have waits {phase : CallPhase} (metrics : HedgerMetrics) (begun : phase.rank = 0) :
      fuel { c with phase := phase, metrics := metrics } < c.fuel := by
    change phase.rank + c.ctxFuel + c.primaryFuel + c.cascadeFuel + c.fallbackFuel < c.fuel
    rw [begun, fuel, fresh]
    simp only [CallPhase.rank]
    omega
  unfold HedgerCall.begin
  split
  · exact waits c.metrics rfl
  · split
    · exact waits _ rfl
    · split
      · split
        · exact fuel_startCascade inv.core known.2.2.1 _ rfl
        · exact waits c.metrics rfl
      · exact waits c.metrics rfl

/-- Every step uses up fuel. -/
theorem fuel_step (c : HedgerCall) (action : CallAction) (c' : HedgerCall) (inv : c.Inv)
    (stepped : c.step action = some c') : c'.fuel < c.fuel := by
  cases moves_of_step stepped with
  | start fresh => exact fuel_begin inv fresh _
  | ctxEnds alive =>
      have before : c.ctxFuel = 1 := by simp [ctxFuel, alive]
      change c.phase.rank + 0 + c.primaryFuel + c.cascadeFuel + c.fallbackFuel < c.fuel
      rw [fuel, before]
      omega
  | primaryReturns runs =>
      have silent : c.primaryRaw.isNone = true := by
        unfold primaryRuns at runs
        split at runs
        · cases runs
        · exact runs
      have before : c.primaryFuel = 2 := by simp only [primaryFuel, silent, ↓reduceIte]
      change c.phase.rank + c.ctxFuel + 1 + c.cascadeFuel + c.fallbackFuel < c.fuel
      rw [fuel, before]
      omega
  | timerFires waits =>
      have known := inv.phase
      simp only [PhaseOk, waits] at known
      exact fuel_startCascade inv.core known.2.2.1 _ rfl
  | @cascade _ before after running moved =>
      have used := (Cascade.move_of_step moved).uses (inv.core.cascade before running)
      have was : c.cascadeFuel = before.fuel c.cfg := by simp only [cascadeFuel, running]
      change c.phase.rank + c.ctxFuel + c.primaryFuel + after.fuel c.cfg + c.fallbackFuel < c.fuel
      rw [fuel, was]
      omega
  | @cascadeReturns _ _ cascade _ running stopped =>
      have was : c.cascadeFuel = cascade.fuel c.cfg := by simp only [cascadeFuel, running]
      have used : Cascade.fuel c.cfg { cascade with phase := .finished } + 2 =
          cascade.fuel c.cfg := by
        simp only [Cascade.fuel, stopped, CascadePhase.rank]
      change c.phase.rank + c.ctxFuel + c.primaryFuel +
        Cascade.fuel c.cfg { cascade with phase := .finished } + 1 < c.fuel
      rw [fuel, was]
      omega
  | @takePrimary _ primary _ arrived next =>
      refine lt_of_le_of_lt ?_ (fuel_readPrimary inv.core arrived)
      cases readsPrimary_of_onPrimary next with
      | won => exact fuel_setPhase _ rfl
      | failed waits =>
          have noCascade := (inv.idle_of_waits waits).2.1
          exact (fuel_startCascade (inv.core.readPrimary primary) noCascade _ rfl).le
      | lost => exact fuel_setPhase c.metrics rfl
      | settled => exact fuel_setPhase _ rfl
  | takeFallback arrived next =>
      obtain ⟨phase, metrics, begun, rfl⟩ := (readsFallback_of_onFallback next).setsPhase
      exact lt_of_le_of_lt (fuel_setPhase metrics begun) (fuel_readFallback arrived)

/-- While the primary's answer is unread, it can arrive or be read. -/
theorem Inv.primary_steps (inv : c.Inv) (begun : c.phase.rank = 0) (unread : c.tookPrimary = none)
    (reads : ∀ primary, ((c.readPrimary primary).onPrimary primary false).isSome) :
    ∃ action, action.endsCtx = false ∧ (c.step action).isSome := by
  cases raw : c.primaryRaw with
  | none =>
      refine ⟨.primaryReturns {}, rfl, ?_⟩
      have runs : c.primaryRuns = true := by
        unfold primaryRuns
        split
        · rename_i here
          simp [here, CallPhase.rank] at begun
        · simp [raw]
      simp [step, runs]
  | some res =>
      have kept := inv.core.primaryKept (by simp [raw])
      simp only [unread, ne_eq, not_true_eq_false, or_false] at kept
      obtain ⟨primary, arrived⟩ := Option.ne_none_iff_exists'.mp kept
      exact ⟨.takePrimary false, rfl, by simpa [step, arrived] using reads primary⟩

/-- While the cascade's answer is unread, the cascade can go on or its answer be read. -/
theorem Inv.fallback_steps (inv : c.Inv) (started : c.cascade ≠ none)
    (unread : c.tookFallback = none)
    (reads : ∀ fallback, ((c.readFallback fallback).onFallback fallback false).isSome) :
    ∃ action, action.endsCtx = false ∧ (c.step action).isSome := by
  obtain ⟨cascade, running⟩ := Option.ne_none_iff_exists'.mp started
  have ok := inv.core.cascade cascade running
  have goesOn (loop : cascade.phase = .top ∨ cascade.phase = .collecting) :
      ∃ action, action.endsCtx = false ∧ (c.step action).isSome := by
    obtain ⟨action, moved⟩ := Cascade.exists_step ok c.ctxErr loop
    obtain ⟨after, eq⟩ := Option.isSome_iff_exists.mp moved
    exact ⟨.cascade action, rfl, by simp [step, running, eq]⟩
  cases phase : cascade.phase with
  | top => exact goesOn (Or.inl phase)
  | collecting => exact goesOn (Or.inr phase)
  | stopped exhaustion =>
      refine ⟨.cascadeReturns ⟨cascade.acc.resolved.entries.map fun e => (e.1, e.2),
        cascade.acc.pending.keys⟩ false, rfl, ?_⟩
      simp [step, running, phase, ProduceResultAccumulator.Orders]
  | finished =>
      have kept := inv.core.fallbackKept cascade running phase
      simp only [unread, ne_eq, not_true_eq_false, or_false] at kept
      obtain ⟨fallback, arrived⟩ := Option.ne_none_iff_exists'.mp kept
      exact ⟨.takeFallback false, rfl, by simpa [step, arrived] using reads fallback⟩

/-- A call that has not returned can take a step, and need not wait for its context. -/
theorem Inv.exists_work (inv : c.Inv) (unreturned : ∀ res, c.phase ≠ .returned res) :
    ∃ action, action.endsCtx = false ∧ (c.step action).isSome := by
  have known := inv.phase
  unfold PhaseOk at known
  cases here : c.phase with
  | start => exact ⟨.start {}, rfl, by simp [step, here]⟩
  | waitPrimary | waitPrimaryOrTimer =>
      simp only [here] at known
      refine inv.primary_steps (by rw [here]; rfl) known.1 fun primary => ?_
      have phase : (c.readPrimary primary).phase = c.phase := rfl
      simp only [HedgerCall.onPrimary, phase, here]
      split <;> rfl
  | afterPrimary primary | primaryLost primary =>
      simp only [here] at known
      refine inv.fallback_steps known.2.2.1 known.2.1 fun fallback => ?_
      have phase : (c.readFallback fallback).phase = c.phase := rfl
      simp [HedgerCall.onFallback, phase, here]
  | racing trigger =>
      simp only [here] at known
      refine inv.primary_steps (by rw [here]; rfl) known.1 fun primary => ?_
      have phase : (c.readPrimary primary).phase = c.phase := rfl
      simp only [HedgerCall.onPrimary, phase, here]
      split <;> rfl
  | fallbackLost fallback =>
      simp only [here] at known
      refine inv.primary_steps (by rw [here]; rfl) known.1 fun primary => ?_
      have phase : (c.readPrimary primary).phase = c.phase := rfl
      simp [HedgerCall.onPrimary, phase, here]
  | returned res => exact absurd here (unreturned res)

theorem Inv.exists_step (inv : c.Inv) (unreturned : ∀ res, c.phase ≠ .returned res) :
    ∃ action, (c.step action).isSome := by
  obtain ⟨action, -, stepped⟩ := inv.exists_work unreturned
  exact ⟨action, stepped⟩

theorem routed_startCascade (trigger : HedgeTrigger) :
    (c.startCascade trigger).routed = c.routed := by
  unfold startCascade
  simp only
  split <;> rfl

theorem routed_begin (decision : HedgeDecision) : (c.begin decision).routed = c.routed := by
  unfold HedgerCall.begin
  split
  · rfl
  · split
    · rfl
    · split
      · split
        · exact routed_startCascade _
        · rfl
      · rfl

theorem routed_step (c : HedgerCall) (action : CallAction) (c' : HedgerCall)
    (stepped : c.step action = some c') : c'.routed = c.routed := by
  cases moves_of_step stepped with
  | start => exact routed_begin _
  | ctxEnds | primaryReturns | cascade | cascadeReturns => rfl
  | timerFires => exact routed_startCascade _
  | takePrimary _ next =>
      cases readsPrimary_of_onPrimary next with
      | won | lost | settled => rfl
      | failed => exact routed_startCascade _
  | takeFallback _ next =>
      obtain ⟨phase, metrics, -, rfl⟩ := (readsFallback_of_onFallback next).setsPhase
      rfl

/-- The primary's agent, or a leg whose result was read, acknowledged `tp`. -/
def Acked (c : HedgerCall) (tp : TopicPartition) : Prop :=
  (∃ raw resp e, c.primaryRaw = some raw ∧ raw.resp = some resp ∧ (tp, e) ∈ resp.entries ∧
      e.errorCode = 0) ∨
    ∃ cascade leg, c.cascade = some cascade ∧ leg ∈ cascade.received ∧ leg.Acks tp

/-- What a returned result says: an entry for every requested partition, an error for
every one nobody acknowledged, and success exactly when something the call read
succeeded. A call without partitions reads nothing. -/
structure Answers (c : HedgerCall) (res : ProduceResult) : Prop where
  complete : ∃ resp, res.resp = some resp ∧ ∀ tp ∈ c.cfg.requested, tp ∈ resp.entries.map Prod.fst
  acked : ∀ tp ∈ c.cfg.requested, recordErrFromResult res tp = none → c.Acked tp
  succeeded : c.routed ≠ [] → res.succeeded = c.readSuccess

theorem Inv.answers (inv : c.Inv) {res : ProduceResult} (returned : c.phase = .returned res) :
    c.Answers res := by
  have known := inv.phase
  simp only [PhaseOk, returned] at known
  rcases known with ⟨empty, rfl⟩ | ⟨source, same⟩
  · have none : c.cfg.requested = [] := by
      simp [HedgeConfig.requested, cfg, unrouteEncodedTopicPartitionRecords, empty]
    exact ⟨⟨_, rfl, by simp [none]⟩, by simp [none], fun some => absurd empty some⟩
  rcases source with ⟨⟨raw, answered, rfl⟩, success⟩ | ⟨cascade, orders, ran, -, ordered, present⟩
  · obtain ⟨eq, resp, present, zero, covered⟩ := withCoverageCheck_succeeded success
    rw [eq] at same ⊢
    have covers : ∀ tp ∈ c.cfg.requested, tp ∈ resp.entries.map Prod.fst := by
      intro tp wanted
      obtain ⟨p, mem, rfl⟩ := List.mem_map.mp wanted
      exact covered p mem
    refine ⟨⟨resp, present, covers⟩, fun tp wanted _ => Or.inl ?_, fun _ => same⟩
    obtain ⟨⟨key, e⟩, entry, rfl⟩ := List.mem_map.mp (covers tp wanted)
    exact ⟨raw, resp, e, answered, present, entry, zero _ entry⟩
  · have ok := (inv.core.cascade cascade ran).acc
    refine ⟨⟨_, present, fun tp wanted => ?_⟩, fun tp wanted clean => Or.inr ?_, fun _ => same⟩
    · have entry := (ok.mem_response ordered (tp, cascade.acc.outcome tp)).mpr ⟨wanted, rfl⟩
      exact List.mem_map.mpr ⟨_, entry, rfl⟩
    · have resolved := (ok.recordErr_eq_none ordered present wanted).mp clean
      obtain ⟨e, found⟩ := Option.isSome_iff_exists.mp (AList.lookup_isSome.mpr resolved)
      obtain ⟨-, -, leg, read, acks⟩ := ok.resolvedOk tp e found
      exact ⟨cascade, leg, ran, read, acks⟩

theorem inv_run {maxHedgeAgents : Nat} {primaryID : Int} {candidates : TopicPartition → List Agent}
    {routed : List RoutedEncodedTopicPartitionRecords} {actions : List CallAction}
    (distinct : (routed.map fun p => p.topicPartition).Nodup)
    (node : ∀ p ∈ routed, p.nodeID = primaryID)
    (runs : Machine.run step { maxHedgeAgents, primaryID, candidates, routed } actions = some c) :
    c.Inv ∧ c.routed = routed :=
  ⟨Machine.invariant_run_all _ inv_step (inv_init distinct node) runs,
    Machine.invariant_run_all (fun c => c.routed = routed)
      (fun _ _ _ eq stepped => (routed_step _ _ _ stepped).trans eq) rfl runs⟩

end HedgerCall

def onlyPartition : RoutedEncodedTopicPartitionRecords := ⟨⟨"t", 0, [], {}⟩, 1, .healthy⟩

def otherPartition : RoutedEncodedTopicPartitionRecords := ⟨⟨"t", 1, [], {}⟩, 1, .healthy⟩

/-- Every partition has one agent beside the primary. -/
def oneAlternate (tp : TopicPartition) : List Agent := [⟨tp.partition + 2, .healthy⟩]

/-- What a call that has returned reports for the partitions. -/
def HedgerCall.reports (c : HedgerCall) (partitions : List TopicPartition) : Option (List Bool) :=
  match c.phase with
  | .returned res => some (partitions.map fun tp => (recordErrFromResult res tp).isNone)
  | _ => none

theorem HedgerCall.returned_of_reports {c : HedgerCall} {partitions : List TopicPartition}
    {acked : List Bool} (reports : c.reports partitions = some acked) :
    ∃ res, c.phase = .returned res ∧
      (partitions.map fun tp => (recordErrFromResult res tp).isNone) = acked := by
  unfold HedgerCall.reports at reports
  split at reports
  · exact ⟨_, ‹_›, Option.some.inj reports⟩
  · cases reports

end Warpstream
