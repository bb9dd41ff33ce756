import Warpstream.Hedger

set_option autoImplicit false

/- The result of `Hedger.ProduceSync`: complete, without false acknowledgements, and
successful exactly when an attempt it read was. -/
namespace Warpstream

theorem pickCandidates_parts {cfg : HedgeConfig} {tried tried' : GoMap TopicPartition (List Int)}
    {order : List EncodedTopicPartitionRecords}
    {chosen : List (Int × EncodedTopicPartitionRecords)}
    (picked : pickCandidates cfg tried order = .ok (tried', chosen)) :
    chosen.map Prod.snd = order := by
  induction order generalizing tried chosen with
  | nil =>
      obtain ⟨-, rfl⟩ := Prod.mk.inj (Except.ok.inj picked)
      rfl
  | cons p rest ih =>
      simp only [pickCandidates, bind, Except.bind] at picked
      split at picked
      · cases picked
      · split at picked
        · cases picked
        · rename_i next _ pair later
          obtain ⟨last, others⟩ := pair
          obtain ⟨rfl, rfl⟩ := Prod.mk.inj (Except.ok.inj picked)
          rw [List.map_cons, ih later]

/-- A choice leaves room for the first partition's next agent, and every partition of the
wave has tried one agent more. -/
theorem pickCandidates_tried {cfg : HedgeConfig} {tried tried' : GoMap TopicPartition (List Int)}
    {order : List EncodedTopicPartitionRecords}
    {chosen : List (Int × EncodedTopicPartitionRecords)}
    (distinct : (order.map EncodedTopicPartitionRecords.topicPartition).Nodup)
    (picked : pickCandidates cfg tried order = .ok (tried', chosen)) (tp : TopicPartition) :
    ((tried'.lookup tp).getD []).length = ((tried.lookup tp).getD []).length +
        (if tp ∈ order.map EncodedTopicPartitionRecords.topicPartition then 1 else 0) ∧
      (tp ∈ order.map EncodedTopicPartitionRecords.topicPartition →
        ((tried.lookup tp).getD []).length < cfg.maxHedgeAgents) := by
  induction order generalizing tried chosen with
  | nil =>
      obtain ⟨rfl, -⟩ := Prod.mk.inj (Except.ok.inj picked)
      simp
  | cons p rest ih =>
      obtain ⟨fresh, later⟩ := List.nodup_cons.mp distinct
      simp only [pickCandidates, bind, Except.bind] at picked
      split at picked
      · cases picked
      · rename_i next found
        have room : ((tried.lookup p.topicPartition).getD []).length < cfg.maxHedgeAgents := by
          unfold nextCandidate at found
          split at found
          · cases found
          · omega
        split at picked
        · cases picked
        · rename_i pair tail
          obtain ⟨last, others⟩ := pair
          obtain ⟨rfl, rfl⟩ := Prod.mk.inj (Except.ok.inj picked)
          obtain ⟨grown, small⟩ := ih later tail
          by_cases same : tp = p.topicPartition
          · subst same
            rw [AList.lookup_insert] at grown
            refine ⟨?_, fun _ => room⟩
            rw [grown, if_neg fresh, if_pos (by simp)]
            simp
          · rw [AList.lookup_insert_ne same] at grown small
            simp only [List.map_cons, List.mem_cons, same, false_or]
            exact ⟨grown, small⟩

theorem mem_chosen_of_groupLegs {chosen : List (Int × EncodedTopicPartitionRecords)}
    {leg : HedgeLeg} (mem : leg ∈ groupLegs chosen) :
    ∀ p ∈ leg.parts, (leg.agent, p) ∈ chosen := by
  obtain ⟨⟨agent, members⟩, group, rfl⟩ := List.mem_map.mp mem
  intro p inside
  obtain ⟨⟨agent', q⟩, member, rfl⟩ := List.mem_map.mp inside
  rw [(FirstSeen.groups_groupBy Prod.fst chosen).members agent members group,
    List.mem_filter] at member
  have same : agent' = agent := of_decide_eq_true member.2
  exact same ▸ member.1

/-- The partitions of a wave's legs are pending. -/
theorem pending_of_wave {cfg : HedgeConfig} {c : Cascade} {order : List EncodedTopicPartitionRecords}
    {tried : GoMap TopicPartition (List Int)} {chosen : List (Int × EncodedTopicPartitionRecords)}
    {legs : List HedgeLeg} (pending : c.acc.Remaining order)
    (picked : pickCandidates cfg c.tried order = .ok (tried, chosen))
    (grouped : legs.Perm (groupLegs chosen)) :
    ∀ leg ∈ legs, ∀ p ∈ leg.parts, ∃ tp, c.acc.pending.lookup tp = some p := by
  intro leg mem p part
  have chose := mem_chosen_of_groupLegs (grouped.mem_iff.mp mem) p part
  have ordered : p ∈ order := by
    rw [← pickCandidates_parts picked]
    exact List.mem_map.mpr ⟨_, chose, rfl⟩
  obtain ⟨entry, inside, rfl⟩ := List.mem_map.mp (pending.mem_iff.mp ordered)
  exact ⟨entry.1, AList.mem_lookup_iff.mpr inside⟩

theorem groupLegs_eq_nil {chosen : List (Int × EncodedTopicPartitionRecords)}
    (none : groupLegs chosen = []) : chosen = [] := by
  have noGroups := List.map_eq_nil_iff.mp none
  by_contra some
  obtain ⟨first, mem⟩ := List.exists_mem_of_ne_nil _ some
  have covered := (FirstSeen.groups_groupBy Prod.fst chosen).covers first mem
  simp [noGroups] at covered

namespace Cascade

/-- The three things a step of a cascade can do. -/
inductive Move (cfg : HedgeConfig) (c : Cascade) : Cascade → Prop where
  | stop (exhaustion : ProduceStop) (running : c.phase = .top ∨ c.phase = .collecting) :
      Move cfg c (c.stop exhaustion)
  | dispatch (order : List EncodedTopicPartitionRecords) (legs : List HedgeLeg)
      (tried : GoMap TopicPartition (List Int)) (chosen : List (Int × EncodedTopicPartitionRecords))
      (top : c.phase = .top) (pending : c.acc.Remaining order)
      (some : order ≠ []) (picked : pickCandidates cfg c.tried order = .ok (tried, chosen))
      (grouped : legs.Perm (groupLegs chosen)) : Move cfg c (c.dispatch tried legs)
  | receive (i : Nat) (leg : HedgeLeg) (res : ProduceResult) (collecting : c.phase = .collecting)
      (found : c.waiting[i]? = some leg) : Move cfg c (c.receive i leg res)

theorem move_of_step {cfg : HedgeConfig} {ctxErr : Option GoError} {c c' : Cascade}
    {action : CascadeAction} (stepped : c.step cfg ctxErr action = some c') : Move cfg c c' := by
  cases action with
  | wave order legs =>
      simp only [step] at stepped
      split at stepped
      · rename_i enabled
        split at stepped
        · obtain rfl := Option.some.inj stepped
          exact .stop _ (Or.inl enabled.1)
        · split at stepped
          · obtain rfl := Option.some.inj stepped
            exact .stop _ (Or.inl enabled.1)
          · split at stepped
            · obtain rfl := Option.some.inj stepped
              exact .dispatch order legs _ _ enabled.1 enabled.2.2 ‹_› ‹_› ‹_›
            · cases stepped
      · cases stepped
  | legResult i res =>
      simp only [step] at stepped
      split at stepped
      · obtain ⟨leg, found, rfl⟩ := Option.map_eq_some_iff.mp stepped
        exact .receive i leg res ‹_› found
      · cases stepped
  | ctxDone =>
      simp only [step] at stepped
      split at stepped
      · rename_i enabled
        obtain rfl := Option.some.inj stepped
        exact .stop _ (Or.inr enabled.1)
      · cases stepped
  | leaveLoop =>
      simp only [step] at stepped
      split at stepped
      · rename_i enabled
        obtain rfl := Option.some.inj stepped
        exact .stop _ (Or.inl enabled.1)
      · cases stepped

theorem Move.unfinished {cfg : HedgeConfig} {c c' : Cascade} (move : Move cfg c c') :
    c.phase ≠ .finished ∧ c'.phase ≠ .finished := by
  cases move with
  | stop exhaustion running => rcases running with here | here <;> simp [here, Cascade.stop]
  | dispatch order legs tried chosen top => simp [top, Cascade.dispatch]
  | receive i leg res collecting =>
      refine ⟨by simp [collecting], ?_⟩
      simp only [Cascade.receive]
      split
      · simp
      · split <;> simp

/-- What holds of a running cascade: its accumulator accounts for the results read, its
legs carry requested partitions only, every pending partition was in every wave, and a wave
is collected only while a leg is out. -/
structure Ok (cfg : HedgeConfig) (c : Cascade) : Prop where
  acc : c.acc.Ok cfg.requested c.received
  legs : ∀ leg ∈ c.waiting, ∀ tp ∈ leg.own, tp ∈ cfg.requested
  tried : ∀ tp ∈ c.acc.pending, ((c.tried.lookup tp).getD []).length = c.attempts
  busy : c.phase = .collecting → c.waiting ≠ []

theorem lookup_primaryTried (cfg : HedgeConfig) {tp : TopicPartition} (mem : tp ∈ cfg.requested) :
    (primaryTried cfg).lookup tp = some [cfg.primaryID] := by
  have fold (rest : List EncodedTopicPartitionRecords) (tried : GoMap TopicPartition (List Int))
      (known : tp ∈ rest.map EncodedTopicPartitionRecords.topicPartition ∨
        tried.lookup tp = some [cfg.primaryID]) :
      (rest.foldl (fun tried p => tried.insert p.topicPartition [cfg.primaryID]) tried).lookup tp =
        some [cfg.primaryID] := by
    induction rest generalizing tried with
    | nil => simpa using known
    | cons p rest ih =>
        refine ih _ ?_
        by_cases same : tp = p.topicPartition
        · exact Or.inr (same ▸ AList.lookup_insert _)
        · rw [AList.lookup_insert_ne same]
          simpa [same] using known
  exact fold cfg.partitions ∅ (Or.inl mem)

theorem ok_start {cfg : HedgeConfig} (distinct : cfg.requested.Nodup) :
    ∃ c, Cascade.start cfg = .ok c ∧ c.Ok cfg ∧ c.phase = .top ∧ c.waiting = [] := by
  obtain ⟨acc, made, ok⟩ := ProduceResultAccumulator.exists_newProduceResultAccumulator distinct
  refine ⟨{ acc := acc, tried := primaryTried cfg }, ?_, ⟨ok, by simp, ?_, by simp⟩, rfl, rfl⟩
  · rw [Cascade.start, made]
    rfl
  · intro tp pending
    rw [lookup_primaryTried cfg ((ok.covers tp).mpr (Or.inl pending))]
    rfl

/-- A partition that a wave carries is pending. -/
theorem Ok.pending_of_leg {cfg : HedgeConfig} {c : Cascade} (ok : c.Ok cfg)
    {order : List EncodedTopicPartitionRecords} {tried : GoMap TopicPartition (List Int)}
    {chosen : List (Int × EncodedTopicPartitionRecords)}
    (pending : c.acc.Remaining order)
    (picked : pickCandidates cfg c.tried order = .ok (tried, chosen)) {leg : HedgeLeg}
    (mem : leg ∈ groupLegs chosen) {tp : TopicPartition} (sent : tp ∈ leg.own) :
    tp ∈ c.acc.pending := by
  obtain ⟨p, part, rfl⟩ := List.mem_map.mp sent
  have ordered : p ∈ order := by
    rw [← pickCandidates_parts picked]
    exact List.mem_map.mpr ⟨_, mem_chosen_of_groupLegs mem p part, rfl⟩
  exact (ok.acc.remaining_keys pending).mem_iff.mp (List.mem_map_of_mem ordered)

theorem Ok.step {cfg : HedgeConfig} {c c' : Cascade} (ok : c.Ok cfg) (move : Move cfg c c') :
    c'.Ok cfg := by
  cases move with
  | stop => exact ⟨ok.acc, ok.legs, ok.tried, by simp [Cascade.stop]⟩
  | dispatch order legs tried chosen top pending some picked grouped =>
      have keys := ok.acc.remaining_keys pending
      have distinct := keys.nodup_iff.mpr c.acc.pending.keys_nodup
      refine ⟨ok.acc, ?_, ?_, ?_⟩
      · intro leg mem tp sent
        have waits := ok.pending_of_leg pending picked (grouped.mem_iff.mp mem) sent
        exact (ok.acc.covers tp).mpr (Or.inl waits)
      · intro tp waits
        have inside := keys.mem_iff.mpr waits
        rw [Cascade.dispatch, (pickCandidates_tried distinct picked tp).1, ok.tried tp waits,
          if_pos inside]
      · intro _ none
        obtain rfl : legs = [] := none
        have noLegs : groupLegs chosen = [] := grouped.nil_eq.symm
        have parts := pickCandidates_parts picked
        rw [groupLegs_eq_nil noLegs] at parts
        exact some parts.symm
  | receive i leg res collecting found =>
      refine ⟨ok.acc.accumulate ⟨leg.own, res⟩ (ok.legs leg (List.mem_of_getElem? found)),
        fun other mem => ok.legs other (List.mem_of_mem_eraseIdx mem), ?_, ?_⟩
      · intro tp waits
        obtain ⟨p, found⟩ := Option.isSome_iff_exists.mp (AList.lookup_isSome.mpr waits)
        have before := ProduceResultAccumulator.lookup_pending_of_accumulate ⟨leg.own, res⟩ found
        exact ok.tried tp (AList.lookup_isSome.mp (Option.isSome_iff_exists.mpr ⟨p, before⟩))
      · intro stillCollecting none
        simp only [Cascade.receive] at stillCollecting none
        rw [if_pos none] at stillCollecting
        split at stillCollecting <;> cases stillCollecting

end Cascade

/-- With a fallback that has a response, a selection the primary did not win has that
response. -/
theorem selectProduceResult_resp {primary fallback : ProduceResult} {resp : Kmsg.ProduceResponse}
    (lost : primary.succeeded = false) (present : fallback.resp = some resp) :
    (selectProduceResult primary fallback).resp = some resp := by
  unfold selectProduceResult
  simp only [lost, Bool.false_eq_true, ↓reduceIte, present]
  split
  · exact present
  · split
    · rfl
    · simpa using present

namespace HedgerCall

/-- A result that is the coverage-checked answer of the primary's agent. -/
def FromPrimary (c : HedgerCall) (res : ProduceResult) : Prop :=
  ∃ raw, c.primaryRaw = some raw ∧ res = withCoverageCheck raw c.cfg.partitions

/-- A result whose response is the merged response of the cascade, which has ended. -/
def FromCascade (c : HedgerCall) (res : ProduceResult) : Prop :=
  ∃ cascade orders, c.cascade = some cascade ∧ cascade.phase = .finished ∧
    cascade.acc.Orders orders ∧ res.resp = some (cascade.acc.responseLocked orders)

/-- One of the results the call read is a success. -/
def readSuccess (c : HedgerCall) : Bool :=
  (c.tookPrimary.map ProduceResult.succeeded).getD false ||
    (c.tookFallback.map fun fallback => fallback.result.succeeded).getD false

/-- What is known in each phase. -/
def PhaseOk (c : HedgerCall) : Prop :=
  match c.phase with
  | .start | .waitPrimary | .waitPrimaryOrTimer =>
      c.tookPrimary = none ∧ c.tookFallback = none ∧ c.cascade = none ∧ c.fallbackCh = none
  | .afterPrimary primary | .primaryLost primary _ =>
      c.tookPrimary = some primary ∧ c.tookFallback = none ∧ c.cascade ≠ none ∧
        primary.succeeded = false
  | .racing _ => c.tookPrimary = none ∧ c.tookFallback = none ∧ c.cascade ≠ none
  | .fallbackLost fallback =>
      c.tookPrimary = none ∧ c.tookFallback = some fallback ∧ c.FromCascade fallback.result
  | .returned res =>
      (c.routed = [] ∧ res = { resp := some {} }) ∨
        (((c.FromPrimary res ∧ res.succeeded = true) ∨ c.FromCascade res) ∧
          res.succeeded = c.readSuccess)

/-- What holds in every phase: the channels carry the answers of the two sides, and no
answer is lost. -/
structure Core (c : HedgerCall) : Prop where
  distinct : c.cfg.requested.Nodup
  routed : ∀ p ∈ c.routed, p.nodeID = c.primaryID
  cascade : ∀ cascade, c.cascade = some cascade → cascade.Ok c.cfg
  primaryCh : ∀ res, c.primaryCh = some res → c.FromPrimary res
  fallbackCh : ∀ fallback, c.fallbackCh = some fallback → c.FromCascade fallback.result
  primaryKept : c.primaryRaw ≠ none → c.primaryCh ≠ none ∨ c.tookPrimary ≠ none
  fallbackKept : ∀ cascade, c.cascade = some cascade → cascade.phase = .finished →
    c.fallbackCh ≠ none ∨ c.tookFallback ≠ none

/-- What every step of a call keeps. -/
structure Inv (c : HedgerCall) : Prop where
  core : c.Core
  phase : c.PhaseOk

variable {c c' : HedgerCall}

theorem inv_init {maxHedgeAgents : Nat} {primaryID : Int} {candidates : TopicPartition → List Agent}
    {routed : List RoutedEncodedTopicPartitionRecords}
    (distinct : (routed.map fun p => p.topicPartition).Nodup)
    (node : ∀ p ∈ routed, p.nodeID = primaryID) :
    Inv { maxHedgeAgents, primaryID, candidates, routed } := by
  refine ⟨⟨?_, node, by simp, by simp, by simp, by simp, by simp⟩, ⟨rfl, rfl, rfl, rfl⟩⟩
  rw [HedgeConfig.requested, cfg, unrouteEncodedTopicPartitionRecords, List.map_map]
  exact distinct

theorem Core.setPhase (core : c.Core) (phase : CallPhase) (metrics : HedgerMetrics) :
    Core { c with phase := phase, metrics := metrics } :=
  ⟨core.distinct, core.routed, core.cascade, core.primaryCh, core.fallbackCh, core.primaryKept,
    core.fallbackKept⟩

theorem Core.readPrimary (core : c.Core) (primary : ProduceResult) : (c.readPrimary primary).Core :=
  ⟨core.distinct, core.routed, core.cascade, fun _ found => (by cases found), core.fallbackCh,
    fun _ => Or.inr (Option.some_ne_none primary), core.fallbackKept⟩

theorem Core.readFallback (core : c.Core) (fallback : HedgerProduceResult) :
    (c.readFallback fallback).Core :=
  ⟨core.distinct, core.routed, core.cascade, core.primaryCh, fun _ found => (by cases found),
    core.primaryKept, fun _ _ _ => Or.inr (Option.some_ne_none fallback)⟩

/-- Distinct partitions start a cascade; nothing else of the call changes. -/
theorem startCascade_eq (core : c.Core) (trigger : HedgeTrigger) :
    ∃ cascade metrics, cascade.Ok c.cfg ∧ (cascade.phase = .top ∧ cascade.waiting = []) ∧
      c.startCascade trigger = { c with cascade := some cascade, metrics := metrics } := by
  obtain ⟨cascade, started, ok, fresh⟩ := Cascade.ok_start core.distinct
  refine ⟨cascade, { c.metrics with hedgeTriggers := c.metrics.hedgeTriggers ++ [trigger] }, ok,
    fresh, ?_⟩
  have same : Cascade.start { c with metrics := { c.metrics with
      hedgeTriggers := c.metrics.hedgeTriggers ++ [trigger] } }.cfg = .ok cascade := started
  simp only [startCascade, same]

/-- Starting the cascade where there is none yet. -/
theorem Inv.startCascade (core : c.Core) (noFallback : c.fallbackCh = none)
    (trigger : HedgeTrigger) (phase : CallPhase)
    (ok : ∀ cascade metrics,
      PhaseOk { c with cascade := some cascade, metrics := metrics, phase := phase }) :
    Inv { c.startCascade trigger with phase := phase } := by
  obtain ⟨cascade, metrics, held, ⟨top, -⟩, eq⟩ := startCascade_eq core trigger
  rw [eq]
  refine ⟨⟨core.distinct, core.routed, ?_, core.primaryCh, ?_, core.primaryKept, ?_⟩,
    ok cascade metrics⟩
  · intro k found
    obtain rfl := Option.some.inj found
    exact held
  · intro fallback found
    cases noFallback.symm.trans found
  · intro k found finished
    obtain rfl := Option.some.inj found
    cases top.symm.trans finished

/-- Returning a result that satisfies the phase condition. -/
theorem Inv.finish (core : c.Core) {res : ProduceResult} (attempts : Nat) (stop : ProduceStop)
    (source : (c.FromPrimary res ∧ res.succeeded = true) ∨ c.FromCascade res)
    (succeeded : res.succeeded = c.readSuccess) : (c.finish res attempts stop).Inv :=
  ⟨core.setPhase _ _, Or.inr ⟨source, succeeded⟩⟩

/-- The records of a call are all routed to its primary agent. -/
theorem Core.notMisrouted (core : c.Core) :
    c.routed.find? (fun p => p.nodeID ≠ c.primaryID) = none := by
  rw [List.find?_eq_none]
  intro p mem
  simpa using core.routed p mem

theorem Inv.begin (inv : c.Inv) (fresh : c.phase = .start) (decision : HedgeDecision) :
    (c.begin decision).Inv := by
  have known := inv.phase
  simp only [PhaseOk, fresh] at known
  obtain ⟨noPrimary, noTook, noCascade, noFallback⟩ := known
  unfold HedgerCall.begin
  split
  · rename_i empty
    exact ⟨inv.core.setPhase _ _, Or.inl ⟨empty, rfl⟩⟩
  · rw [inv.core.notMisrouted]
    simp only
    split
    · split
      · exact Inv.startCascade inv.core noFallback _ _ fun cascade _ =>
          ⟨noPrimary, noTook, Option.some_ne_none cascade⟩
      · exact ⟨inv.core.setPhase _ _, noPrimary, noTook, noCascade, noFallback⟩
    · exact ⟨inv.core.setPhase _ _, noPrimary, noTook, noCascade, noFallback⟩

/-- Before the first attempt has answered there is no cascade. -/
theorem Inv.idle_of_waits (inv : c.Inv)
    (waits : c.phase = .waitPrimary ∨ c.phase = .waitPrimaryOrTimer) :
    c.tookFallback = none ∧ c.cascade = none ∧ c.fallbackCh = none := by
  have known := inv.phase
  rcases waits with here | here <;>
  · simp only [PhaseOk, here] at known
    exact known.2

theorem Inv.unread_of_waits (inv : c.Inv)
    (waits : c.phase = .waitPrimary ∨ c.phase = .waitPrimaryOrTimer ∨
      ∃ trigger, c.phase = .racing trigger) : c.tookFallback = none := by
  have known := inv.phase
  rcases waits with here | here | ⟨trigger, here⟩ <;>
  · simp only [PhaseOk, here] at known
    exact known.2.1

theorem Inv.readsPrimary (inv : c.Inv) {primary : ProduceResult} {deadlineReached : Bool}
    (arrived : c.primaryCh = some primary) (read : c.ReadsPrimary primary deadlineReached c') :
    c'.Inv := by
  have source : (c.readPrimary primary).FromPrimary primary := inv.core.primaryCh primary arrived
  have core := inv.core.readPrimary primary
  have known := inv.phase
  cases read with
  | won waits success =>
      refine Inv.finish core _ _ (Or.inl ⟨source, success⟩) ?_
      simp [readSuccess, HedgerCall.readPrimary, inv.unread_of_waits waits]
  | failed waits failure =>
      obtain ⟨unread, -, noFallback⟩ := inv.idle_of_waits waits
      exact Inv.startCascade core noFallback _ _ fun cascade _ =>
        ⟨rfl, unread, Option.some_ne_none cascade, failure⟩
  | lost racing failure =>
      simp only [PhaseOk, racing] at known
      exact ⟨core.setPhase _ _, rfl, known.2.1, known.2.2, failure⟩
  | @settled fallback waits =>
      simp only [PhaseOk, waits] at known
      obtain ⟨-, took, cascade⟩ := known
      refine Inv.finish core _ _ ?_ ?_
      · cases success : primary.succeeded with
        | true =>
            have chosen : selectProduceResult primary fallback.result = primary := by
              simp [selectProduceResult, success]
            rw [chosen]
            exact Or.inl ⟨source, success⟩
        | false =>
            obtain ⟨k, orders, found, finished, ordered, resp⟩ := cascade
            exact Or.inr ⟨k, orders, found, finished, ordered,
              selectProduceResult_resp success resp⟩
      · rw [selectProduceResult_succeeded]
        simp [readSuccess, HedgerCall.readPrimary, took]

/-- Counting a win touches the metrics only. -/
theorem observeHedgeWin_eq (c : HedgerCall) (trigger : HedgeTrigger)
    (fallback : HedgerProduceResult) :
    ∃ metrics, c.observeHedgeWin trigger fallback = { c with metrics := metrics } := by
  unfold observeHedgeWin
  split
  · exact ⟨_, rfl⟩
  · exact ⟨c.metrics, rfl⟩

/-- A call that waits for its cascade has read a failure of the primary. -/
theorem Inv.lost_of_waits (inv : c.Inv) {primary : ProduceResult} {trigger : HedgeTrigger}
    (waits : (c.phase = .afterPrimary primary ∧ trigger = .primaryFailure) ∨
      c.phase = .primaryLost primary trigger) :
    c.tookPrimary = some primary ∧ primary.succeeded = false := by
  have known := inv.phase
  rcases waits with ⟨here, -⟩ | here <;>
  · simp only [PhaseOk, here] at known
    exact ⟨known.1, known.2.2.2⟩

theorem Inv.readsFallback (inv : c.Inv) {fallback : HedgerProduceResult} {deadlineReached : Bool}
    (arrived : c.fallbackCh = some fallback)
    (read : c.ReadsFallback fallback deadlineReached c') : c'.Inv := by
  have source : (c.readFallback fallback).FromCascade fallback.result :=
    inv.core.fallbackCh fallback arrived
  have core := inv.core.readFallback fallback
  have known := inv.phase
  cases read with
  | @settled primary trigger waits =>
      obtain ⟨took, lost⟩ := inv.lost_of_waits waits
      obtain ⟨metrics, eq⟩ := observeHedgeWin_eq (c.readFallback fallback) trigger fallback
      rw [eq]
      refine Inv.finish (core.setPhase _ _) _ _ (Or.inr ?_) ?_
      · obtain ⟨k, orders, found, finished, ordered, resp⟩ := source
        exact ⟨k, orders, found, finished, ordered, selectProduceResult_resp lost resp⟩
      · rw [selectProduceResult_succeeded]
        simp [readSuccess, HedgerCall.readFallback, took]
  | @won trigger racing success =>
      obtain ⟨metrics, eq⟩ := observeHedgeWin_eq (c.readFallback fallback) trigger fallback
      rw [eq]
      refine Inv.finish (core.setPhase _ _) _ _ (Or.inr source) ?_
      simp [readSuccess, HedgerCall.readFallback, success]
  | lost racing failure =>
      simp only [PhaseOk, racing] at known
      exact ⟨core.setPhase _ _, known.1, rfl, source⟩

/-- A cascade that still runs has answered nobody. -/
theorem not_fromCascade {cascade : Cascade} (running : c.cascade = some cascade)
    (unfinished : cascade.phase ≠ .finished) (res : ProduceResult) : ¬ c.FromCascade res := by
  rintro ⟨k, orders, found, finished, -⟩
  obtain rfl := Option.some.inj (running.symm.trans found)
  exact unfinished finished

/-- A step of a cascade that has not ended, and what it leaves in the channel. -/
theorem Inv.cascade (inv : c.Inv) {before : Cascade} (after : Cascade)
    (ch : Option HedgerProduceResult)
    (running : c.cascade = some before) (ok : after.Ok c.cfg)
    (unfinished : before.phase ≠ .finished)
    (sent : ∀ fallback, ch = some fallback →
      FromCascade { c with cascade := some after, fallbackCh := ch } fallback.result)
    (kept : after.phase = .finished → ch ≠ none) :
    Inv { c with cascade := some after, fallbackCh := ch } := by
  have none := not_fromCascade running unfinished
  refine ⟨⟨inv.core.distinct, inv.core.routed, ?_, inv.core.primaryCh, sent,
    inv.core.primaryKept, ?_⟩, ?_⟩
  · intro k found
    obtain rfl := Option.some.inj found
    exact ok
  · intro k found finished
    obtain rfl := Option.some.inj found
    exact Or.inl (kept finished)
  · have known := inv.phase
    unfold PhaseOk at known ⊢
    cases here : c.phase with
    | start | waitPrimary | waitPrimaryOrTimer =>
        simp only [here] at known
        cases running.symm.trans known.2.2.1
    | afterPrimary | primaryLost =>
        simp only [here] at known ⊢
        exact ⟨known.1, known.2.1, Option.some_ne_none after, known.2.2.2⟩
    | racing =>
        simp only [here] at known ⊢
        exact ⟨known.1, known.2.1, Option.some_ne_none after⟩
    | fallbackLost fallback =>
        simp only [here] at known
        exact absurd known.2.2 (none _)
    | returned res =>
        simp only [here] at known ⊢
        rcases known with empty | ⟨primary | cascade, same⟩
        · exact Or.inl empty
        · exact Or.inr ⟨Or.inl primary, same⟩
        · exact absurd cascade (none _)

/-- The primary answers once: before, no result came from it. -/
theorem Inv.primaryReturns (inv : c.Inv) (runs : c.primaryRuns = true) (res : ProduceResult) :
    Inv { c with
      primaryRaw := some res
      primaryCh := some (withCoverageCheck res c.cfg.partitions) } := by
  refine ⟨⟨inv.core.distinct, inv.core.routed, inv.core.cascade, ?_, inv.core.fallbackCh,
    fun _ => Or.inl (Option.some_ne_none _), inv.core.fallbackKept⟩, ?_⟩
  · intro answer found
    exact ⟨res, rfl, (Option.some.inj found).symm⟩
  · have known := inv.phase
    unfold PhaseOk at known ⊢
    cases here : c.phase with
    | start | waitPrimary | waitPrimaryOrTimer | afterPrimary | primaryLost | racing
    | fallbackLost =>
        simp only [here] at known ⊢
        exact known
    | returned answer =>
        simp only [here] at known ⊢
        rcases known with empty | ⟨⟨⟨raw, answered, -⟩, -⟩ | cascade, same⟩
        · exact Or.inl empty
        · simp [primaryRuns, here, answered] at runs
        · exact Or.inr ⟨Or.inr cascade, same⟩

theorem inv_step (c : HedgerCall) (action : CallAction) (c' : HedgerCall) (inv : c.Inv)
    (stepped : c.step action = some c') : c'.Inv := by
  cases moves_of_step stepped with
  | start fresh => exact inv.begin fresh _
  | ctxEnds =>
      exact ⟨⟨inv.core.distinct, inv.core.routed, inv.core.cascade, inv.core.primaryCh,
        inv.core.fallbackCh, inv.core.primaryKept, inv.core.fallbackKept⟩, inv.phase⟩
  | primaryReturns runs => exact inv.primaryReturns runs _
  | timerFires waits =>
      have known := inv.phase
      simp only [PhaseOk, waits] at known
      exact Inv.startCascade inv.core known.2.2.2 _ _ fun cascade _ =>
        ⟨known.1, known.2.1, Option.some_ne_none cascade⟩
  | @cascade _ before after running moved =>
      have move := Cascade.move_of_step moved
      obtain ⟨running', running''⟩ := move.unfinished
      have silent := not_fromCascade running running'
      exact inv.cascade after _ running ((inv.core.cascade before running).step move) running'
        (fun fallback found => absurd (inv.core.fallbackCh fallback found) (silent _))
        (fun finished => absurd finished running'')
  | @cascadeReturns orders _ cascade _ running stopped ordered =>
      have ok := inv.core.cascade cascade running
      refine inv.cascade { cascade with phase := .finished } _ running
        ⟨ok.acc, ok.legs, ok.tried, by simp⟩ (by simp [stopped]) ?_ (fun _ => Option.some_ne_none _)
      intro fallback found
      obtain rfl := Option.some.inj found
      exact ⟨_, orders, rfl, rfl, ordered, cascade.acc.result_resp orders⟩
  | takePrimary arrived next => exact inv.readsPrimary arrived (readsPrimary_of_onPrimary next)
  | takeFallback arrived next => exact inv.readsFallback arrived (readsFallback_of_onFallback next)

end HedgerCall

end Warpstream
