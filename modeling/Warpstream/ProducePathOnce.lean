import Warpstream.HedgeAttempts
import Warpstream.ProducePathWeights

set_option autoImplicit false

/- How often a record reaches the agents. What the flushes of the main buffer hand to the
Hedger was produced, and every call sends each of its batches to an agent at most once and to
no more agents than it may try, whatever the hedge buffer merges on the way. -/
namespace Warpstream

open RoutedBatch

section waves

/-- What a wave adds to the hedge buffer: each chosen batch for its agent. -/
theorem items_groupLegs (chosen : List (Int × EncodedTopicPartitionRecords)) :
    ((groupLegs chosen).flatMap HedgeLeg.items).Perm
      (chosen.map fun c => { c.2 with nodeID := c.1 }) := by
  have legs : (groupLegs chosen).flatMap HedgeLeg.items =
      ((FirstSeen.groupBy Prod.fst chosen).flatMap Prod.snd).map
        fun c => { c.2 with nodeID := c.1 } := by
    rw [groupLegs, List.flatMap_map, List.map_flatMap]
    refine List.flatMap_congr fun g mem => ?_
    have members := (FirstSeen.groups_groupBy Prod.fst chosen).members g.1 g.2 mem
    rw [HedgeLeg.items, newMultiRoutedEncodedTopicPartitionRecords, unpromise, List.map_map,
      List.map_map]
    refine List.map_congr_left fun c inside => ?_
    rw [members, List.mem_filter] at inside
    have agent : c.1 = g.1 := of_decide_eq_true inside.2
    simp only [Function.comp_apply, agent]
  rw [legs]
  exact (FirstSeen.flatMap_groupBy_perm Prod.fst chosen).map _

/-- How often the batch is sent to one of the agents, if it went to all that were tried. -/
def triedWeight (toAgent : Int → Bool) (weight : EncodedTopicPartitionRecords → Nat)
    (tried : GoMap TopicPartition (List Int)) (p : EncodedTopicPartitionRecords) : Nat :=
  ((tried.lookup p.topicPartition).getD []).countP toAgent * weight p

/-- Every batch of a wave goes to an agent that it was not sent to before. -/
theorem weigh_picked_le {cfg : HedgeConfig} {tried tried' : GoMap TopicPartition (List Int)}
    {order parts : List EncodedTopicPartitionRecords}
    {chosen : List (Int × EncodedTopicPartitionRecords)}
    (distinct : (order.map EncodedTopicPartitionRecords.topicPartition).Nodup)
    (inside : order ⊆ parts) (picked : pickCandidates cfg tried order = .ok (tried', chosen))
    (toAgent : Int → Bool) (weight : EncodedTopicPartitionRecords → Nat) :
    weigh (fun c => if toAgent c.1 then weight c.2 else 0) chosen +
        weigh (triedWeight toAgent weight tried) parts ≤
      weigh (triedWeight toAgent weight tried') parts := by
  obtain ⟨untouched, spec⟩ := pickCandidates_lookup distinct picked
  have sent := pickCandidates_parts picked
  have once (c : Int × EncodedTopicPartitionRecords) (mem : c ∈ chosen) :
      (if toAgent c.1 then weight c.2 else 0) + triedWeight toAgent weight tried c.2 =
        triedWeight toAgent weight tried' c.2 := by
    obtain ⟨before, was, now, -, -⟩ := spec c mem
    rw [triedWeight, triedWeight, was, now, Option.getD_some, List.countP_append,
      List.countP_singleton, Nat.add_mul, Nat.add_comm]
    split <;> simp
  have fresh : weigh (fun c => if toAgent c.1 then weight c.2 else 0) chosen +
        weigh (triedWeight toAgent weight tried) order =
      weigh (triedWeight toAgent weight tried') order := by
    rw [← sent, weigh_map, weigh_map, ← weigh_congr once]
    simp only [weigh, List.sum_map_add]
  have kept (p : EncodedTopicPartitionRecords) :
      triedWeight toAgent weight tried p ≤ triedWeight toAgent weight tried' p := by
    by_cases mem : p.topicPartition ∈ order.map EncodedTopicPartitionRecords.topicPartition
    · obtain ⟨o, here, same⟩ := List.mem_map.mp mem
      obtain ⟨c, chose, rfl⟩ := List.mem_map.mp (sent.symm ▸ here)
      obtain ⟨before, was, now, -, -⟩ := spec c chose
      rw [triedWeight, triedWeight, ← same, was, now, Option.getD_some, List.countP_append]
      exact Nat.mul_le_mul_right _ (Nat.le_add_right _ _)
    · rw [triedWeight, triedWeight, untouched _ mem]
  obtain ⟨listed, same, sub⟩ := (List.Nodup.of_map _ distinct).subperm inside
  obtain ⟨rest, split⟩ := sub.exists_perm_append
  have more : weigh (triedWeight toAgent weight tried) rest ≤
      weigh (triedWeight toAgent weight tried') rest := weigh_le_weigh fun p _ => kept p
  rw [weigh_perm _ split, weigh_perm _ split, weigh_append, weigh_append, weigh_perm _ same,
    weigh_perm _ same]
  omega

end waves

namespace HedgerCall

variable [Snappy] (toAgent : Int → Bool) (tp : TopicPartition) (b : Kgo.Record)

/-- The agents that a partition of the call was sent to, the primary included. -/
def tried (c : HedgerCall) (tp : TopicPartition) : List Int :=
  (c.cascadeOrStart.tried.lookup tp).getD []

/-- How often the call has the record for the partition. -/
def weight (c : HedgerCall) : Nat := weigh (batchWeight tp b) c.cfg.partitions

/-- How often the call has sent the record to one of the agents or is about to. -/
def sends (c : HedgerCall) : Nat :=
  weigh (triedWeight toAgent (batchWeight tp b) c.cascadeOrStart.tried) c.cfg.partitions

/-- What the primary attempt of the call has not sent yet. -/
def unsent (c : HedgerCall) : Nat :=
  if c.primaryRaw.isNone && toAgent c.primaryID then c.weight tp b else 0

variable {c c' : HedgerCall}

omit [Snappy] in
/-- The primary is the only agent tried before the cascade starts. -/
theorem Core.tried_unstarted (core : c.Core) (unstarted : c.cascade = none) :
    c.cascadeOrStart.tried = Cascade.primaryTried c.cfg := by
  obtain ⟨cascade, begins, -⟩ := Cascade.ok_start core.distinct
  simp only [cascadeOrStart, unstarted, begins]
  unfold Cascade.start at begins
  cases made : newProduceResultAccumulator c.cfg.partitions with
  | error err =>
      rw [made] at begins
      cases begins
  | ok acc =>
      rw [made] at begins
      rw [← Except.ok.inj begins]

omit [Snappy] in
theorem tried_congr (tried : c'.cascadeOrStart.tried = c.cascadeOrStart.tried) :
    c'.tried = c.tried := by
  funext tp
  simp only [HedgerCall.tried, tried]

theorem sends_congr (cfg : c'.cfg = c.cfg)
    (tried : c'.cascadeOrStart.tried = c.cascadeOrStart.tried) :
    c'.sends toAgent tp b = c.sends toAgent tp b := by
  simp only [sends, tried, cfg]

theorem unsent_congr (cfg : c'.cfg = c.cfg) (primary : c'.primaryRaw = c.primaryRaw) :
    c'.unsent toAgent tp b = c.unsent toAgent tp b := by
  have id : c'.primaryID = c.primaryID := congrArg HedgeConfig.primaryID cfg
  simp only [unsent, weight, primary, id, cfg]

end HedgerCall

theorem nodeID_agentFromRouted (nodeID : Int) (parts : List RoutedEncodedTopicPartitionRecords) :
    (agentFromRouted nodeID parts).nodeID = nodeID := by
  unfold agentFromRouted
  split <;> rfl

/-- How often an attempt on one of the agents had the record. -/
def sentWeight [Snappy] (toAgent : Int → Bool) (tp : TopicPartition) (b : Kgo.Record) (a : Attempt) :
    Nat :=
  if toAgent a.target.nodeID then weigh (batchWeight tp b) a.partitions else 0

def FlushCall.flush (c : FlushCall) : Nat × Nat := (c.agent, c.index)

namespace ProducePath

/-- The flushes of the main buffer that no call has been made for. -/
def uncalled (s : ProducePath) (flush : Nat × Nat) : Bool :=
  !(s.calls.map FlushCall.flush).contains flush

section uncalled

variable {s s' : ProducePath}

/-- A call that moves on stays the call of its flush. -/
theorem uncalled_of_set {q ctx : Nat} {c : FlushCall} {call : HedgerCall}
    (found : s.calls[q]? = some c)
    (calls : s'.calls = s.calls.set q { c with call := call, attemptCtx := ctx }) :
    s'.uncalled = s.uncalled := by
  have keys : s'.calls.map FlushCall.flush = s.calls.map FlushCall.flush := by
    rw [calls]
    exact Pool.map_set_of_eq _ found rfl
  unfold uncalled
  rw [keys]

/-- A call takes the weight of its flush. -/
theorem stock_begin (weight : RoutedTopicPartitionRecords → Nat) {task agent index : Nat}
    (call : HedgerCall) {entries : List (Promised RoutedTopicPartitionRecords Callback)}
    {rest : List (Op RoutedTopicPartitionRecords)}
    (here : s.buffer.tasks[task]? = some (.flush agent index entries :: rest))
    (fresh : ∀ c ∈ s.calls, (c.agent, c.index) ≠ (agent, index)) :
    s.buffer.stock (s.begin (agent, index) call).uncalled weight +
      weigh weight (unpromise entries) ≤ s.buffer.stock s.uncalled weight := by
  have calls : (s.begin (agent, index) call).calls =
      s.calls ++ [⟨agent, index, call, s.nextCtx, s.nextCtx⟩] := rfl
  refine ClusterRun.stock_narrow _ (fun key left => ?_) here ?_ ?_
  · simp only [uncalled, calls, List.map_append, List.contains_append, Bool.not_or,
      Bool.and_eq_true] at left
    exact left.1
  · simp only [uncalled, Bool.not_eq_true', List.contains_eq_mem, decide_eq_false_iff_not]
    intro listed
    obtain ⟨c, mem, same⟩ := List.mem_map.mp listed
    exact fresh c mem same
  · simp [uncalled, calls, FlushCall.flush]

end uncalled

variable [Snappy] {s s' : ProducePath} {added : List RoutedTopicPartitionRecords}

/-- Records are handed on and never multiplied: to the calls no more than was added, and to
the agents no more than the calls may send. -/
structure Flow (added : List RoutedTopicPartitionRecords) (s : ProducePath) : Prop where
  main : ∀ tp b, s.buffer.stock s.uncalled (recordWeight tp b) +
    weigh (fun c => c.call.weight tp b) s.calls ≤ weigh (recordWeight tp b) added
  hedge : ∀ toAgent tp b, weigh (sentWeight toAgent tp b) s.wire +
    s.hedgeBuffer.stock (fun _ => true) (hedgeWeight toAgent tp b) +
    weigh (fun c => c.call.unsent toAgent tp b) s.calls ≤
      weigh (fun c => c.call.sends toAgent tp b) s.calls
  budget : ∀ c ∈ s.calls, c.call.cfg.maxHedgeAgents = s.cfg.maxHedgeAgents
  tried : ∀ c ∈ s.calls, ∀ tp ∈ c.call.cfg.requested,
    (c.call.tried tp).Nodup ∧ (c.call.tried tp).length ≤ max 1 c.call.cfg.maxHedgeAgents

theorem flow_init (cfg : ClientConfig) : (init cfg).Flow [] where
  main _ _ := Nat.le_refl _
  hedge _ _ _ := Nat.le_refl _
  budget := List.forall_mem_nil _
  tried := List.forall_mem_nil _

theorem Flow.weaken (flow : s.Flow added) (more : List RoutedTopicPartitionRecords) :
    s.Flow (added ++ more) := by
  refine ⟨fun tp b => Nat.le_trans (flow.main tp b) ?_, flow.hedge, flow.budget, flow.tried⟩
  rw [weigh_append]
  exact Nat.le_add_right _ _

/-- The main buffer takes a step. -/
theorem Flow.buffer (flow : s.Flow added) {action : ClusterAction RoutedTopicPartitionRecords}
    {buffer : ClusterRun RoutedTopicPartitionRecords}
    (stepped : s.buffer.step action = some buffer) :
    Flow (added ++ action.items) { s with buffer := buffer } := by
  refine ⟨fun tp b => ?_, flow.hedge, flow.budget, flow.tried⟩
  have before := flow.main tp b
  have moved : buffer.stock s.uncalled (recordWeight tp b) +
      weigh (recordWeight tp b) (s.buffer.takenOut s.uncalled action) ≤
        s.buffer.stock s.uncalled (recordWeight tp b) + weigh (recordWeight tp b) action.items :=
    ClusterRun.stock_step lossy_recordWeight stepped
  rw [weigh_append]
  change buffer.stock s.uncalled (recordWeight tp b) +
    weigh (fun c => c.call.weight tp b) s.calls ≤ _
  omega

/-- A call moves on: what it adds to the wire and the hedge buffer is what it may send. -/
theorem Flow.setCall (flow : s.Flow added) {q : Nat} {c : FlushCall} (call : HedgerCall) (ctx : Nat)
    (found : s.calls[q]? = some c) (cfg : call.cfg = c.call.cfg)
    (next : s'.cfg = s.cfg ∧ s'.buffer = s.buffer ∧
      s'.calls = s.calls.set q { c with call := call, attemptCtx := ctx })
    (tried : ∀ tp ∈ c.call.cfg.requested,
      (call.tried tp).Nodup ∧ (call.tried tp).length ≤ max 1 c.call.cfg.maxHedgeAgents)
    (hedge : ∀ toAgent tp b, weigh (sentWeight toAgent tp b) s'.wire +
        s'.hedgeBuffer.stock (fun _ => true) (hedgeWeight toAgent tp b) +
        call.unsent toAgent tp b + c.call.sends toAgent tp b ≤
      weigh (sentWeight toAgent tp b) s.wire +
        s.hedgeBuffer.stock (fun _ => true) (hedgeWeight toAgent tp b) +
        c.call.unsent toAgent tp b + call.sends toAgent tp b) : s'.Flow added := by
  obtain ⟨sameCfg, sameBuffer, calls⟩ := next
  have sum (weight : HedgerCall → Nat) : weigh (fun c => weight c.call) s'.calls + weight c.call =
      weigh (fun c => weight c.call) s.calls + weight call := by
    rw [calls]
    exact Pool.sum_map_set (fun c : FlushCall => weight c.call) found _
  have live := uncalled_of_set found calls
  refine ⟨fun tp b => ?_, fun toAgent tp b => ?_, fun x mem => ?_, fun x mem => ?_⟩
  · have same := sum (HedgerCall.weight tp b)
    have weight : call.weight tp b = c.call.weight tp b := by rw [HedgerCall.weight, cfg]; rfl
    have before := flow.main tp b
    rw [live, sameBuffer]
    omega
  · have unsent := sum (HedgerCall.unsent toAgent tp b)
    have sends := sum (HedgerCall.sends toAgent tp b)
    have before := flow.hedge toAgent tp b
    have moved := hedge toAgent tp b
    omega
  · rw [calls] at mem
    rw [sameCfg]
    rcases List.mem_or_eq_of_mem_set mem with old | rfl
    · exact flow.budget x old
    · exact (congrArg HedgeConfig.maxHedgeAgents cfg).trans
        (flow.budget c (List.mem_of_getElem? found))
  · rw [calls] at mem
    rcases List.mem_or_eq_of_mem_set mem with old | rfl
    · exact flow.tried x old
    · dsimp only
      rw [cfg]
      exact tried

theorem Flow.setCall_same (flow : s.Flow added) (call : HedgerCall) (legs : List LegDone) {q : Nat}
    {c : FlushCall} (found : s.calls[q]? = some c) (cfg : call.cfg = c.call.cfg)
    (primary : call.primaryRaw = c.call.primaryRaw)
    (tried : call.cascadeOrStart.tried = c.call.cascadeOrStart.tried) :
    Flow added { s.setCall q c call with legs := legs } := by
  refine flow.setCall call c.attemptCtx found cfg ⟨rfl, rfl, rfl⟩ ?_ fun toAgent tp b => ?_
  · rw [HedgerCall.tried_congr tried]
    exact flow.tried c (List.mem_of_getElem? found)
  · rw [HedgerCall.unsent_congr toAgent tp b cfg primary, HedgerCall.sends_congr toAgent tp b cfg tried]
    exact Nat.le_refl _

/-- The primary answers. -/
theorem Flow.primary (flow : s.Flow added) {q : Nat} {c : FlushCall} {call : HedgerCall}
    {attempt : Attempt} (found : s.calls[q]? = some c) (cfg : call.cfg = c.call.cfg)
    (waits : c.call.primaryRaw.isNone = true) (answered : call.primaryRaw.isNone = false)
    (tried : call.cascadeOrStart.tried = c.call.cascadeOrStart.tried)
    (target : attempt.target.nodeID = c.call.primaryID)
    (parts : attempt.partitions = c.call.cfg.partitions) :
    (s.primary q c call attempt).Flow added := by
  refine flow.setCall call c.attemptCtx found cfg ⟨rfl, rfl, rfl⟩ ?_ fun toAgent tp b => ?_
  · rw [HedgerCall.tried_congr tried]
    exact flow.tried c (List.mem_of_getElem? found)
  · have now : call.unsent toAgent tp b = 0 := by simp [HedgerCall.unsent, answered]
    have before : c.call.unsent toAgent tp b = sentWeight toAgent tp b attempt := by
      simp [HedgerCall.unsent, HedgerCall.weight, sentWeight, waits, target, parts]
    have wire : weigh (sentWeight toAgent tp b) (s.primary q c call attempt).wire =
        weigh (sentWeight toAgent tp b) s.wire + sentWeight toAgent tp b attempt := by
      rw [ProducePath.primary, weigh_append, weigh_cons, weigh_nil, Nat.add_zero]
    have hedge : (s.primary q c call attempt).hedgeBuffer = s.hedgeBuffer := rfl
    rw [now, before, HedgerCall.sends_congr toAgent tp b cfg tried, wire, hedge]
    omega

/-- A wave is sent. -/
theorem Flow.dispatch (flow : s.Flow added) {q : Nat} {c : FlushCall} {call : HedgerCall}
    {order : List EncodedTopicPartitionRecords} {legs : List HedgeLeg}
    {chosen : List (Int × EncodedTopicPartitionRecords)} (found : s.calls[q]? = some c)
    (distinct : (order.map EncodedTopicPartitionRecords.topicPartition).Nodup)
    (inside : order ⊆ c.call.cfg.partitions)
    (picked : pickCandidates c.call.cfg c.call.cascadeOrStart.tried order =
      .ok (call.cascadeOrStart.tried, chosen))
    (grouped : legs.Perm (groupLegs chosen)) (cfg : call.cfg = c.call.cfg)
    (primary : call.primaryRaw = c.call.primaryRaw) : (s.dispatch q c call legs).Flow added := by
  have old := flow.tried c (List.mem_of_getElem? found)
  obtain ⟨untouched, spec⟩ := pickCandidates_lookup distinct picked
  refine flow.setCall call s.nextCtx found cfg ⟨rfl, rfl, rfl⟩ (fun tp mem => ?_)
    fun toAgent tp b => ?_
  · by_cases sent : tp ∈ order.map EncodedTopicPartitionRecords.topicPartition
    · rw [← pickCandidates_parts picked, List.map_map] at sent
      obtain ⟨choice, chose, rfl⟩ := List.mem_map.mp sent
      obtain ⟨before, was, now, unused, room⟩ := spec choice chose
      obtain ⟨alone, -⟩ := old _ mem
      have same : c.call.tried choice.2.topicPartition = before := was
      have after : call.tried choice.2.topicPartition = before ++ [choice.1] := by
        rw [HedgerCall.tried, now, Option.getD_some]
      rw [Function.comp_apply, same] at alone
      rw [Function.comp_apply, after, List.length_append, List.length_singleton]
      refine ⟨List.nodup_append.mpr ⟨alone, List.nodup_singleton _, ?_⟩, by omega⟩
      rintro x listed y last rfl
      exact unused (List.mem_singleton.mp last ▸ listed)
    · have same : call.tried tp = c.call.tried tp := by
        rw [HedgerCall.tried, untouched tp sent]
        rfl
      rw [same]
      exact old tp mem
  · have items : weigh (hedgeWeight toAgent tp b) (legs.flatMap HedgeLeg.items) =
        weigh (fun c => if toAgent c.1 then batchWeight tp b c.2 else 0) chosen := by
      rw [weigh_perm _ ((grouped.flatMap_right _).trans (items_groupLegs chosen)), weigh_map]
      rfl
    have stock : (s.dispatch q c call legs).hedgeBuffer.stock (fun _ => true)
        (hedgeWeight toAgent tp b) = s.hedgeBuffer.stock (fun _ => true) (hedgeWeight toAgent tp b) +
          weigh (hedgeWeight toAgent tp b) (legs.flatMap HedgeLeg.items) := by
      rw [ProducePath.dispatch, ClusterRun.stock_spawn]
      simp [List.flatMap_map, Op.carried, unpromise]
    have wire : (s.dispatch q c call legs).wire = s.wire := rfl
    have more := weigh_picked_le distinct inside picked toAgent (batchWeight tp b)
    rw [stock, items, wire, HedgerCall.unsent_congr toAgent tp b cfg primary, HedgerCall.sends,
      HedgerCall.sends, cfg]
    omega

/-- A call begins: its flush of the main buffer is taken up, and nothing but the primary's
attempt is due. -/
theorem Flow.begin (flow : s.Flow added) (sized : s.Sized) (sound : s.Sound added)
    (small : s.cfg.batchMaxBytes.toNat ≤ 2 ^ 29) {task agent index : Nat} {call : HedgerCall}
    {a : AgentBuffer RoutedTopicPartitionRecords Callback}
    {f : Flush RoutedTopicPartitionRecords Callback}
    (flush : s.buffer.flushOf task = some (agent, index))
    (fresh : ∀ c ∈ s.calls, (c.agent, c.index) ≠ (agent, index))
    (found : s.buffer.buffer.agentBuffers[agent]? = some a) (started : a.flushes[index]? = some f)
    (encoded : encodePartitions f.wire = some call.routed)
    (inv : call.Inv) (unstarted : call.cascade = none) (unanswered : call.primaryRaw = none)
    (budget : call.cfg.maxHedgeAgents = s.cfg.maxHedgeAgents) :
    (s.begin (agent, index) call).Flow added := by
  have stands := inv.core.tried_unstarted unstarted
  have first (tp : TopicPartition) (mem : tp ∈ call.cfg.requested) :
      call.tried tp = [call.primaryID] := by
    rw [HedgerCall.tried, stands, Cascade.lookup_primaryTried call.cfg mem]
    rfl
  have calls : (s.begin (agent, index) call).calls =
      s.calls ++ [⟨agent, index, call, s.nextCtx, s.nextCtx⟩] := rfl
  refine ⟨fun tp b => ?_, fun toAgent tp b => ?_, fun c mem => ?_, fun c mem => ?_⟩
  · obtain ⟨entries, rest, here⟩ := flushOf_eq_some flush
    obtain ⟨a', f', found', started', same⟩ := sound.buffer.origins.sound (.flush agent index entries)
      (List.mem_flatten.mpr ⟨_, List.mem_of_getElem? here, List.mem_cons_self⟩)
    obtain rfl := Option.some.inj (found.symm.trans found')
    obtain rfl := Option.some.inj (started.symm.trans started')
    subst same
    have weight : call.weight tp b = weigh (recordWeight tp b) (unpromise f.entries) :=
      sized.weigh_encoded sound small found started encoded
    have narrowed := stock_begin (recordWeight tp b) call here fresh
    have before := flow.main tp b
    have buffer : (s.begin (agent, index) call).buffer = s.buffer := rfl
    simp only [calls, buffer, weigh_append, weigh_cons, weigh_nil, weight]
    omega
  · have due : call.sends toAgent tp b = call.unsent toAgent tp b := by
      have each : ∀ p ∈ call.cfg.partitions,
          triedWeight toAgent (batchWeight tp b) call.cascadeOrStart.tried p =
            if toAgent call.primaryID then batchWeight tp b p else 0 := by
        intro p part
        have tried := first p.topicPartition (List.mem_map_of_mem part)
        rw [HedgerCall.tried] at tried
        rw [triedWeight, tried, List.countP_singleton]
        split <;> simp
      rw [HedgerCall.sends, weigh_congr each, HedgerCall.unsent, unanswered]
      cases toAgent call.primaryID
      · simp [weigh]
      · rfl
    have before := flow.hedge toAgent tp b
    have wire : (s.begin (agent, index) call).wire = s.wire := rfl
    have buffer : (s.begin (agent, index) call).hedgeBuffer = s.hedgeBuffer := rfl
    simp only [calls, wire, buffer, weigh_append, weigh_cons, weigh_nil, due]
    omega
  · rcases List.mem_append.mp mem with old | new
    · exact flow.budget c old
    · rw [List.mem_singleton.mp new]
      exact budget
  · rcases List.mem_append.mp mem with old | new
    · exact flow.tried c old
    · rw [List.mem_singleton.mp new]
      intro tp listed
      rw [first tp listed]
      exact ⟨List.nodup_singleton _, Nat.le_max_left _ _⟩

/-- The hedge buffer takes a step, and what it takes out goes on the wire. -/
theorem Flow.hedgeBuffer (flow : s.Flow added)
    {action : ClusterAction RoutedEncodedTopicPartitionRecords}
    {run : ClusterRun RoutedEncodedTopicPartitionRecords} (internal : action.isInternal = true)
    (stepped : s.hedgeBuffer.step action = some run) (sent : List Attempt)
    (taken : ∀ toAgent tp b, weigh (sentWeight toAgent tp b) sent ≤
      weigh (hedgeWeight toAgent tp b) (s.hedgeBuffer.takenOut (fun _ => true) action)) :
    Flow added { s.setHedgeBuffer action run with wire := s.wire ++ sent } := by
  refine ⟨flow.main, fun toAgent tp b => ?_, flow.budget, flow.tried⟩
  have none := ClusterAction.items_of_isInternal internal
  have moved : run.stock (fun _ => true) (hedgeWeight toAgent tp b) +
      weigh (hedgeWeight toAgent tp b) (s.hedgeBuffer.takenOut (fun _ => true) action) ≤
        s.hedgeBuffer.stock (fun _ => true) (hedgeWeight toAgent tp b) +
          weigh (hedgeWeight toAgent tp b) action.items :=
    ClusterRun.stock_step lossy_hedgeWeight stepped
  have before := flow.hedge toAgent tp b
  have out := taken toAgent tp b
  rw [none, weigh_nil] at moved
  change weigh (sentWeight toAgent tp b) (s.wire ++ sent) +
    run.stock (fun _ => true) (hedgeWeight toAgent tp b) +
    weigh (fun c => c.call.unsent toAgent tp b) s.calls ≤
      weigh (fun c => c.call.sends toAgent tp b) s.calls
  rw [weigh_append]
  omega

/-- An attempt of the hedge buffer sends no more than the entries of its flush have. -/
theorem Sound.sentWeight_le (sound : s.Sound added) (small : s.cfg.batchMaxBytes.toNat ≤ 2 ^ 29)
    {a : AgentBuffer RoutedEncodedTopicPartitionRecords Callback}
    {f : Flush RoutedEncodedTopicPartitionRecords Callback} {attempt : Attempt}
    {toAgent : Int → Bool} {tp : TopicPartition} {b : Kgo.Record}
    (mem : a ∈ s.hedgeBuffer.buffer.agentBuffers) (inside : f ∈ a.flushes)
    (target : attempt.target.nodeID = a.nodeID)
    (parts : attempt.partitions = unrouteEncodedTopicPartitionRecords f.wire) :
    sentWeight toAgent tp b attempt ≤
      weigh (hedgeWeight toAgent tp b) (unpromise f.entries) := by
  have node : ∀ w ∈ unpromise f.entries, w.nodeID = a.nodeID := by
    intro w entry
    obtain ⟨e, taken, rfl⟩ := List.mem_map.mp entry
    exact ((sound.hedgeBins.agents a mem).2.entries e
      (List.mem_append_left _ (List.mem_flatMap.mpr ⟨f, inside, taken⟩))).2
  have merged : weigh (batchWeight tp b) (unrouteEncodedTopicPartitionRecords f.wire) ≤
      weigh (batchWeight tp b) (unrouteEncodedTopicPartitionRecords (unpromise f.entries)) :=
    sound.weigh_hedge_wire small mem inside
  rw [sentWeight, target, parts]
  split
  · rename_i wanted
    refine Nat.le_trans merged (Nat.le_of_eq ?_)
    rw [unrouteEncodedTopicPartitionRecords, weigh_map]
    refine weigh_congr fun w entry => ?_
    rw [hedgeWeight, node w entry, if_pos wanted]
  · exact Nat.zero_le _

theorem Flow.step (flow : s.Flow added) (sized : s.Sized) (sound : s.Sound added)
    (taken : s.hedgeBuffer.TakenInv) (small : s.cfg.batchMaxBytes.toNat ≤ 2 ^ 29) {action : ProduceAction}
    (stepped : s.step action = some s') : s'.Flow (added ++ action.added s.cfg) := by
  cases steps_of_step stepped with
  | rejected => exact flow.weaken _
  | main _ inner buffer adds items quiet moved => exact items ▸ flow.buffer moved
  | flushBatch task agent index candidates a f routed found started encoded flush fresh =>
      have input := sound.hedgerInput found started encoded
      exact (flow.begin sized sound small flush fresh found started encoded
        (HedgerCall.inv_init input.distinct input.node) rfl rfl rfl).weaken _
  | flushReturns task c res buffer flush mem returned moved => exact flow.buffer moved
  | call q inner c call found own moved =>
      have same := (sound.calls c (List.mem_of_getElem? found)).call.sameAttempts own moved
      exact (flow.setCall_same _ s.legs found same.cfg same.primary same.tried).weaken _
  | primary q env c found call attempt sends moved =>
      refine Flow.weaken ?_ _
      cases HedgerCall.moves_of_step moved with
      | primaryReturns runs =>
          refine flow.primary found rfl ?_ rfl rfl ?_ ?_
          · unfold HedgerCall.primaryRuns at runs
            split at runs
            · cases runs
            · exact runs
          · rw [sends]
            exact nodeID_agentFromRouted _ _
          · rw [sends]
            rfl
  | waveStops q order legs c cascade exhaustion found running moved =>
      have same := HedgerCall.SameAttempts.running (cascade.stop exhaustion) running rfl rfl rfl
        c.call.fallbackCh
      exact (flow.setCall_same _ s.legs found same.cfg same.primary same.tried).weaken _
  | dispatch q order legs c cascade tried chosen found running pending picked grouped moved =>
      refine Flow.weaken ?_ _
      have ok := sound.calls c (List.mem_of_getElem? found)
      have stands := HedgerCall.cascadeOrStart_of_some running
      have keys := (ok.call.core.cascade cascade running).acc.remaining_keys pending
      refine flow.dispatch found (keys.nodup_iff.mpr cascade.acc.pending.keys_nodup) ?_
        (stands.symm ▸ picked) grouped rfl rfl
      intro p mem
      obtain ⟨entry, inside, rfl⟩ := List.mem_map.mp (pending.mem_iff.mp mem)
      exact ok.pending entry.1 entry.2 (stands.symm ▸ AList.mem_lookup_iff.mpr inside)
  | legResult q i c cascade leg l d found running waits mem owner sent moved =>
      have stands := HedgerCall.cascadeOrStart_of_some running
      exact (flow.setCall_same { c.call with cascade := some (cascade.receive i leg d.res) }
        (s.legs.map (LegDone.collect l.owner)) found rfl rfl (by rw [stands]; rfl)).weaken _
  | hedgeBuffer action run internal quiet moved =>
      refine Flow.weaken ?_ _
      have same := flow.hedgeBuffer internal moved [] fun _ _ _ => Nat.zero_le _
      rwa [List.append_nil] at same
  | hedgeFlush task agent index env a f attempt run flush found started sends moved =>
      refine (flow.hedgeBuffer rfl moved [attempt] fun toAgent tp b => ?_).weaken _
      obtain ⟨entries, rest, here⟩ := flushOf_eq_some flush
      obtain ⟨a', f', found', started', same⟩ := taken.origins.sound (.flush agent index entries)
        (List.mem_flatten.mpr ⟨_, List.mem_of_getElem? here, List.mem_cons_self⟩)
      obtain rfl := Option.some.inj (found.symm.trans found')
      obtain rfl := Option.some.inj (started.symm.trans started')
      subst same
      rw [ClusterRun.takenOut_of_flush here rfl, weigh_cons, weigh_nil, Nat.add_zero]
      exact sound.sentWeight_le small (List.mem_of_getElem? found) (List.mem_of_getElem? started)
        (by rw [sends]; exact nodeID_agentFromRouted _ _) (by rw [sends]; rfl)

/-- What holds after the actions `done`. -/
structure FlowInv (cfg : ClientConfig) (done : List ProduceAction) (s : ProducePath) : Prop where
  same : s.cfg = cfg
  sound : s.Sound (done.flatMap (ProduceAction.added cfg))
  gated : ∀ item ∈ done.flatMap (ProduceAction.added cfg), Gated cfg.batchMaxBytes.toNat item
  sized : s.Sized
  taken : s.hedgeBuffer.TakenInv
  flow : s.Flow (done.flatMap (ProduceAction.added cfg))

theorem FlowInv.step {cfg : ClientConfig} (small : cfg.batchMaxBytes.toNat ≤ 2 ^ 29)
    (done : List ProduceAction) (s : ProducePath) (action : ProduceAction) (s' : ProducePath)
    (inv : s.FlowInv cfg done) (stepped : s.step action = some s') :
    s'.FlowInv cfg (done ++ [action]) := by
  obtain ⟨rfl, sound, gated, sized, taken, flow⟩ := inv
  have ceiling : s.cfg.batchMaxBytes.toNat ≤ 2 ^ 30 := Nat.le_trans small (by norm_num)
  have more : (done ++ [action]).flatMap (ProduceAction.added s.cfg) =
      done.flatMap (ProduceAction.added s.cfg) ++ action.added s.cfg := by simp
  refine ⟨cfg_step stepped, ?_, ?_, sized.step sound gated stepped, ?_, ?_⟩
  · rw [more]
    exact (sound.mono fun w => List.mem_append_left _).step ceiling
      (fun w => List.mem_append_right _) stepped
  · rw [more]
    intro item mem
    exact (List.mem_append.mp mem).elim (gated item) (gated_of_step stepped item)
  · exact (hedgeBuffer_advances sound ceiling stepped).takenInv taken
  · rw [more]
    exact flow.step sized sound taken small stepped

theorem flowInv_run {cfg : ClientConfig} (small : cfg.batchMaxBytes.toNat ≤ 2 ^ 29)
    {actions : List ProduceAction}
    (runs : Machine.run ProducePath.step (init cfg) actions = some s) : s.FlowInv cfg actions := by
  refine Machine.history_run (fun done s => s.FlowInv cfg done) (FlowInv.step small) ?_ runs
  exact ⟨rfl, sound_init cfg, List.forall_mem_nil _, sized_init cfg, ClusterRun.takenInv_init _,
    flow_init cfg⟩

/-- How often some agents are sent a record, if each batch goes to at most `k` of them. -/
theorem Flow.count_sent_le (flow : s.Flow added) (toAgent : Int → Bool) (tp : TopicPartition)
    (b : Kgo.Record) {k : Nat} (few : ∀ c ∈ s.calls, ∀ tp ∈ c.call.cfg.requested,
      (c.call.tried tp).countP toAgent ≤ k) :
    ((s.wire.filter fun a => toAgent a.target.nodeID).flatMap (·.sentRecords tp)).count b ≤
      k * ((partitionRecords tp added).map bareRecord).count b := by
  have attempts : weigh (fun a => (a.sentRecords tp).count b)
      (s.wire.filter fun a => toAgent a.target.nodeID) ≤ weigh (sentWeight toAgent tp b) s.wire := by
    refine Nat.le_trans (weigh_le_weigh fun a mem => ?_) (weigh_sublist List.filter_sublist)
    rw [sentWeight, if_pos (List.mem_filter.mp mem).2]
    exact a.count_sentRecords_le
  have each : weigh (fun c => c.call.sends toAgent tp b) s.calls ≤
      weigh (fun c => k * c.call.weight tp b) s.calls := by
    refine weigh_le_weigh fun c mem => ?_
    rw [HedgerCall.weight, ← weigh_mul_left]
    refine weigh_le_weigh fun p part => ?_
    exact Nat.mul_le_mul_right _ (few c mem _ (List.mem_map_of_mem part))
  have calls : weigh (fun c => c.call.weight tp b) s.calls ≤ weigh (recordWeight tp b) added := by
    have main := flow.main tp b
    omega
  have hedge := flow.hedge toAgent tp b
  calc ((s.wire.filter fun a => toAgent a.target.nodeID).flatMap (·.sentRecords tp)).count b
      = weigh (fun a => (a.sentRecords tp).count b)
          (s.wire.filter fun a => toAgent a.target.nodeID) := count_flatMap_eq_weigh _ _ _
    _ ≤ weigh (fun c => c.call.sends toAgent tp b) s.calls := by omega
    _ ≤ k * weigh (fun c => c.call.weight tp b) s.calls := by
        rwa [weigh_mul_left] at each
    _ ≤ k * weigh (recordWeight tp b) added := Nat.mul_le_mul_left k calls
    _ = k * ((partitionRecords tp added).map bareRecord).count b := by rw [weigh_recordWeight]

end ProducePath

/-- Along every run, each agent is sent a record at most as often as the record was produced,
and all agents together at most `maxHedgeAgents` times as often. -/
theorem record_reaches_each_agent_once [Snappy] {cfg : ClientConfig}
    (small : cfg.batchMaxBytes ≤ 2 ^ 29) {actions : List ProduceAction} {s : ProducePath}
    (runs : Machine.run ProducePath.step (ProducePath.init cfg) actions = some s)
    (tp : TopicPartition) (r : Kgo.Record) :
    (∀ nodeID : Int, ((s.wire.filter fun a => a.target.nodeID = nodeID).flatMap
        (·.sentRecords tp)).count r ≤
      ((partitionRecords tp (actions.flatMap (ProduceAction.added cfg))).map bareRecord).count r) ∧
    (s.wire.flatMap (·.sentRecords tp)).count r ≤ max 1 cfg.maxHedgeAgents *
      ((partitionRecords tp (actions.flatMap (ProduceAction.added cfg))).map bareRecord).count r := by
  have inv := ProducePath.flowInv_run (by omega : cfg.batchMaxBytes.toNat ≤ 2 ^ 29) runs
  constructor
  · intro nodeID
    have once : ∀ c ∈ s.calls, ∀ tp ∈ c.call.cfg.requested,
        (c.call.tried tp).countP (fun id => id = nodeID) ≤ 1 := by
      intro c mem tp listed
      have alone := (inv.flow.tried c mem tp listed).1
      exact Nat.le_trans (Nat.le_of_eq (List.countP_congr fun id _ => by simp))
        (List.nodup_iff_count_le_one.mp alone nodeID)
    have sent := inv.flow.count_sent_le (fun id => id = nodeID) tp r once
    rwa [Nat.one_mul] at sent
  · have few : ∀ c ∈ s.calls, ∀ tp ∈ c.call.cfg.requested,
        (c.call.tried tp).countP (fun _ => true) ≤ max 1 cfg.maxHedgeAgents := by
      intro c mem tp listed
      rw [← inv.same, ← inv.flow.budget c mem]
      exact Nat.le_trans List.countP_le_length (inv.flow.tried c mem tp listed).2
    have sent := inv.flow.count_sent_le (fun _ => true) tp r few
    rwa [List.filter_true] at sent

theorem record_reaches_each_agent_once_hedged :
    letI := Snappy.stored
    ∃ s r, Machine.run ProducePath.step (ProducePath.init ⟨16000000, 3⟩) hedgedRecord = some s ∧
      (s.wire.flatMap (·.sentRecords ⟨"t", 0⟩)).count r = 2 ∧
      ∀ nodeID : Int, ((s.wire.filter fun a => a.target.nodeID = nodeID).flatMap
        (·.sentRecords ⟨"t", 0⟩)).count r ≤
          ((partitionRecords ⟨"t", 0⟩ (hedgedRecord.flatMap (ProduceAction.added ⟨16000000, 3⟩))).map
            bareRecord).count r := by
  let _ := Snappy.stored
  have state : (Machine.run ProducePath.step (ProducePath.init ⟨16000000, 3⟩) hedgedRecord).map
      (fun s => (s.wire.flatMap (·.sentRecords ⟨"t", 0⟩)).count
        (bareRecord (ensureRecordTimestamp { topic := "t" } (.unix 1)))) =
        some 2 := by decide +kernel
  obtain ⟨s, runs, twice⟩ := Option.map_eq_some_iff.mp state
  exact ⟨s, _, runs, twice, (record_reaches_each_agent_once (by decide) runs _ _).1⟩

end Warpstream
