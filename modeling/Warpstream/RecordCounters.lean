import Warpstream.ClientMetrics
import Warpstream.DemoterCandidates
import Warpstream.Lib.Machine
import Warpstream.Lib.Pool

set_option autoImplicit false

/- The record counters of a client reconcile with what its callers are told. -/
namespace Warpstream

namespace ProduceSync

open ProduceSyncCall

variable {call : ProduceSyncCall} {s s' : ProduceSync}

/-- The groups that are owed are whole partitions with an agent, and so were those that were
completed. -/
structure Kept (call : ProduceSyncCall) (s : ProduceSync) : Prop where
  outstanding : ∀ g ∈ s.outstanding,
    g.records.length = call.countOf g.tp ∧ (call.candidatesWithRoute g.tp).1 ≠ []
  delivered : ∀ d ∈ s.delivered, (call.candidatesWithRoute d.1).1 ≠ []

/-- The records that the completions so far counted as failed. -/
def failedCount (call : ProduceSyncCall) (s : ProduceSync) : Nat :=
  (s.delivered.map fun d =>
    if (recordErrFromResult d.2 d.1).isSome then call.countOf d.1 else 0).sum

theorem leave_frame (call : ProduceSyncCall) (s : ProduceSync) :
    (leave call s).outstanding = s.outstanding ∧ (leave call s).delivered = s.delivered := by
  rw [leave, fireUnbuffered]
  split <;> exact ⟨rfl, rfl⟩

theorem start_frame (call : ProduceSyncCall) :
    (∀ g ∈ (start call).outstanding, g ∈ call.routing.groups) ∧ (start call).delivered = [] := by
  have none {groups : List RoutedGroup} : ∀ g ∈ ([] : List RoutedGroup), g ∈ groups :=
    fun _ mem => absurd mem List.not_mem_nil
  unfold start
  split
  · exact ⟨none, rfl⟩
  · split
    · rw [fireUnbuffered]
      split <;> exact ⟨none, rfl⟩
    · rename_i accepted
      obtain ⟨results, counter, wrote, -⟩ := waiting_dispatch accepted
        (routed_routeRecords call.candidatesWithRoute call.seeded (call.okRecords.map Prod.fst))
      dsimp only
      rw [wrote]
      split
      · obtain ⟨outstanding, delivered⟩ := leave_frame call { sized call with results, counter }
        rw [outstanding, delivered]
        exact ⟨none, rfl⟩
      · exact ⟨fun _ mem => mem, rfl⟩

theorem kept_start (call : ProduceSyncCall) : (start call).Kept call := by
  obtain ⟨outstanding, delivered⟩ := start_frame call
  refine ⟨fun g mem => ⟨call.length_group (outstanding g mem), ?_⟩, ?_⟩
  · obtain ⟨-, -, others, answer⟩ := call.routed_routing.groups g (outstanding g mem)
    rw [answer]
    exact List.cons_ne_nil _ _
  · rw [delivered]
    exact fun d mem => absurd mem List.not_mem_nil

theorem failedCount_start (call : ProduceSyncCall) : (start call).failedCount call = 0 := by
  rw [failedCount, (start_frame call).2]
  rfl

/-- A step keeps the groups whole, and counts what a completion fails. -/
theorem Kept.step {a : ProduceSyncAction} (kept : s.Kept call)
    (stepped : step call s a = some s') :
    s'.Kept call ∧ s'.failedCount call = s.failedCount call + s.failedBy a := by
  cases a with
  | done i res =>
      rw [ProduceSync.step] at stepped
      split at stepped
      · cases stepped
      · obtain ⟨g, here, rfl⟩ := Option.map_eq_some_iff.mp stepped
        obtain ⟨whole, agent⟩ := kept.outstanding g (List.mem_of_getElem? here)
        refine ⟨⟨fun g mem => kept.outstanding g (List.mem_of_mem_eraseIdx mem), ?_⟩, ?_⟩
        · intro d mem
          rcases List.mem_append.mp mem with old | new
          · exact kept.delivered d old
          · rw [List.mem_singleton.mp new]
            exact agent
        · dsimp only [failedCount, failedBy, complete]
          rw [here, List.map_append, List.sum_append, List.map_singleton, List.sum_singleton]
          dsimp only
          rw [whole]
  | write j =>
      rw [ProduceSync.step] at stepped
      split at stepped
      · obtain rfl := Option.some.inj stepped
        exact ⟨⟨kept.outstanding, kept.delivered⟩, rfl⟩
      · cases stepped
  | wake =>
      rw [ProduceSync.step] at stepped
      split at stepped
      · obtain rfl := Option.some.inj stepped
        obtain ⟨outstanding, delivered⟩ := leave_frame call s
        refine ⟨⟨outstanding ▸ kept.outstanding, delivered ▸ kept.delivered⟩, ?_⟩
        rw [failedCount, delivered]
        rfl
      · cases stepped

/-- A partition was completed with a chosen outcome. -/
def told (s : ProduceSync) (chosen : Option GoError → Bool) (tp : TopicPartition) : Bool :=
  s.delivered.any fun d => decide (tp = d.1) && chosen (recordErrFromResult d.2 d.1)

theorem told_of_mem {tp : TopicPartition} {res : ProduceResult}
    (once : (s.delivered.map Prod.fst).Nodup) (mem : (tp, res) ∈ s.delivered)
    (chosen : Option GoError → Bool) :
    s.told chosen tp = chosen (recordErrFromResult res tp) := by
  rw [Bool.eq_iff_iff, told, List.any_eq_true]
  constructor
  · rintro ⟨d, inside, yes⟩
    rw [Bool.and_eq_true, decide_eq_true_eq] at yes
    have same : d = (tp, res) := List.inj_on_of_nodup_map once inside mem yes.1.symm
    rw [same] at yes
    exact yes.2
  · intro yes
    exact ⟨_, mem, by simpa using yes⟩

theorem Kept.told_of_missed (kept : s.Kept call) {r : RecordPtr} (missed : call.missed r = true)
    (chosen : Option GoError → Bool) : s.told chosen (call.heap r).topicPartition = false := by
  apply List.any_eq_false.mpr
  intro d mem
  have other : (call.heap r).topicPartition ≠ d.1 := by
    intro same
    apply kept.delivered d mem
    rw [← same]
    exact List.isEmpty_iff.mp missed
  simp [other]

/-- The outcome at a position: an error if the record was rejected, else what the group of its
partition was completed with. -/
theorem Finished.position (finished : s.Finished call) {i : Nat} {r : RecordPtr}
    (here : call.records[i]? = some r) :
    ∃ err, s.results[i]? = some ⟨some r, err⟩ ∧
      (call.tooLarge r = true ∨ call.missed r = true → err.isNone = false) ∧
      (call.tooLarge r = false → call.missed r = false →
        ∀ chosen, s.told chosen (call.heap r).topicPartition = chosen err) := by
  obtain ⟨err, found, reports⟩ := finished.each i r here
  refine ⟨err, found, ?_⟩
  rw [Reports] at reports
  rw [tooLarge_eq]
  split at reports
  · rename_i large
    refine ⟨fun _ => by rw [reports]; rfl, fun fits => ?_⟩
    exact absurd large (of_decide_eq_false fits)
  · rename_i fits
    split at reports
    · rename_i nobody
      refine ⟨fun _ => by rw [reports]; rfl, fun _ answered => ?_⟩
      rw [missed, nobody] at answered
      cases answered
    · rename_i somebody
      obtain ⟨res, mem, rfl⟩ := reports
      refine ⟨fun rejected => ?_, fun _ _ => told_of_mem finished.once mem⟩
      rcases rejected with large | missed
      · exact absurd (of_decide_eq_true large) fits
      · exact absurd (List.isEmpty_iff.mp missed) somebody

theorem Finished.nilCount (finished : s.Finished call) :
    s.results.countP (·.err.isNone) =
      call.accepted.countP fun r =>
        !call.missed r && s.told Option.isNone (call.heap r).topicPartition := by
  rw [accepted_eq, List.countP_filter]
  apply Counting.countP_eq_of_getElem?
  intro i
  cases here : call.records[i]? with
  | none =>
      have beyond : s.results[i]? = none := by
        rw [List.getElem?_eq_none_iff] at here ⊢
        rw [finished.len]
        exact here
      rw [beyond]
      rfl
  | some r =>
      obtain ⟨err, found, rejected, routed⟩ := finished.position here
      rw [found, Option.map_some, Option.map_some]
      cases large : call.tooLarge r with
      | true => simp [rejected (Or.inl large)]
      | false =>
          cases missed : call.missed r with
          | true => simp [rejected (Or.inr missed)]
          | false => simp [routed large missed]

/-- Every routed record of a call that has returned was either reported with a nil outcome or
counted as failed. -/
theorem Finished.nil_add_failed (finished : s.Finished call) (kept : s.Kept call) :
    s.results.countP (·.err.isNone) + s.failedCount call = call.routedCount := by
  have failed : s.failedCount call =
      call.accepted.countP fun r => s.told Option.isSome (call.heap r).topicPartition :=
    Counting.sum_countP_of_nodup (fun r => (call.heap r).topicPartition) call.accepted
      (fun d => (recordErrFromResult d.2 d.1).isSome) finished.once
  have cases : ∀ r ∈ call.accepted,
      (call.missed r = true ∧ s.told Option.isSome (call.heap r).topicPartition = false) ∨
      (call.missed r = false ∧ s.told Option.isSome (call.heap r).topicPartition =
        !s.told Option.isNone (call.heap r).topicPartition) := by
    intro r mem
    obtain ⟨⟨r, i⟩, inside, rfl⟩ := List.mem_map.mp mem
    obtain ⟨here, fits⟩ := mem_okRecords.mp inside
    cases missed : call.missed r with
    | true => exact Or.inl ⟨rfl, kept.told_of_missed missed _⟩
    | false =>
        obtain ⟨err, -, -, routed⟩ := finished.position here
        refine Or.inr ⟨rfl, ?_⟩
        rw [routed fits missed, routed fits missed]
        cases err <;> rfl
  rw [finished.nilCount, failed, routedCount, ← Counting.countP_or_of_disjoint]
  · apply List.countP_congr
    intro r mem
    rcases cases r mem with ⟨missed, never⟩ | ⟨routed, other⟩
    · simp [missed, never]
    · simp [routed, other]
  · intro r mem told
    rcases cases r mem with ⟨-, never⟩ | ⟨-, other⟩
    · exact never
    · rw [Bool.and_eq_true] at told
      rw [other, told.2]
      rfl

end ProduceSync

namespace ClientCalls

variable {s s' : ClientCalls}

def failedCounts (s : ClientCalls) : Nat := (s.calls.map fun c => c.2.failedCount c.1).sum

def routedCounts (s : ClientCalls) : Nat := (s.calls.map fun c => c.1.routedCount).sum

/-- How the counters balance while promises and calls are open: a routed record of a call is
owed until the call has returned. -/
structure Balanced (s : ClientCalls) : Prop where
  calls : ∀ c ∈ s.calls, c.2.Reached c.1 ∧ c.2.Kept c.1
  outcomes : s.metrics.produceRecordsTotal + s.failedCounts =
    s.outcomes.countP (·.isNone) + s.promised.length + s.metrics.produceRecordsFailedTotal +
      s.metrics.produceRecordsRejectedTotal.total + s.routedCounts
  lookups : s.metrics.produceRecordsTotal =
    s.metrics.produceRecordsRejectedTotal.value .recordTooLarge +
      s.metrics.partitionRoutes.total + s.metrics.routingMisses.total
  misses : s.metrics.routingMisses.total =
    s.metrics.produceRecordsRejectedTotal.value .noAgentAssigned

theorem total_rejected (c : CounterVec ProduceRejectedReason) :
    c.total = c.value .recordTooLarge + c.value .noAgentAssigned := rfl

theorem Balanced.next (balanced : s.Balanced) (large missed routed fails : Nat)
    (adds : s.metrics.Adds s'.metrics large missed routed fails)
    (calls : ∀ c ∈ s'.calls, c.2.Reached c.1 ∧ c.2.Kept c.1)
    (owed : s.outcomes.countP (·.isNone) + s.promised.length + s.routedCounts +
        s'.failedCounts + routed =
      s'.outcomes.countP (·.isNone) + s'.promised.length + s'.routedCounts +
        s.failedCounts + fails) : s'.Balanced := by
  have outcomes := balanced.outcomes
  have lookups := balanced.lookups
  have misses := balanced.misses
  rw [total_rejected] at outcomes
  refine ⟨calls, ?_, ?_, ?_⟩
  · rw [total_rejected, adds.total, adds.failed, adds.tooLarge, adds.noAgent]
    omega
  · rw [adds.total, adds.tooLarge, adds.routes, adds.misses]
    omega
  · rw [adds.misses, adds.noAgent, misses]

theorem balanced_start (batchMaxBytes : Int) : Balanced { batchMaxBytes := batchMaxBytes } :=
  ⟨fun _ mem => absurd mem List.not_mem_nil, rfl, rfl, rfl⟩

theorem Balanced.produce (balanced : s.Balanced) (record : Kgo.Record)
    {answer : List Agent × RouteOutcome} (classified : Classified answer) :
    (s.produce record answer).Balanced := by
  have outcome (err : GoError) : (s.outcomes ++ [some err]).countP (·.isNone) =
      s.outcomes.countP (·.isNone) := by
    rw [List.countP_append]
    rfl
  unfold ClientCalls.produce
  dsimp only
  split
  · refine balanced.next 1 0 0 0 ⟨rfl, rfl, rfl, rfl, rfl, rfl⟩ balanced.calls ?_
    dsimp only
    rw [outcome]
    rfl
  · obtain ⟨candidates, found⟩ := answer
    cases candidates with
    | nil =>
        rw [if_pos rfl]
        refine balanced.next 0 1 0 0 ⟨rfl, rfl, rfl, rfl, rfl, CounterVec.total_add _ _ _⟩
          balanced.calls ?_
        dsimp only
        rw [outcome]
        rfl
    | cons agent others =>
        rw [if_neg (List.cons_ne_nil _ _)]
        obtain ⟨source, counted⟩ :=
          Option.ne_none_iff_exists'.mp (classified (List.cons_ne_nil _ _))
        rw [RecordMetrics.routeRecord, counted]
        refine balanced.next 0 0 1 0 ⟨rfl, rfl, rfl, rfl, CounterVec.total_add _ _ _, rfl⟩
          balanced.calls ?_
        dsimp only
        rw [List.length_append, List.length_singleton]
        change _ + _ + s.routedCounts + s.failedCounts + _ =
          _ + _ + s.routedCounts + s.failedCounts + _
        omega

theorem Balanced.produceDone (balanced : s.Balanced) {i : Nat} {tp : TopicPartition}
    (here : s.promised[i]? = some tp) (res : ProduceResult) :
    (s.produceDone i tp res).Balanced := by
  have fewer : (s.promised.eraseIdx i).length + 1 = s.promised.length := by
    have bound := (List.getElem?_eq_some_iff.mp here).1
    rw [List.length_eraseIdx_of_lt bound]
    omega
  have counted (err : Option GoError) : (s.outcomes ++ [err]).countP (·.isNone) =
      s.outcomes.countP (·.isNone) + if err.isNone then 1 else 0 := by
    rw [List.countP_append, List.countP_singleton]
  unfold ClientCalls.produceDone
  dsimp only
  cases outcome : recordErrFromResult res tp with
  | none =>
      refine balanced.next 0 0 0 0 ⟨rfl, rfl, rfl, rfl, rfl, rfl⟩ balanced.calls ?_
      dsimp only
      rw [counted none, ← fewer]
      change _ + _ + s.routedCounts + s.failedCounts + _ =
        _ + 1 + _ + s.routedCounts + s.failedCounts + _
      omega
  | some err =>
      refine balanced.next 0 0 0 1 ⟨rfl, rfl, rfl, rfl, rfl, rfl⟩ balanced.calls ?_
      dsimp only
      rw [counted (some err), ← fewer]
      change _ + _ + s.routedCounts + s.failedCounts + _ =
        _ + 0 + _ + s.routedCounts + s.failedCounts + _
      omega

theorem Balanced.produceSync (balanced : s.Balanced) (call : ProduceSyncCall)
    (classified : ∀ tp ∈ call.routing.lookups, Classified (call.candidatesWithRoute tp)) :
    Balanced
      { s with
        metrics := s.metrics.produceSync call
        calls := s.calls ++ [(call, ProduceSync.start call)] } := by
  refine balanced.next _ _ _ _ (RecordMetrics.adds_produceSync call s.metrics classified) ?_ ?_
  · intro c mem
    rcases List.mem_append.mp mem with old | new
    · exact balanced.calls c old
    · rw [List.mem_singleton.mp new]
      exact ⟨ProduceSync.reached_start call, ProduceSync.kept_start call⟩
  · have none := ProduceSync.failedCount_start call
    simp only [failedCounts, routedCounts, List.map_append, List.sum_append, List.map_singleton,
      List.sum_singleton]
    omega

theorem Balanced.sync (balanced : s.Balanced) {q : Nat} {call : ProduceSyncCall}
    {running next : ProduceSync} (here : s.calls[q]? = some (call, running))
    {action : ProduceSyncAction} (stepped : ProduceSync.step call running action = some next) :
    Balanced
      { s with
        metrics := s.metrics.failed (running.failedBy action)
        calls := s.calls.set q (call, next) } := by
  obtain ⟨reached, kept⟩ := balanced.calls _ (List.mem_of_getElem? here)
  obtain ⟨kept, grown⟩ := kept.step stepped
  refine balanced.next 0 0 0 (running.failedBy action) ⟨rfl, rfl, rfl, rfl, rfl, rfl⟩ ?_ ?_
  · intro c mem
    rcases List.mem_or_eq_of_mem_set mem with old | rfl
    · exact balanced.calls c old
    · exact ⟨(ProduceSync.reached_step reached stepped).1, kept⟩
  · have fails := Pool.sum_map_set
      (fun c : ProduceSyncCall × ProduceSync => c.2.failedCount c.1) here (call, next)
    have routes := Pool.sum_map_set
      (fun c : ProduceSyncCall × ProduceSync => c.1.routedCount) here (call, next)
    dsimp only [failedCounts, routedCounts] at fails routes grown ⊢
    omega

theorem Balanced.step {health : HealthCheckConfig} {hashTopicPartition : String → Int → UInt64}
    {action : ClientCallsAction} (balanced : s.Balanced)
    (looks : action.LooksUp health hashTopicPartition) (stepped : step s action = some s') :
    s'.Balanced := by
  cases action with
  | produce ctx record answer =>
      obtain rfl := Option.some.inj stepped
      exact balanced.produce _ (Demoter.Looks.classified looks)
  | produceDone i res =>
      obtain ⟨tp, here, rfl⟩ := Option.map_eq_some_iff.mp stepped
      exact balanced.produceDone here res
  | produceSync call =>
      rw [ClientCalls.step] at stepped
      split at stepped
      · obtain rfl := Option.some.inj stepped
        exact balanced.produceSync call fun tp asked => Demoter.Looks.classified (looks tp asked)
      · cases stepped
  | sync q action =>
      obtain ⟨⟨call, running⟩, here, stepped⟩ := Option.bind_eq_some_iff.mp stepped
      obtain ⟨next, went, stepped⟩ := Option.bind_eq_some_iff.mp stepped
      obtain rfl := Option.some.inj stepped
      exact balanced.sync here went

theorem Balanced.nil_add_failed (balanced : s.Balanced)
    (returned : ∀ c ∈ s.calls, c.2.returned = true) :
    (s.calls.map fun c => c.2.results.countP (·.err.isNone)).sum + s.failedCounts =
      s.routedCounts := by
  rw [failedCounts, routedCounts, ← List.sum_map_add]
  congr 1
  apply List.map_congr_left
  intro c mem
  obtain ⟨reached, kept⟩ := balanced.calls c mem
  exact (ProduceSync.Finished.of_reached reached (returned c mem)).nil_add_failed kept

end ClientCalls

/-- The counters of records reconcile once every promise and every call has completed: with the
outcomes that the callers saw, and with the lookups. -/
theorem record_counters_reconcile {health : HealthCheckConfig}
    {hashTopicPartition : String → Int → UInt64} {batchMaxBytes : Int}
    {actions : List ClientCallsAction} {s : ClientCalls}
    (looks : ∀ action ∈ actions, action.LooksUp health hashTopicPartition)
    (runs : Machine.run ClientCalls.step { batchMaxBytes := batchMaxBytes } actions = some s)
    (completed : s.Completed) :
    s.metrics.produceRecordsTotal = s.nilOutcomes + s.metrics.produceRecordsFailedTotal +
      s.metrics.produceRecordsRejectedTotal.total ∧
    s.metrics.produceRecordsTotal =
      s.metrics.produceRecordsRejectedTotal.value .recordTooLarge +
        s.metrics.partitionRoutes.total + s.metrics.routingMisses.total ∧
    s.metrics.routingMisses.total =
      s.metrics.produceRecordsRejectedTotal.value .noAgentAssigned := by
  have balanced := Machine.invariant_run_of_mem
    (fun action => action.LooksUp health hashTopicPartition) ClientCalls.Balanced
    (fun _ _ _ before looks stepped => before.step looks stepped)
    (ClientCalls.balanced_start batchMaxBytes) looks runs
  have outcomes := balanced.outcomes
  have told := balanced.nil_add_failed completed.calls
  rw [completed.promises, List.length_nil] at outcomes
  refine ⟨?_, balanced.lookups, balanced.misses⟩
  rw [ClientCalls.nilOutcomes]
  omega

/-- A pool of one agent, the leader of the only partition of topic `t`. -/
def oneLeader : DefaultPartitionAssignmentStrategy :=
  newDefaultPartitionAssignmentStrategy [1] (AList.insert ⟨"t", 0⟩ 1 ∅) ∅ ∅
    (AList.insert "t" 1 ∅)

def oneLeaderLookup (tp : TopicPartition) : List Agent × RouteOutcome :=
  oneLeader.candidatesWithRoute (fun _ _ => 0) tp.topic tp.partition 1

/-- A `ProduceSync` whose routed group is cancelled, and three calls of `Produce`, of which one
succeeds. -/
def mixedCalls : List ClientCallsAction :=
  [.produceSync { mixedCall with candidatesWithRoute := oneLeaderLookup },
    .produce ⟨0, true⟩ { topic := "t" } (oneLeaderLookup ⟨"t", 0⟩),
    .produce ⟨0, true⟩ { topic := "u" } (oneLeaderLookup ⟨"u", 0⟩),
    .produce ⟨0, true⟩ { topic := "t", value := some (List.replicate 40 0) }
      (oneLeaderLookup ⟨"t", 0⟩),
    .sync 0 (.done 0 { err := some { node := { text := "context canceled" } } }),
    .produceDone 0 {}, .sync 0 (.write 0), .sync 0 (.write 0), .sync 0 .wake]

theorem record_counters_reconcile_mixed :
    ∃ s, Machine.run ClientCalls.step { batchMaxBytes := 100 } mixedCalls = some s ∧
      s.Completed ∧ s.nilOutcomes = 1 ∧ s.metrics.produceRecordsFailedTotal = 2 ∧
      s.metrics.produceRecordsTotal = 3 + s.metrics.produceRecordsRejectedTotal.total ∧
      s.metrics.routingMisses.total =
        s.metrics.produceRecordsRejectedTotal.value .noAgentAssigned := by
  have ran : (Machine.run ClientCalls.step { batchMaxBytes := 100 } mixedCalls).map (fun s =>
      (s.promised.isEmpty, s.calls.all (·.2.returned), s.nilOutcomes,
        s.metrics.produceRecordsFailedTotal)) = some (true, true, 1, 2) := by decide +kernel
  obtain ⟨s, runs, seen⟩ := Option.map_eq_some_iff.mp ran
  simp only [Prod.mk.injEq, List.isEmpty_iff, List.all_eq_true] at seen
  have completed : s.Completed := ⟨seen.1, seen.2.1⟩
  have looks : ∀ action ∈ mixedCalls, action.LooksUp halfFaulty fun _ _ => 0 := by
    simp only [mixedCalls, List.forall_mem_cons]
    exact ⟨fun _ _ => Demoter.looks_of_default _ _ oneLeader _,
      Demoter.looks_of_default _ _ oneLeader _, Demoter.looks_of_default _ _ oneLeader _,
      Demoter.looks_of_default _ _ oneLeader _, trivial, trivial, trivial, trivial, trivial,
      fun _ mem => absurd mem List.not_mem_nil⟩
  have counted := record_counters_reconcile looks runs completed
  refine ⟨s, runs, completed, seen.2.2.1, seen.2.2.2, ?_, counted.2.2⟩
  rw [counted.1, seen.2.2.1, seen.2.2.2]

end Warpstream
