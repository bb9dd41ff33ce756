import Warpstream.ClientProduceSyncReports
import Warpstream.DemoterRoutes
import Warpstream.Lib.Counting

set_option autoImplicit false

/- The counters of records: what `Produce` and `ProduceSync` count on each of their paths, and
how the counts reconcile once every promise and every call is through. -/
namespace Warpstream

/-- The label of `produceRecordsRejectedTotal`. -/
inductive ProduceRejectedReason where
  | recordTooLarge
  | noAgentAssigned
deriving DecidableEq, Repr

instance : Fintype ProduceRejectedReason :=
  Fintype.ofList [.recordTooLarge, .noAgentAssigned] fun reason => by cases reason <;> simp

/-- The counters of `clientMetrics` that count records. -/
structure RecordMetrics where
  produceRecordsTotal : Nat := 0
  produceRecordsFailedTotal : Nat := 0
  produceRecordsRejectedTotal : CounterVec ProduceRejectedReason := {}
  partitionRoutes : CounterVec RouteSource := {}
  routingMisses : CounterVec RoutingMissReason := {}

/-- The array `routes` of `routeRecords`. -/
def Routing.routes (s : Routing) : CounterVec RouteSource :=
  s.groups.foldl
    (fun routes g =>
      match g.found.2.routeSource with
      | some source => routes.add source g.records.length
      | none => routes) {}

/-- The array `misses` of `routeRecords`. -/
def Routing.misses (s : Routing) : CounterVec RoutingMissReason :=
  s.rejected.foldl (fun misses g => misses.add g.found.2.missReason g.records.length) {}

namespace RecordMetrics

def produced (m : RecordMetrics) (n : Nat) : RecordMetrics :=
  { m with produceRecordsTotal := m.produceRecordsTotal + n }

def failed (m : RecordMetrics) (n : Nat) : RecordMetrics :=
  { m with produceRecordsFailedTotal := m.produceRecordsFailedTotal + n }

def rejected (m : RecordMetrics) (reason : ProduceRejectedReason) (n : Nat) : RecordMetrics :=
  { m with produceRecordsRejectedTotal := m.produceRecordsRejectedTotal.add reason n }

/-- What `routeRecord` counts. -/
def routeRecord (m : RecordMetrics) : List Agent × RouteOutcome → RecordMetrics
  | ([], outcome) => { m with routingMisses := m.routingMisses.add outcome.missReason 1 }
  | (_ :: _, outcome) =>
      match outcome.routeSource with
      | some source => { m with partitionRoutes := m.partitionRoutes.add source 1 }
      | none => m

/-- What `routeRecords` counts. -/
def routeRecords (m : RecordMetrics) (s : Routing) : RecordMetrics :=
  { m with
    partitionRoutes := m.partitionRoutes.addPositive s.routes
    routingMisses := m.routingMisses.addPositive s.misses }

/-- What `ProduceSync` counts before it waits. -/
def produceSync (m : RecordMetrics) (call : ProduceSyncCall) : RecordMetrics :=
  if call.records = [] then m
  else
    let m := m.produced call.records.length
    let m := call.records.foldl
      (fun m r => if call.tooLarge r then m.rejected .recordTooLarge 1 else m) m
    if call.okRecords = [] then m
    else
      let routing :=
        Warpstream.routeRecords call.candidatesWithRoute call.seeded (call.okRecords.map Prod.fst)
      routing.rejected.foldl (fun m g => m.rejected .noAgentAssigned g.records.length)
        (m.routeRecords routing)

end RecordMetrics

/-- The calls of a client that share its counters. `promised` are the partitions of the records
whose promise the buffer owes, `outcomes` what the promises were called with. -/
structure ClientCalls where
  batchMaxBytes : Int
  metrics : RecordMetrics := {}
  promised : List TopicPartition := []
  outcomes : List (Option GoError) := []
  calls : List (ProduceSyncCall × ProduceSync) := []

/-- The answers of the lookups and the results of the buffer are left open: a cancelled context
is one of the results. -/
inductive ClientCallsAction where
  | produce (ctx : Context) (record : Kgo.Record) (answer : List Agent × RouteOutcome)
  /-- the buffer completes the record of a `Produce` -/
  | produceDone (i : Nat) (res : ProduceResult)
  | produceSync (call : ProduceSyncCall)
  /-- a step of a `ProduceSync` -/
  | sync (q : Nat) (action : ProduceSyncAction)

/-- The records that the completion of a group counts as failed. -/
def ProduceSync.failedBy (s : ProduceSync) : ProduceSyncAction → Nat
  | .done i res =>
      match s.outstanding[i]? with
      | some g => if (recordErrFromResult res g.tp).isSome then g.records.length else 0
      | none => 0
  | _ => 0

namespace ClientCalls

def produce (s : ClientCalls) (record : Kgo.Record) (answer : List Agent × RouteOutcome) :
    ClientCalls :=
  let metrics := s.metrics.produced 1
  if s.batchMaxBytes < singleRecordBatchEstimateBytes record then
    { s with
      metrics := metrics.rejected .recordTooLarge 1
      outcomes := s.outcomes ++ [some (errRecordTooLarge record)] }
  else
    let metrics := metrics.routeRecord answer
    if answer.1 = [] then
      { s with
        metrics := metrics.rejected .noAgentAssigned 1
        outcomes := s.outcomes ++ [some (noAgentAssigned record.topicPartition)] }
    else { s with metrics := metrics, promised := s.promised ++ [record.topicPartition] }

/-- The callback that `Produce` hands to the buffer. -/
def produceDone (s : ClientCalls) (i : Nat) (tp : TopicPartition) (res : ProduceResult) :
    ClientCalls :=
  let resErr := recordErrFromResult res tp
  { s with
    metrics := if resErr.isSome then s.metrics.failed 1 else s.metrics
    promised := s.promised.eraseIdx i
    outcomes := s.outcomes ++ [resErr] }

def step (s : ClientCalls) : ClientCallsAction → Option ClientCalls
  | .produce ctx record answer => some (s.produce (ensureRecordContext record ctx) answer)
  | .produceDone i res => (s.promised[i]?).map fun tp => s.produceDone i tp res
  | .produceSync call =>
      if call.batchMaxBytes = s.batchMaxBytes then
        some
          { s with
            metrics := s.metrics.produceSync call
            calls := s.calls ++ [(call, ProduceSync.start call)] }
      else none
  | .sync q action => do
      let (call, running) ← s.calls[q]?
      let next ← ProduceSync.step call running action
      some
        { s with
          metrics := s.metrics.failed (running.failedBy action)
          calls := s.calls.set q (call, next) }

/-- Every promise has been called and every `ProduceSync` has returned. -/
structure Completed (s : ClientCalls) : Prop where
  promises : s.promised = []
  calls : ∀ c ∈ s.calls, c.2.returned = true

/-- The nil outcomes, of promises and of positions in the results of a call. -/
def nilOutcomes (s : ClientCalls) : Nat :=
  s.outcomes.countP (·.isNone) +
    (s.calls.map fun c => c.2.results.countP (·.err.isNone)).sum

end ClientCalls

/-- The routing of the accepted records. -/
def ProduceSyncCall.routing (call : ProduceSyncCall) : Routing :=
  routeRecords call.candidatesWithRoute call.seeded (call.okRecords.map Prod.fst)

/-- The lookups of an action are made through the Demoter over the default strategy. -/
def ClientCallsAction.LooksUp (health : HealthCheckConfig)
    (hashTopicPartition : String → Int → UInt64) : ClientCallsAction → Prop
  | .produce _ record answer =>
      Demoter.Looks health hashTopicPartition record.topicPartition answer
  | .produceSync call =>
      ∀ tp ∈ call.routing.lookups,
        Demoter.Looks health hashTopicPartition tp (call.candidatesWithRoute tp)
  | _ => True

section Counts

namespace ProduceSyncCall

variable (call : ProduceSyncCall)

/-- The partition of an accepted record has no candidate. -/
def missed (r : RecordPtr) : Bool :=
  (call.candidatesWithRoute (call.heap r).topicPartition).1.isEmpty

def accepted : List RecordPtr := call.okRecords.map Prod.fst

def missedCount : Nat := call.accepted.countP call.missed

def routedCount : Nat := call.accepted.countP fun r => !call.missed r

/-- The accepted records of a partition. -/
def countOf (tp : TopicPartition) : Nat :=
  call.accepted.countP fun r => (call.heap r).topicPartition = tp

theorem accepted_eq : call.accepted = call.records.filter fun r => !call.tooLarge r := by
  have fits : (fun ri : RecordPtr × Nat => decide (¬ call.tooLarge ri.1)) =
      (fun r => !call.tooLarge r) ∘ Prod.fst := by
    funext ri
    simp
  rw [accepted, okRecords, fits, ← List.filter_map, List.zipIdx_map_fst]

theorem length_records : call.records.length =
    call.records.countP call.tooLarge + call.missedCount + call.routedCount := by
  have sizes := Counting.length_eq_countP_add_not call.tooLarge call.records
  have lookups := Counting.length_eq_countP_add_not call.missed call.accepted
  rw [List.countP_eq_length_filter (p := fun r => !call.tooLarge r), ← accepted_eq] at sizes
  rw [missedCount, routedCount]
  omega

end ProduceSyncCall

namespace Routing.Routed

variable {candidatesWithRoute : TopicPartition → List Agent × RouteOutcome} {heap : RecordHeap}
  {records : List RecordPtr} {s : Routing}

/-- A group holds all the records of its partition. -/
theorem length_of_mem (routed : s.Routed candidatesWithRoute heap records) {g : RoutedGroup}
    (mem : g ∈ s.groups) :
    g.records.length = records.countP fun r => (heap r).topicPartition = g.tp := by
  obtain ⟨before, after, parts⟩ := List.append_of_mem mem
  have distinct := routed.distinct
  rw [parts, List.map_append, List.map_cons, List.append_assoc, List.cons_append,
    List.nodup_append] at distinct
  obtain ⟨-, later, apart⟩ := distinct
  have fresh := (List.nodup_cons.mp later).1
  rw [List.mem_append, not_or] at fresh
  have none_of {β : Type} (groups : List (PartitionGroup β)) (others : g.tp ∉ groups.map (·.tp))
      (same : ∀ g ∈ groups, ∀ r ∈ g.records, (heap r).topicPartition = g.tp) :
      (groups.flatMap (·.records)).countP (fun r => (heap r).topicPartition = g.tp) = 0 := by
    apply List.countP_eq_zero.mpr
    intro r inside here
    obtain ⟨other, at_other, inside⟩ := List.mem_flatMap.mp inside
    rw [decide_eq_true_eq, same other at_other r inside] at here
    exact others (List.mem_map.mpr ⟨other, at_other, here⟩)
  have groups := fun other inside => (routed.groups other inside).1
  have first := none_of before
    (fun inside => apart g.tp inside g.tp List.mem_cons_self rfl)
    (fun other inside => groups other (parts ▸ List.mem_append_left _ inside))
  have last := none_of after fresh.1
    (fun other inside => groups other
      (parts ▸ List.mem_append_right _ (List.mem_cons_of_mem _ inside)))
  have nowhere := none_of s.rejected fresh.2 fun other inside => (routed.rejected other inside).1
  have own : g.records.countP (fun r => (heap r).topicPartition = g.tp) = g.records.length := by
    apply List.countP_eq_length.mpr
    intro r inside
    exact decide_eq_true (groups g mem r inside)
  rw [← routed.all.countP_eq, parts, List.flatMap_append, List.flatMap_cons, List.countP_append,
    List.countP_append, List.countP_append, first, last, nowhere, own]
  omega

theorem total_routes (routed : s.Routed candidatesWithRoute heap records)
    (classified : ∀ tp ∈ s.lookups, Classified (candidatesWithRoute tp)) :
    s.routes.total = (s.groups.flatMap (·.records)).length := by
  have counted : ∀ g ∈ s.groups, g.found.2.routeSource ≠ none := by
    intro g mem
    obtain ⟨-, -, others, answer⟩ := routed.groups g mem
    have asked : g.tp ∈ s.lookups :=
      routed.lookups.mem_iff.mpr (List.mem_append_left _ (List.mem_map_of_mem mem))
    have source := classified g.tp asked
    rw [answer] at source
    exact source (List.cons_ne_nil _ _)
  have fold (groups : List RoutedGroup) (counted : ∀ g ∈ groups, g.found.2.routeSource ≠ none)
      (c : CounterVec RouteSource) :
      (groups.foldl (fun routes g =>
        match g.found.2.routeSource with
        | some source => routes.add source g.records.length
        | none => routes) c).total = c.total + (groups.flatMap (·.records)).length := by
    induction groups generalizing c with
    | nil => rfl
    | cons g rest ih =>
        obtain ⟨source, found⟩ := Option.ne_none_iff_exists'.mp (counted g List.mem_cons_self)
        rw [List.foldl_cons, found, ih fun g mem => counted g (List.mem_cons_of_mem _ mem),
          CounterVec.total_add, List.flatMap_cons, List.length_append]
        omega
  rw [Routing.routes, fold s.groups counted, CounterVec.total_empty, Nat.zero_add]

end Routing.Routed

theorem Routing.total_misses (s : Routing) :
    s.misses.total = (s.rejected.flatMap (·.records)).length := by
  have fold (groups : List RejectedGroup) (c : CounterVec RoutingMissReason) :
      (groups.foldl (fun misses g => misses.add g.found.2.missReason g.records.length) c).total =
        c.total + (groups.flatMap (·.records)).length := by
    induction groups generalizing c with
    | nil => rfl
    | cons g rest ih =>
        rw [List.foldl_cons, ih, CounterVec.total_add, List.flatMap_cons, List.length_append]
        omega
  rw [Routing.misses, fold, CounterVec.total_empty, Nat.zero_add]

namespace ProduceSyncCall

variable (call : ProduceSyncCall)

theorem routed_routing :
    call.routing.Routed call.candidatesWithRoute call.seeded call.accepted :=
  routed_routeRecords _ _ _

theorem missed_of_rejected :
    ∀ r ∈ call.routing.rejected.flatMap (·.records), call.missed r = true := by
  intro r inside
  obtain ⟨g, mem, inside⟩ := List.mem_flatMap.mp inside
  obtain ⟨same, nobody, -⟩ := call.routed_routing.rejected g mem
  have here := same r inside
  rw [seeded_topicPartition] at here
  rw [missed, here, nobody]
  rfl

theorem not_missed_of_routed :
    ∀ r ∈ call.routing.groups.flatMap (·.records), call.missed r = false := by
  intro r inside
  obtain ⟨g, mem, inside⟩ := List.mem_flatMap.mp inside
  obtain ⟨same, -, others, answer⟩ := call.routed_routing.groups g mem
  have here := same r inside
  rw [seeded_topicPartition] at here
  rw [missed, here, answer]
  rfl

theorem length_routed :
    (call.routing.groups.flatMap (·.records)).length = call.routedCount := by
  have none : (call.routing.rejected.flatMap (·.records)).countP (fun r => !call.missed r) = 0 := by
    apply List.countP_eq_zero.mpr
    intro r inside
    simp [call.missed_of_rejected r inside]
  have all : (call.routing.groups.flatMap (·.records)).countP (fun r => !call.missed r) =
      (call.routing.groups.flatMap (·.records)).length := by
    apply List.countP_eq_length.mpr
    intro r inside
    rw [call.not_missed_of_routed r inside]
    rfl
  rw [routedCount, ← call.routed_routing.all.countP_eq, List.countP_append, none, all,
    Nat.add_zero]

theorem length_missed :
    (call.routing.rejected.flatMap (·.records)).length = call.missedCount := by
  have everything := call.routed_routing.all.length_eq
  have split := Counting.length_eq_countP_add_not call.missed call.accepted
  have routed := call.length_routed
  rw [List.length_append] at everything
  rw [← missedCount, ← routedCount] at split
  omega

theorem length_group {g : RoutedGroup} (mem : g ∈ call.routing.groups) :
    g.records.length = call.countOf g.tp := by
  rw [call.routed_routing.length_of_mem mem, countOf]
  simp only [seeded_topicPartition]

end ProduceSyncCall

namespace RecordMetrics

/-- What a step adds to the counters: records over the limit, records without a candidate,
routed records and failed ones. -/
structure Adds (before after : RecordMetrics) (large missed routed fails : Nat) : Prop where
  total : after.produceRecordsTotal = before.produceRecordsTotal + (large + missed + routed)
  failed : after.produceRecordsFailedTotal = before.produceRecordsFailedTotal + fails
  tooLarge : after.produceRecordsRejectedTotal.value .recordTooLarge =
    before.produceRecordsRejectedTotal.value .recordTooLarge + large
  noAgent : after.produceRecordsRejectedTotal.value .noAgentAssigned =
    before.produceRecordsRejectedTotal.value .noAgentAssigned + missed
  routes : after.partitionRoutes.total = before.partitionRoutes.total + routed
  misses : after.routingMisses.total = before.routingMisses.total + missed

theorem rejected_zero (m : RecordMetrics) (reason : ProduceRejectedReason) :
    m.rejected reason 0 = m := by
  have same : m.produceRecordsRejectedTotal.add reason 0 = m.produceRecordsRejectedTotal := by
    simp [CounterVec.add]
  rw [rejected, same]

theorem rejected_rejected (m : RecordMetrics) (reason : ProduceRejectedReason) (a b : Nat) :
    (m.rejected reason a).rejected reason b = m.rejected reason (a + b) := by
  have same : (m.produceRecordsRejectedTotal.add reason a).add reason b =
      m.produceRecordsRejectedTotal.add reason (a + b) := by
    simp only [CounterVec.add, CounterVec.mk.injEq]
    funext k
    split <;> omega
  simp only [rejected, same]

theorem foldl_rejected {α : Type} {reason : ProduceRejectedReason} (n : α → Nat)
    {count : RecordMetrics → α → RecordMetrics}
    (each : ∀ m a, count m a = m.rejected reason (n a)) (l : List α) (m : RecordMetrics) :
    l.foldl count m = m.rejected reason (l.map n).sum := by
  induction l generalizing m with
  | nil => exact (m.rejected_zero reason).symm
  | cons a rest ih =>
      rw [List.foldl_cons, each, ih, rejected_rejected, List.map_cons, List.sum_cons]

theorem foldl_tooLarge (call : ProduceSyncCall) (m : RecordMetrics) :
    call.records.foldl (fun m r => if call.tooLarge r then m.rejected .recordTooLarge 1 else m) m =
      m.rejected .recordTooLarge (call.records.countP call.tooLarge) := by
  have sum (records : List RecordPtr) :
      (records.map fun r => if call.tooLarge r then 1 else 0).sum =
        records.countP call.tooLarge := by
    induction records with
    | nil => rfl
    | cons r rest ih =>
        rw [List.map_cons, List.sum_cons, ih, List.countP_cons]
        omega
  rw [foldl_rejected (fun r => if call.tooLarge r then 1 else 0), sum]
  intro m r
  split
  · rfl
  · exact (m.rejected_zero _).symm

theorem adds_produceSync (call : ProduceSyncCall) (m : RecordMetrics)
    (classified : ∀ tp ∈ call.routing.lookups, Classified (call.candidatesWithRoute tp)) :
    Adds m (m.produceSync call) (call.records.countP call.tooLarge) call.missedCount
      call.routedCount 0 := by
  have length := call.length_records
  unfold produceSync
  split
  · rename_i none
    have nothing : call.accepted = [] := by rw [ProduceSyncCall.accepted_eq, none]; rfl
    rw [none, ProduceSyncCall.missedCount, ProduceSyncCall.routedCount, nothing]
    exact ⟨rfl, rfl, rfl, rfl, rfl, rfl⟩
  · dsimp only
    rw [foldl_tooLarge]
    split
    · rename_i none
      have nothing : call.accepted = [] := by rw [ProduceSyncCall.accepted, none]; rfl
      rw [ProduceSyncCall.missedCount, ProduceSyncCall.routedCount, nothing] at length ⊢
      exact ⟨congrArg _ length, rfl, rfl, rfl, rfl, rfl⟩
    · change Adds m (call.routing.rejected.foldl _ (routeRecords _ call.routing)) _ _ _ _
      have routes := call.routed_routing.total_routes classified
      have misses := call.routing.total_misses
      have sum : (call.routing.rejected.map (·.records.length)).sum = call.missedCount := by
        rw [← call.length_missed, List.length_flatMap]
      rw [foldl_rejected (fun g : RejectedGroup => g.records.length) (fun _ _ => rfl), sum]
      refine ⟨congrArg _ length, rfl, rfl, rfl, ?_, ?_⟩
      · rw [← call.length_routed, ← routes]
        exact CounterVec.total_addPositive _ _
      · rw [← call.length_missed, ← misses]
        exact CounterVec.total_addPositive _ _

end RecordMetrics

end Counts

end Warpstream
