import Warpstream.ClientRun
import Warpstream.HedgeWavesCredit

set_option autoImplicit false

/- No run of the client reaches a branch that only a bug could reach. -/
namespace Warpstream

open RoutedBatch

section encoded

variable [Snappy]

/-- A batch that this client encoded from records. -/
def SelfEncoded (e : EncodedTopicPartitionRecords) : Prop :=
  ∃ records, records ≠ [] ∧ newEncodedTopicPartitionRecords e.topic e.partition records = some e

theorem partition_of_newEncodedTopicPartitionRecords {topic : String} {partition : Int}
    {records : List Kgo.Record} {e : EncodedTopicPartitionRecords}
    (made : newEncodedTopicPartitionRecords topic partition records = some e) :
    e.topic = topic ∧ e.partition = partition := by
  unfold newEncodedTopicPartitionRecords at made
  simp only [Option.bind_eq_bind, Option.bind_eq_some_iff] at made
  obtain ⟨batch, -, same⟩ := made
  obtain rfl := Option.some.inj same
  exact ⟨rfl, rfl⟩

theorem SelfEncoded.positive {e : EncodedTopicPartitionRecords} (encoded : SelfEncoded e) :
    0 < e.encodedStats.records := by
  obtain ⟨records, nonempty, made⟩ := encoded
  obtain ⟨e', made', -, -, counted, -⟩ :=
    newEncodedTopicPartitionRecords_stats e.topic e.partition nonempty
  obtain rfl := Option.some.inj (made.symm.trans made')
  rw [counted]
  exact List.length_pos_iff.mpr nonempty

/-- A batch of at most a gigabyte decodes. -/
theorem SelfEncoded.decodes {e : EncodedTopicPartitionRecords} (encoded : SelfEncoded e)
    (small : recordBatchHeaderBytes + e.encodedStats.uncompressedBytes ≤ 2 ^ 30) :
    ∃ records, records ≠ [] ∧ decodeBatch e.encoded = some records := by
  obtain ⟨records, nonempty, made⟩ := encoded
  obtain ⟨e', made', -, -, -, sized⟩ :=
    newEncodedTopicPartitionRecords_stats e.topic e.partition nonempty
  obtain rfl := Option.some.inj (made.symm.trans made')
  have fits : FitsBatch records := by
    rw [FitsBatch, ← sized]
    omega
  obtain ⟨e', made', -, -, decoded, -⟩ :=
    newEncodedTopicPartitionRecords_eq e.topic e.partition nonempty fits
  obtain rfl := Option.some.inj (made.symm.trans made')
  exact ⟨records.map bareRecord, by simpa using nonempty, decoded⟩

namespace RoutedEncodedTopicPartitionRecords

theorem routing_of_mergeWith (w : RoutedEncodedTopicPartitionRecords)
    (others : List RoutedEncodedTopicPartitionRecords) (merged : RoutedEncodedTopicPartitionRecords)
    (eq : w.mergeWith others = some merged) : SameRouting merged w := by
  unfold mergeWith at eq
  split at eq
  · obtain rfl := Option.some.inj eq
    exact ⟨rfl, rfl⟩
  · split at eq
    · cases eq
    · simp only [Option.bind_eq_bind, Option.bind_eq_some_iff] at eq
      obtain ⟨records, -, e, made, same⟩ := eq
      obtain rfl := Option.some.inj same
      obtain ⟨topic, partition⟩ := partition_of_newEncodedTopicPartitionRecords made
      exact ⟨congrArg₂ TopicPartition.mk topic partition, rfl⟩

theorem decodeAll_isSome {items : List RoutedEncodedTopicPartitionRecords}
    (each : ∀ o ∈ items, ∃ records, records ≠ [] ∧ decodeBatch o.encoded = some records)
    (present : items ≠ []) : ∃ records, records ≠ [] ∧ decodeAll items = some records := by
  obtain ⟨lists, decoded, held⟩ := forall₂_of_mapM
    (f := fun o : RoutedEncodedTopicPartitionRecords => decodeBatch o.encoded)
    (P := fun _ records => records ≠ []) fun o mem => by
      obtain ⟨records, nonempty, decoded⟩ := each o mem
      exact ⟨records, decoded, nonempty⟩
  refine ⟨lists.flatten, ?_, by rw [decodeAll, decoded, Option.map_some]⟩
  cases held with
  | nil => exact absurd rfl present
  | cons here _ => simp [here]

/-- Batches of one route that fit one batch together can be merged. -/
theorem mergeWith_isSome {w : RoutedEncodedTopicPartitionRecords}
    {others : List RoutedEncodedTopicPartitionRecords}
    (encoded : ∀ o ∈ w :: others, SelfEncoded o.toEncodedTopicPartitionRecords)
    (same : ∀ o ∈ others, SameRouting w o)
    (fits : others = [] ∨ ((w :: others).map uncompressedWireBytes).sum ≤ 2 ^ 30) :
    ∃ merged, w.mergeWith others = some merged := by
  unfold mergeWith
  split
  · exact ⟨w, rfl⟩
  · rename_i last tail
    have more : others ≠ [] := by
      rintro rfl
      cases tail
    have accepted : ¬ ∃ o ∈ others, w.topic ≠ o.topic ∨ w.partition ≠ o.partition ∨
        w.nodeID ≠ o.nodeID := by
      rintro ⟨o, mem, differs⟩
      obtain ⟨tp, node⟩ := same o mem
      obtain ⟨topic, partition⟩ := TopicPartition.mk.inj tp
      rcases differs with other | other | other
      · exact other topic
      · exact other partition
      · exact other node
    have each : ∀ o ∈ w :: others,
        ∃ records, records ≠ [] ∧ decodeBatch o.encoded = some records := fun o mem => by
      refine (encoded o mem).decodes (Nat.le_trans ?_ (fits.resolve_left more))
      have least := List.single_le_sum (fun _ _ => Nat.zero_le _) _
        (List.mem_map_of_mem (f := uncompressedWireBytes) mem)
      have counted := (encoded o mem).positive
      rwa [uncompressedWireBytes, if_neg (by omega)] at least
    obtain ⟨records, nonempty, decoded⟩ := decodeAll_isSome each (List.cons_ne_nil _ _)
    obtain ⟨e, made, -⟩ := newEncodedTopicPartitionRecords_stats w.topic w.partition nonempty
    rw [if_neg accepted, decoded]
    simp only [Option.bind_eq_bind, Option.bind_some, made]
    exact ⟨_, rfl⟩

theorem mergeSafe {max : Nat} (small : max ≤ 2 ^ 30) :
    MergeSafe (fun w : RoutedEncodedTopicPartitionRecords =>
      SelfEncoded w.toEncodedTopicPartitionRecords) max where
  positive _ encoded := encoded.positive
  split w encoded c mem := by
    rw [List.mem_singleton.mp mem]
    exact ⟨encoded, rfl, rfl⟩
  merge _ _ encoded same fits :=
    mergeWith_isSome encoded same (fits.imp_right fun total => Nat.le_trans total small)

end RoutedEncodedTopicPartitionRecords

end encoded

namespace RoutedTopicPartitionRecords

theorem routing_of_mergeWith (w : RoutedTopicPartitionRecords)
    (others : List RoutedTopicPartitionRecords) (merged : RoutedTopicPartitionRecords)
    (eq : w.mergeWith others = some merged) : SameRouting merged w := by
  unfold mergeWith at eq
  split at eq
  · obtain rfl := Option.some.inj eq
    exact ⟨rfl, rfl⟩
  · split at eq
    · cases eq
    · obtain rfl := Option.some.inj eq
      exact ⟨rfl, rfl⟩

theorem mergeSafe (max : Nat) :
    MergeSafe (fun w : RoutedTopicPartitionRecords => w.records ≠ []) max where
  positive _ nonempty := List.length_pos_iff.mpr nonempty
  split w nonempty c mem :=
    ⟨LawfulRoutedBatch.split_nonempty w max nonempty c mem,
      LawfulRoutedBatch.split_routing w max c mem⟩
  merge w others _ same _ := by
    obtain ⟨merged, eq, -⟩ := w.mergeWith_same others same
    exact ⟨merged, eq⟩

end RoutedTopicPartitionRecords

theorem topicPartition_unroute [Snappy] (routed : List RoutedEncodedTopicPartitionRecords) :
    (unrouteEncodedTopicPartitionRecords routed).map EncodedTopicPartitionRecords.topicPartition =
      routed.map getTopicPartition := by
  rw [unrouteEncodedTopicPartitionRecords, List.map_map]
  rfl

theorem requestBugs_eq_nil (version : Int) (topicID : String → Option TopicID)
    {partitions : List EncodedTopicPartitionRecords}
    (distinct : (partitions.map EncodedTopicPartitionRecords.topicPartition).Nodup) :
    requestBugs version topicID partitions = [] := by
  unfold requestBugs
  split
  · rename_i partition topic failed
    obtain ⟨_, same⟩ := error_of_buildMultiTopicProduceRequestFromEncoded distinct failed
    cases same
  · rfl

/-- What `flushBatch` gives the Hedger. -/
structure HedgerInput [Snappy] (primaryID : Int) (routed : List RoutedEncodedTopicPartitionRecords) :
    Prop where
  distinct : (routed.map getTopicPartition).Nodup
  node : ∀ p ∈ routed, p.nodeID = primaryID
  encoded : ∀ p ∈ routed, SelfEncoded p.toEncodedTopicPartitionRecords

theorem hedgerInput_of_encodePartitions [Snappy] {nodeID : Int}
    {wire : List RoutedTopicPartitionRecords} {routed : List RoutedEncodedTopicPartitionRecords}
    (distinct : (wire.map getTopicPartition).Nodup) (node : ∀ w ∈ wire, getNodeID w = nodeID)
    (eq : encodePartitions wire = some routed) : HedgerInput nodeID routed := by
  have each := forall₂_of_mapM_eq_some
    (P := fun (w : RoutedTopicPartitionRecords) (p : RoutedEncodedTopicPartitionRecords) =>
      getTopicPartition p = getTopicPartition w ∧ p.nodeID = nodeID ∧
        SelfEncoded p.toEncodedTopicPartitionRecords) eq fun w mem p made => by
      rw [List.mem_filter] at mem
      have nonempty : w.records ≠ [] := of_decide_eq_true mem.2
      obtain ⟨e, encoded, topic, partition, -⟩ :=
        newEncodedTopicPartitionRecords_stats w.topic w.partition nonempty
      rw [encoded] at made
      obtain rfl := Option.some.inj made
      refine ⟨?_, node w mem.1, w.records, nonempty, by rw [topic, partition, encoded]⟩
      change (⟨e.topic, e.partition⟩ : TopicPartition) = ⟨w.topic, w.partition⟩
      rw [topic, partition]
  refine ⟨?_, fun p mem => ?_, fun p mem => ?_⟩
  · have keys : routed.map getTopicPartition =
        (wire.filter fun p => p.records ≠ []).map getTopicPartition := by
      rw [← List.forall₂_eq_eq_eq, List.forall₂_map_left_iff, List.forall₂_map_right_iff]
      exact (each.imp fun _ _ here => here.1).flip
    rw [keys]
    exact distinct.sublist (List.filter_sublist.map _)
  · obtain ⟨_, -, -, same, -⟩ := exists_left_of_forall₂ each p mem
    exact same
  · obtain ⟨_, -, -, -, encoded⟩ := exists_left_of_forall₂ each p mem
    exact encoded

theorem nonempty_of_produceItem {cfg : ClientConfig} {record : Kgo.Record} {now : Time}
    {candidates : List Agent} {item : RoutedTopicPartitionRecords}
    (eq : produceItem cfg record now candidates = some item) : item.records ≠ [] := by
  unfold produceItem at eq
  split at eq
  · cases eq
  · obtain ⟨agent, -, rfl⟩ := Option.map_eq_some_iff.mp eq
    exact List.cons_ne_nil _ _

theorem ProduceSyncCall.nonempty_items (call : ProduceSyncCall) :
    ∀ w ∈ call.items, w.records ≠ [] := by
  intro w mem
  obtain ⟨g, inside, rfl⟩ := List.mem_map.mp mem
  have filled := ((routed_routeRecords call.candidatesWithRoute call.seeded
    (call.okRecords.map Prod.fst)).groups g inside).2.1
  simpa [RoutedGroup.item] using filled

namespace HedgeRun

variable [Snappy] {r r' : HedgeRun} {max : Nat}

/-- The hedge buffer and the cascades hold batches that the client encoded. -/
structure Encoded (max : Nat) (r : HedgeRun) : Prop where
  bins : r.run.buffer.Binned (fun w => SelfEncoded w.toEncodedTopicPartitionRecords) max
    r.run.tasks.flatten
  pending : ∀ call ∈ r.calls, ∀ tp p, call.cascade.acc.pending.lookup tp = some p → SelfEncoded p

theorem encoded_init (max : Nat) : (HedgeRun.init max).Encoded max :=
  ⟨ClusterRun.binned_init max, List.forall_mem_nil _⟩

theorem Encoded.begin (encoded : r.Encoded max) {cfg : HedgeConfig} {cascade : Cascade}
    (started : Cascade.start cfg = .ok cascade) (parts : ∀ p ∈ cfg.partitions, SelfEncoded p) :
    (r.begin cfg cascade).Encoded max := by
  refine ⟨encoded.bins, fun call mem tp p waits => ?_⟩
  rcases List.mem_append.mp mem with old | new
  · exact encoded.pending call old tp p waits
  · rw [List.mem_singleton.mp new] at waits
    exact parts p (pending_of_start started waits)

/-- The pending partitions of the calls once the cascade of one has changed. -/
theorem Encoded.pending_set (encoded : r.Encoded max) {q : Nat} {call call' : HedgeCall}
    (found : r.calls[q]? = some call)
    (shrinks : ∀ tp p, call'.cascade.acc.pending.lookup tp = some p →
      call.cascade.acc.pending.lookup tp = some p) :
    ∀ other ∈ r.calls.set q call', ∀ tp p,
      other.cascade.acc.pending.lookup tp = some p → SelfEncoded p := by
  intro other mem tp p waits
  rcases List.mem_or_eq_of_mem_set mem with old | rfl
  · exact encoded.pending other old tp p waits
  · exact encoded.pending call (List.mem_of_getElem? found) tp p (shrinks tp p waits)

theorem Encoded.step (encoded : r.Encoded max) (small : max ≤ 2 ^ 30) {action : HedgeAction}
    (noCall : ∀ cfg, action ≠ .call cfg) (stepped : r.step action = some r') : r'.Encoded max := by
  cases steps_of_step stepped with
  | call cfg => exact absurd rfl (noCall cfg)
  | dispatch q call order legs tried chosen found pending picked grouped =>
      refine ⟨ClusterRun.binned_spawn encoded.bins fun op mem => ?_,
        encoded.pending_set found fun _ _ waits => waits⟩
      obtain ⟨leg, inside, rfl⟩ : ∃ leg ∈ legs, op = .multiAdd (some r.nextCtx) leg.items [] := by
        simpa [eq_comm] using mem
      refine ⟨fun w item => ?_, fun p none => by cases none⟩
      obtain ⟨p, part, rfl⟩ := HedgeLeg.mem_items.mp item
      obtain ⟨tp, waits⟩ := pending_of_wave pending picked grouped leg inside p part
      exact encoded.pending call (List.mem_of_getElem? found) tp p waits
  | stop action q call exhaustion unread found =>
      exact ⟨encoded.bins, encoded.pending_set found fun _ _ waits => waits⟩
  | legResult q i call leg l d found waits mem owner sent =>
      exact ⟨encoded.bins, encoded.pending_set found fun tp p waits =>
        ProduceResultAccumulator.lookup_pending_of_accumulate ⟨leg.own, d.res⟩ waits⟩
  | buffer action run internal moved =>
      have adds : action.Adds fun w => SelfEncoded w.toEncodedTopicPartitionRecords :=
        ClusterAction.adds_of_isInternal internal
      exact ⟨ClusterRun.binned_step encoded.bins
        (RoutedEncodedTopicPartitionRecords.mergeSafe small) adds moved, encoded.pending⟩

end HedgeRun

namespace ClientRun

variable [Snappy] {r r' : ClientRun} {max : Nat}

structure Safe (max : Nat) (r : ClientRun) : Prop where
  buffer : r.buffer.buffer.Binned (fun w => w.records ≠ []) max r.buffer.tasks.flatten
  calls : ∀ call ∈ r.calls, HedgerInput call.primaryID call.routed
  hedger : r.hedger.Encoded max
  bugs : r.bugs = []

theorem safe_init (cfg : ClientConfig) : (init cfg).Safe cfg.batchMaxBytes.toNat :=
  ⟨ClusterRun.binned_init _, List.forall_mem_nil _, HedgeRun.encoded_init _, rfl⟩

theorem Safe.report (safe : r.Safe max) {bugs : List InternalBug} (none : bugs = []) :
    (r.report bugs).Safe max :=
  ⟨safe.buffer, safe.calls, safe.hedger, by rw [ClientRun.report, none, safe.bugs]; rfl⟩

theorem Safe.setBuffer (safe : r.Safe max) {action : ClusterAction RoutedTopicPartitionRecords}
    {buffer : ClusterRun RoutedTopicPartitionRecords}
    (stepped : r.buffer.step action = some buffer) (adds : action.Adds fun w => w.records ≠ []) :
    Safe max { r with buffer := buffer } :=
  ⟨ClusterRun.binned_step safe.buffer (RoutedTopicPartitionRecords.mergeSafe max) adds stepped,
    safe.calls, safe.hedger, safe.bugs⟩

/-- A flush of the main buffer gives the Hedger one entry for each of its partitions. -/
theorem Safe.flushBatch (safe : r.Safe max) {task : Nat} {flush : Nat × Nat}
    {a : AgentBuffer RoutedTopicPartitionRecords Callback}
    {f : Flush RoutedTopicPartitionRecords Callback}
    {routed : List RoutedEncodedTopicPartitionRecords}
    (found : r.buffer.flushAt task = some (a, f)) (encoded : encodePartitions f.wire = some routed) :
    Safe max (hedgerProduceSync { r with flushed := r.flushed ++ [flush] } a.nodeID routed) := by
  have input : HedgerInput a.nodeID routed := by
    simp only [ClusterRun.flushAt, Option.bind_eq_bind, Option.bind_eq_some_iff] at found
    obtain ⟨⟨agent, index⟩, -, a', place, f', started, same⟩ := found
    obtain ⟨rfl, rfl⟩ := Prod.mk.inj (Option.some.inj same)
    obtain ⟨distinct, node⟩ := (safe.buffer.agents a' (List.mem_of_getElem? place)).2.wire
      RoutedTopicPartitionRecords.routing_of_mergeWith (List.mem_of_getElem? started)
    exact hedgerInput_of_encodePartitions distinct node encoded
  unfold hedgerProduceSync
  split
  · exact ⟨safe.buffer, safe.calls, safe.hedger, safe.bugs⟩
  · split
    · rename_i p misrouted
      have same := input.node p (List.mem_of_find?_eq_some misrouted)
      have differs : p.nodeID ≠ a.nodeID := by simpa using List.find?_some misrouted
      exact absurd same differs
    · refine ⟨safe.buffer, fun call mem => ?_, safe.hedger, safe.bugs⟩
      rcases List.mem_append.mp mem with old | new
      · exact safe.calls call old
      · rw [List.mem_singleton.mp new]
        exact input

theorem Safe.runHedgingAttempts (safe : r.Safe max) {q : Nat} {call : HedgerProduce}
    (found : r.calls[q]? = some call) (candidates : TopicPartition → List Agent) :
    ∃ cascade, Cascade.start (r.hedgeConfig call candidates) = .ok cascade ∧
      Safe max { r with
        calls := r.calls.set q { call with hedged := true }
        hedger := r.hedger.begin (r.hedgeConfig call candidates) cascade } := by
  have input := safe.calls call (List.mem_of_getElem? found)
  have distinct := input.distinct
  rw [← topicPartition_unroute] at distinct
  obtain ⟨acc, made, -⟩ := ProduceResultAccumulator.exists_newProduceResultAccumulator distinct
  have started : Cascade.start (r.hedgeConfig call candidates) = .ok
      { acc := acc, tried := Cascade.primaryTried (r.hedgeConfig call candidates) } := by
    rw [Cascade.start, hedgeConfig, made]
    rfl
  refine ⟨_, started, safe.buffer, fun other mem => ?_, safe.hedger.begin started ?_, safe.bugs⟩
  · rcases List.mem_or_eq_of_mem_set mem with old | rfl
    · exact safe.calls other old
    · exact input
  · intro p mem
    obtain ⟨w, inside, rfl⟩ := List.mem_map.mp mem
    exact input.encoded w inside

theorem Safe.step (safe : r.Safe max) (small : max ≤ 2 ^ 30) {action : ClientAction}
    (stepped : r.step action = some r') : r'.Safe max := by
  have hedgerStep {action : HedgeAction} (noCall : ∀ cfg, action ≠ .call cfg)
      (moved : (r.hedger.step action).map (fun hedger => { r with hedger := hedger }) = some r') :
      r'.Safe max := by
    obtain ⟨hedger, went, rfl⟩ := Option.map_eq_some_iff.mp moved
    exact ⟨safe.buffer, safe.calls, safe.hedger.step small noCall went, safe.bugs⟩
  cases action with
  | produce ctx record now candidates =>
      simp only [ClientRun.step] at stepped
      split at stepped
      · obtain rfl := Option.some.inj stepped
        exact safe
      · rename_i item accepted
        obtain ⟨buffer, added, rfl⟩ := Option.map_eq_some_iff.mp stepped
        exact safe.setBuffer added (nonempty_of_produceItem accepted)
  | produceSync ctx call =>
      simp only [ClientRun.step] at stepped
      split at stepped
      · obtain ⟨buffer, added, rfl⟩ := Option.map_eq_some_iff.mp stepped
        exact safe.setBuffer added call.nonempty_items
      · cases stepped
  | buffer action =>
      simp only [ClientRun.step] at stepped
      split at stepped
      · rename_i allowed
        rw [ClusterRun.panics_eq_false safe.buffer (RoutedTopicPartitionRecords.mergeSafe max),
          if_neg Bool.false_ne_true] at stepped
        obtain ⟨buffer, moved, rfl⟩ := Option.map_eq_some_iff.mp stepped
        refine safe.setBuffer moved ?_
        cases action with
        | add | multiAdd => simp [ClusterAction.isInternal] at allowed
        | cancel | watchFires | timerFlush | close | run => trivial
      · cases stepped
  | flushBatch task =>
      simp only [ClientRun.step, Option.bind_eq_bind, Option.bind_eq_some_iff] at stepped
      obtain ⟨flush, -, ⟨a, f⟩, found, routed, encoded, eq⟩ := stepped
      split at eq
      · cases eq
      · obtain rfl := Option.some.inj eq
        exact safe.flushBatch found encoded
  | primary q version topicID =>
      simp only [ClientRun.step, Option.bind_eq_bind, Option.bind_eq_some_iff] at stepped
      obtain ⟨call, found, eq⟩ := stepped
      obtain rfl := Option.some.inj eq
      refine safe.report (requestBugs_eq_nil version topicID ?_)
      rw [topicPartition_unroute]
      exact (safe.calls call (List.mem_of_getElem? found)).distinct
  | runHedgingAttempts q candidates =>
      simp only [ClientRun.step, Option.bind_eq_bind, Option.bind_eq_some_iff] at stepped
      obtain ⟨call, found, eq⟩ := stepped
      obtain ⟨cascade, started, next⟩ := safe.runHedgingAttempts found candidates
      have same : hedgeConfig { r with calls := r.calls.set q { call with hedged := true } } call
          candidates = r.hedgeConfig call candidates := rfl
      split at eq
      · cases eq
      · rw [same, started] at eq
        obtain rfl := Option.some.inj eq
        exact next
  | hedger action =>
      cases action with
      | call cfg => cases stepped
      | buffer action =>
          simp only [ClientRun.step] at stepped
          rw [ClusterRun.panics_eq_false safe.hedger.bins
            (RoutedEncodedTopicPartitionRecords.mergeSafe small),
            if_neg Bool.false_ne_true] at stepped
          exact hedgerStep (fun _ => by simp) stepped
      | wave | legResult | ctxDone | leaveLoop => exact hedgerStep (fun _ => by simp) stepped
  | hedgeRequest task version topicID =>
      simp only [ClientRun.step, Option.bind_eq_bind, Option.bind_eq_some_iff] at stepped
      obtain ⟨⟨a, f⟩, found, eq⟩ := stepped
      obtain rfl := Option.some.inj eq
      refine safe.report (requestBugs_eq_nil version topicID ?_)
      rw [topicPartition_unroute]
      simp only [ClusterRun.flushAt, Option.bind_eq_bind, Option.bind_eq_some_iff] at found
      obtain ⟨⟨agent, index⟩, -, a', place, f', started, same⟩ := found
      obtain ⟨rfl, rfl⟩ := Prod.mk.inj (Option.some.inj same)
      exact ((safe.hedger.bins.agents a' (List.mem_of_getElem? place)).2.wire
        RoutedEncodedTopicPartitionRecords.routing_of_mergeWith (List.mem_of_getElem? started)).1

end ClientRun

theorem ClientConfig.small_of_valid {cfg : ClientConfig} (valid : cfg.validateBatchMaxBytes = none) :
    cfg.batchMaxBytes.toNat ≤ 2 ^ 30 := by
  unfold validateBatchMaxBytes batchMaxBytesCeiling at valid
  split at valid
  · cases valid
  · split at valid
    · cases valid
    · omega

/-- Whatever is produced, whatever routing, the strategy and the agents answer, and however
calls, flushes and cascades interleave, no branch for an internal bug is taken. -/
theorem client_internal_bugs_unreachable [Snappy] {cfg : ClientConfig}
    (valid : cfg.validateBatchMaxBytes = none) {actions : List ClientAction} {r : ClientRun}
    (runs : Machine.run ClientRun.step (ClientRun.init cfg) actions = some r) : r.bugs = [] :=
  (Machine.invariant_run_all (ClientRun.Safe cfg.batchMaxBytes.toNat)
    (fun _ _ _ safe stepped => safe.step (ClientConfig.small_of_valid valid) stepped)
    (ClientRun.safe_init cfg) runs).bugs

/-- Two records of one partition in one flush, whose call sends its primary request and starts a
cascade. -/
def mergedFlush : List ClientAction :=
  let add (task : Nat) : List ClientAction :=
    .produce none { topic := "t" } (.unix 1) [{ nodeID := 1 }] ::
      List.replicate 4 (.buffer (.run task {}))
  add 0 ++ add 1 ++ [.buffer (.timerFlush 0), .flushBatch 2, .primary 0 9 fun _ => some 7,
    .runHedgingAttempts 0 fun _ => [{ nodeID := 2 }]]

theorem client_internal_bugs_unreachable_merged :
    ∃ r, Machine.run (@ClientRun.step Snappy.stored) (ClientRun.init ⟨16000000, 3⟩) mergedFlush =
        some r ∧ r.calls.length = 1 ∧ r.hedger.calls.length = 1 ∧ r.bugs = [] := by
  have ran : (Machine.run (@ClientRun.step Snappy.stored) (ClientRun.init ⟨16000000, 3⟩)
      mergedFlush).any (fun r => r.calls.length = 1 && r.hedger.calls.length = 1) = true := by
    decide +kernel
  obtain ⟨r, runs, made⟩ := (Option.any_eq_true _ _).mp ran
  rw [Bool.and_eq_true] at made
  exact ⟨r, runs, of_decide_eq_true made.1, of_decide_eq_true made.2,
    @client_internal_bugs_unreachable Snappy.stored _ (by decide) _ _ runs⟩

end Warpstream
