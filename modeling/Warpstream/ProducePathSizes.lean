import Warpstream.AgentBufferCap
import Warpstream.ClusterBufferFlow
import Warpstream.ProducePathDelivery

set_option autoImplicit false

/- How large the batches of the produce path can get. A merge counts offsets and timestamp
deltas from the start of the merged batch, which makes it at most four times as large as its
parts, so below 512 MiB every batch the client encodes can be decoded again. -/
namespace Warpstream

open RoutedBatch Kbin

section estimates

theorem varintLen_bounds (i : Int) : 1 ≤ varintLen i ∧ varintLen i ≤ 5 := by
  have word := Base128.zigzag_lt 32 i
  refine ⟨Base128.uvarintLen_pos _, (Base128.uvarintLen_le_iff _ 5 (by decide)).mpr ?_⟩
  exact Nat.lt_of_lt_of_le word (by decide)

theorem varlongLen_bounds (i : Int) : 1 ≤ varlongLen i ∧ varlongLen i ≤ 10 := by
  have word := Base128.zigzag_lt 64 i
  refine ⟨Base128.uvarintLen_pos _, (Base128.uvarintLen_le_iff _ 10 (by decide)).mpr ?_⟩
  exact Nat.lt_of_lt_of_le word (by decide)

/-- The deltas of a record take up to 15 bytes, and the record takes at least 7. -/
theorem recordEstimateBytes_le (r : Kgo.Record) (i j : Int) (tsDelta tsDelta' : Int) :
    recordEstimateBytes r i tsDelta ≤ 4 * recordEstimateBytes r j tsDelta' := by
  have offset := varintLen_bounds i
  have offset' := varintLen_bounds j
  have delta := varlongLen_bounds tsDelta
  have delta' := varlongLen_bounds tsDelta'
  have key := varintLen_bounds (int32 (fieldLen r.key))
  have value := varintLen_bounds (int32 (fieldLen r.value))
  have headers := varintLen_bounds (int32 r.headers.length)
  have length := varintLen_bounds (int32 (recordBodyBytes r i tsDelta))
  have length' := varintLen_bounds (int32 (recordBodyBytes r j tsDelta'))
  simp only [recordEstimateBytes]
  simp only [recordBodyBytes] at length length' ⊢
  omega

theorem recordsEstimateBytes_le (firstTS firstTS' : Int) (i j : Nat) (records : List Kgo.Record) :
    recordsEstimateBytes firstTS i records ≤ 4 * recordsEstimateBytes firstTS' j records := by
  induction records generalizing i j with
  | nil => exact Nat.le_refl _
  | cons r rest ih =>
      have later := ih (i + 1) (j + 1)
      have here := recordEstimateBytes_le r (int32 i) (int32 j)
        (int64 (r.timestamp.unixMilli - firstTS)) (int64 (r.timestamp.unixMilli - firstTS'))
      simp only [recordsEstimateBytes_cons]
      omega

theorem recordsEstimateBytes_flatten_le (firstTS : Int) (i : Nat) (batches : List (List Kgo.Record)) :
    recordsEstimateBytes firstTS i batches.flatten ≤
      4 * (batches.map multiRecordBatchEstimateBytes).sum := by
  induction batches generalizing i with
  | nil => exact Nat.le_refl _
  | cons batch rest ih =>
      have later := ih (i + batch.length)
      have here : recordsEstimateBytes firstTS i batch ≤
          4 * multiRecordBatchEstimateBytes batch := by
        cases batch with
        | nil => exact Nat.le_refl _
        | cons r others =>
            have rebased :=
              recordsEstimateBytes_le firstTS r.timestamp.unixMilli i 0 (r :: others)
            rw [multiRecordBatchEstimateBytes_cons]
            omega
      rw [List.flatten_cons, recordsEstimateBytes_append, List.map_cons, List.sum_cons]
      omega

/-- A merged batch is at most four times as large as its parts. -/
theorem multiRecordBatchEstimateBytes_flatten_le (batches : List (List Kgo.Record)) :
    multiRecordBatchEstimateBytes batches.flatten ≤
      4 * (batches.map multiRecordBatchEstimateBytes).sum := by
  induction batches with
  | nil => exact Nat.le_refl _
  | cons batch rest ih =>
      cases batch with
      | nil => simpa [multiRecordBatchEstimateBytes] using ih
      | cons r others =>
          have rebased := recordsEstimateBytes_le r.timestamp.unixMilli r.timestamp.unixMilli 0 0
            (r :: others)
          have later := recordsEstimateBytes_flatten_le r.timestamp.unixMilli (r :: others).length rest
          have whole : multiRecordBatchEstimateBytes (((r :: others) :: rest).flatten) =
              recordBatchHeaderBytes + recordsEstimateBytes r.timestamp.unixMilli 0
                ((r :: others) ++ rest.flatten) := rfl
          rw [whole, recordsEstimateBytes_append, List.map_cons, List.sum_cons,
            multiRecordBatchEstimateBytes_cons, Nat.zero_add]
          omega

end estimates

section gate

theorem singleRecordBatchEstimateBytes_stamp (r : Kgo.Record) (now : Time) :
    singleRecordBatchEstimateBytes (ensureRecordTimestamp r now) =
      singleRecordBatchEstimateBytes r := by
  unfold ensureRecordTimestamp
  split <;> rfl

theorem gated_of_produceItem {cfg : ClientConfig} {record : Kgo.Record} {now : Time}
    {candidates : List Agent} {item : RoutedTopicPartitionRecords}
    (made : produceItem cfg record now candidates = some item) :
    Gated cfg.batchMaxBytes.toNat item := by
  unfold produceItem at made
  split at made
  · cases made
  · rename_i fits
    obtain ⟨agent, -, rfl⟩ := Option.map_eq_some_iff.mp made
    intro r mem
    rw [List.mem_singleton.mp mem, singleRecordBatchEstimateBytes_stamp]
    omega

namespace ProduceSyncCall

variable (call : ProduceSyncCall)

theorem singleRecordBatchEstimateBytes_stamped (heap : RecordHeap) (groups : List RoutedGroup)
    (r : RecordPtr) : singleRecordBatchEstimateBytes (call.stamped heap groups r) =
      singleRecordBatchEstimateBytes (heap r) := by
  unfold stamped
  induction groups.flatMap (·.records) generalizing heap with
  | nil => rfl
  | cons p rest ih =>
      rw [List.foldl_cons, ih]
      by_cases same : r = p
      · subst same
        rw [Function.update_self, singleRecordBatchEstimateBytes_stamp]
      · rw [Function.update_of_ne same]

theorem gated_items : ∀ item ∈ call.items, Gated call.batchMaxBytes.toNat item := by
  intro item mem r inside
  obtain ⟨g, group, rfl⟩ := List.mem_map.mp mem
  obtain ⟨p, listed, rfl⟩ := List.mem_map.mp inside
  have routed := routed_routeRecords call.candidatesWithRoute call.seeded
    (call.okRecords.map Prod.fst)
  have accepted : p ∈ call.okRecords.map Prod.fst :=
    routed.all.mem_iff.mp (List.mem_append_left _ (List.mem_flatMap.mpr ⟨g, group, listed⟩))
  obtain ⟨pair, kept, rfl⟩ := List.mem_map.mp accepted
  have fits : ¬ call.tooLarge pair.1 = true := of_decide_eq_true (List.mem_filter.mp kept).2
  rw [singleRecordBatchEstimateBytes_stamped]
  simp only [tooLarge, decide_eq_true_eq] at fits
  omega

end ProduceSyncCall

end gate

namespace ClusterRun

open ClusterBuffer

variable {Good : RoutedTopicPartitionRecords → Prop} {max : Nat}
  {r r' : ClusterRun RoutedTopicPartitionRecords}
  {action : ClusterAction RoutedTopicPartitionRecords}

/-- Every entry is within the size limit. -/
def Capped (max : Nat) (r : ClusterRun RoutedTopicPartitionRecords) : Prop :=
  ∀ a ∈ r.buffer.agentBuffers, ∀ e ∈ a.entries, uncompressedWireBytes e.item ≤ max

theorem Capped.setAgent (capped : r.Capped max) {agent : Nat}
    {a after : AgentBuffer RoutedTopicPartitionRecords Callback}
    {added : List (Promised RoutedTopicPartitionRecords Callback)}
    (found : r.buffer.agentBuffers[agent]? = some a) (moves : a.Moves added after)
    (agents : r'.buffer.agentBuffers = r.buffer.agentBuffers.set agent after)
    (small : ∀ p ∈ added, uncompressedWireBytes p.item ≤ max) : r'.Capped max := by
  intro b mem e entry
  rw [agents] at mem
  rcases List.mem_or_eq_of_mem_set mem with old | rfl
  · exact capped b old e entry
  · rw [moves.entries] at entry
    rcases List.mem_append.mp entry with old | new
    · exact capped a (List.mem_of_getElem? found) e old
    · exact small e new

theorem capped_step (binned : r.buffer.Binned Good max r.tasks.flatten)
    (gated : ∀ w, Good w → Gated max w) (capped : r.Capped max)
    (stepped : r.step action = some r') : r'.Capped max := by
  cases steps_of_step stepped with
  | timerFlush agent a after found started =>
      exact capped.setAgent found (AgentBuffer.startFlushLocked_moves started).1 rfl
        (List.forall_mem_nil _)
  | run task choice op rest effect found ran =>
      have ok := binned.sound op
        (List.mem_flatten.mpr ⟨_, List.mem_of_getElem? found, List.mem_cons_self⟩)
      cases ran with
      | newAgentBuffer nodeID adding absent =>
          intro a mem e entry
          rcases List.mem_append.mp mem with old | new
          · exact capped a old e entry
          · rw [List.mem_singleton.mp new] at entry
            cases entry
      | agentAdd agent adding a after refused place added =>
          obtain ⟨b, place', good⟩ := ok
          obtain rfl := Option.some.inj (place.symm.trans place')
          have size := (binned.agents a (List.mem_of_getElem? place)).1
          obtain ⟨chunks, moves, which⟩ := chunks_of_addTo added
          refine capped.setAgent place moves rfl ?_
          rcases which with rfl | rfl | ⟨rfl, small⟩
          · exact List.forall_mem_nil _
          · rw [size]
            exact AgentBuffer.splitAll_fits _ fun p mem => gated p.item (good p mem).1
          · exact size ▸ small
      | closeAgent agent a after place closing =>
          exact capped.setAgent place (AgentBuffer.close_moves closing) rfl (List.forall_mem_nil _)
      | _ => exact capped
  | _ => exact capped

end ClusterRun

namespace ProducePath

variable [Snappy] {s s' : ProducePath} {added : List RoutedTopicPartitionRecords}

omit [Snappy] in
theorem PartOf.gated {max : Nat} (gated : ∀ item ∈ added, Gated max item)
    {w : RoutedTopicPartitionRecords} (part : PartOf added w) : Gated max w := by
  intro r mem
  obtain ⟨item, listed, -, own⟩ := part.2 r mem
  exact gated item listed r own

/-- What the client accepts passes the gate. -/
theorem gated_of_step {action : ProduceAction} (stepped : s.step action = some s') :
    ∀ item ∈ action.added s.cfg, Gated s.cfg.batchMaxBytes.toNat item := by
  cases action with
  | produce ctx record now candidates =>
      intro item mem
      exact gated_of_produceItem (Option.mem_toList.mp mem)
  | produceSync ctx call =>
      simp only [ProducePath.step] at stepped
      split at stepped
      · rename_i same
        rw [← same]
        exact call.gated_items
      · cases stepped
  | _ => exact List.forall_mem_nil _

/-- A flush of the main buffer is within the size limit. -/
structure Sized (s : ProducePath) : Prop where
  room : s.buffer.buffer.Roomy
  capped : s.buffer.Capped s.cfg.batchMaxBytes.toNat

omit [Snappy] in
theorem sized_init (cfg : ClientConfig) : (init cfg).Sized :=
  ⟨List.forall_mem_nil _, List.forall_mem_nil _⟩

theorem Sized.step (sized : s.Sized) (sound : s.Sound added)
    (gated : ∀ item ∈ added, Gated s.cfg.batchMaxBytes.toNat item) {action : ProduceAction}
    (stepped : s.step action = some s') : s'.Sized := by
  have moved {inner : ClusterAction RoutedTopicPartitionRecords}
      {buffer : ClusterRun RoutedTopicPartitionRecords} (stepped : s.buffer.step inner = some buffer) :
      Sized { s with buffer := buffer } :=
    ⟨ClusterRun.roomy_step sound.bins (mergeSafe_partOf _) sized.room stepped,
      ClusterRun.capped_step sound.bins (fun _ => PartOf.gated gated) sized.capped stepped⟩
  cases steps_of_step stepped with
  | main _ inner buffer adds items quiet went => exact moved went
  | flushReturns task c res buffer flush mem returned went => exact moved went
  | _ => exact ⟨sized.room, sized.capped⟩

theorem Sized.entries (sized : s.Sized) (sound : s.Sound added)
    {a : AgentBuffer RoutedTopicPartitionRecords Callback}
    {f : Flush RoutedTopicPartitionRecords Callback} (mem : a ∈ s.buffer.buffer.agentBuffers)
    (inside : f ∈ a.flushes) :
    ((unpromise f.entries).map uncompressedWireBytes).sum ≤ s.cfg.batchMaxBytes.toNat := by
  have each : ∀ e ∈ f.entries, uncompressedWireBytes e.item ≤ s.cfg.batchMaxBytes.toNat :=
    fun e entry => sized.capped a mem e
      (List.mem_append_left _ (List.mem_flatMap.mpr ⟨f, inside, entry⟩))
  rw [unpromise, List.map_map]
  rcases sized.room a mem f inside with one | room
  · cases entries : f.entries with
    | nil => exact Nat.zero_le _
    | cons e rest =>
        rw [entries, List.length_cons] at one
        obtain rfl := List.length_eq_zero_iff.mp (by omega : rest.length = 0)
        simpa using each e (entries ▸ List.mem_cons_self)
  · rwa [(sound.bins.agents a mem).1] at room

/-- Below 512 MiB every batch of a flush can be decoded. -/
theorem Sized.fits (sized : s.Sized) (sound : s.Sound added)
    (small : s.cfg.batchMaxBytes.toNat ≤ 2 ^ 29)
    {a : AgentBuffer RoutedTopicPartitionRecords Callback}
    {f : Flush RoutedTopicPartitionRecords Callback} (mem : a ∈ s.buffer.buffer.agentBuffers)
    (inside : f ∈ a.flushes) {w : RoutedTopicPartitionRecords} (wire : w ∈ f.wire) :
    FitsBatch w.records := by
  have bin := (sound.bins.agents a mem).2
  obtain ⟨first, others, group⟩ := (groups_of_merge
    RoutedTopicPartitionRecords.routing_of_mergeWith (bin.sums.merged f inside).2).1 w wire
  have route {o : RoutedTopicPartitionRecords} (member : o ∈ first :: others) :
      getTopicPartition o = getTopicPartition w ∧ getNodeID o = a.nodeID := by
    obtain ⟨entry, key⟩ := (group.members o).mp member
    obtain ⟨e, taken, rfl⟩ := List.mem_map.mp entry
    exact ⟨key, (bin.entries e
      (List.mem_append_left _ (List.mem_flatMap.mpr ⟨f, inside, taken⟩))).2⟩
  obtain ⟨merged, eq, -, records⟩ := LawfulRoutedBatch.mergeWith_eq first others fun o member =>
    ⟨(route List.mem_cons_self).1.trans (route (List.mem_cons_of_mem _ member)).1.symm,
      (route List.mem_cons_self).2.trans (route (List.mem_cons_of_mem _ member)).2.symm⟩
  obtain rfl := Option.some.inj (eq.symm.trans group.merged)
  have least := (group.sub.map uncompressedWireBytes).sum_le_sum fun _ _ => Nat.zero_le _
  have total := sized.entries sound mem inside
  have grown := multiRecordBatchEstimateBytes_flatten_le
    ((first :: others).map RoutedTopicPartitionRecords.records)
  have whole : merged.records =
      ((first :: others).map RoutedTopicPartitionRecords.records).flatten := records
  rw [List.map_map] at grown
  rw [FitsBatch, whole]
  have sizes : ((first :: others).map
      (multiRecordBatchEstimateBytes ∘ RoutedTopicPartitionRecords.records)).sum ≤ 2 ^ 29 :=
    Nat.le_trans least (Nat.le_trans total small)
  omega

end ProducePath

end Warpstream
