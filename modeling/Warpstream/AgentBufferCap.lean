import Warpstream.AgentBufferOrder

set_option autoImplicit false

/- The byte cap of `AgentBuffer`. The buffer bounds the sum of the standalone sizes
of the items it flushes together; what it sends for a partition is one batch of all
of them, in which later items are re-based on the first record of the first. -/
namespace Warpstream

open RoutedBatch LawfulRoutedBatch Kbin

/-- Every record of the item passes the per-record gate of `Produce`. -/
def Gated (batchMaxBytes : Nat) (item : RoutedTopicPartitionRecords) : Prop :=
  ∀ r ∈ item.records, singleRecordBatchEstimateBytes r ≤ batchMaxBytes

/-- How many bytes the records of later batches gain when their offsets and timestamp
deltas are counted from the start of the merged batch. -/
def rebaseGrowth (firstTS : Int) (offset : Nat) : List (List Kgo.Record) → Int
  | [] => 0
  | batch :: rest =>
      (recordBatchHeaderBytes + recordsEstimateBytes firstTS offset batch : Nat) -
        (multiRecordBatchEstimateBytes batch : Int) +
        rebaseGrowth firstTS (offset + batch.length) rest

/-- The growth of a group of items that are merged into one wire item. -/
def mergeGrowth : List RoutedTopicPartitionRecords → Int
  | [] => 0
  | first :: others =>
      rebaseGrowth ((first.records.head?.map fun r => r.timestamp.unixMilli).getD 0)
        first.records.length (others.map RoutedTopicPartitionRecords.records)

theorem recordsEstimateBytes_flatten (firstTS : Int) (offset : Nat)
    (batches : List (List Kgo.Record)) :
    (recordsEstimateBytes firstTS offset batches.flatten : Int) =
      (batches.map fun b => (multiRecordBatchEstimateBytes b : Int)).sum -
        recordBatchHeaderBytes * batches.length + rebaseGrowth firstTS offset batches := by
  induction batches generalizing offset with
  | nil => simp [rebaseGrowth]
  | cons batch rest ih =>
      have later := ih (offset + batch.length)
      have split := recordsEstimateBytes_append firstTS offset batch rest.flatten
      rw [List.flatten_cons, split]
      simp only [rebaseGrowth, List.map_cons, List.sum_cons, List.length_cons]
      push_cast
      rw [later]
      ring

/-- The size of a merged batch: the standalone sizes, less a header for every item
merged in, plus the growth. -/
theorem multiRecordBatchEstimateBytes_merge (first : RoutedTopicPartitionRecords)
    (others : List RoutedTopicPartitionRecords) (nonempty : first.records ≠ []) :
    (multiRecordBatchEstimateBytes
        ((first :: others).flatMap RoutedTopicPartitionRecords.records) : Int) =
      ((first :: others).map fun w => (multiRecordBatchEstimateBytes w.records : Int)).sum -
        recordBatchHeaderBytes * others.length + mergeGrowth (first :: others) := by
  obtain ⟨topic, partition, records, nodeID, nodeState⟩ := first
  cases records with
  | nil => exact absurd rfl nonempty
  | cons r rest =>
      have tail := recordsEstimateBytes_flatten r.timestamp.unixMilli (r :: rest).length
        (others.map RoutedTopicPartitionRecords.records)
      have split := recordsEstimateBytes_append r.timestamp.unixMilli 0 (r :: rest)
        (others.map RoutedTopicPartitionRecords.records).flatten
      rw [Nat.zero_add] at split
      simp only [List.flatMap_cons, List.cons_append, multiRecordBatchEstimateBytes_cons,
        List.map_cons, List.sum_cons, mergeGrowth, List.head?_cons, Option.map_some,
        Option.getD_some]
      rw [← List.cons_append, List.flatMap_def, split]
      push_cast
      rw [tail, List.length_map, List.map_map]
      simp only [Function.comp_def]
      ring

/-- What a buffer of gated items keeps: no entry, and no sum of the entries flushed
together, exceeds the cap. -/
structure AgentBuffer.Capped {D : Type} (a : AgentBuffer RoutedTopicPartitionRecords D) :
    Prop where
  ok : a.Ok
  entry : ∀ p ∈ a.entries, uncompressedWireBytes p.item ≤ a.batchMaxBytes
  pending : a.nextProduceWireBytes ≤ a.batchMaxBytes
  flushes : ∀ f ∈ a.flushes,
    (f.entries.map fun p => uncompressedWireBytes p.item).sum ≤ a.batchMaxBytes

namespace AgentBuffer

variable {D : Type}

theorem Capped.flushed {a : AgentBuffer RoutedTopicPartitionRecords D} (capped : a.Capped)
    {wire : List RoutedTopicPartitionRecords} (busy : a.nextProduceRecords ≠ 0)
    (merged : mergePromisedRoutedBatchByTopicPartition a.nextProduceItems = some wire) :
    (a.flushed wire).Capped := by
  have moves : a.Moves [] (a.flushed wire) := .flush .refl busy merged
  refine ⟨capped.ok.moves moves (by simp), ?_, Nat.zero_le _, ?_⟩
  · rw [moves.entries, List.append_nil]
    exact capped.entry
  · intro f mem
    rcases List.mem_append.mp mem with old | new
    · exact capped.flushes f old
    · rw [List.mem_singleton.mp new, ← capped.ok.sums.bytes]
      exact capped.pending

theorem Capped.appendNextProduce {a : AgentBuffer RoutedTopicPartitionRecords D}
    (capped : a.Capped) {p : Promised RoutedTopicPartitionRecords D}
    (addable : Addable a.nodeID p.item) (small : uncompressedWireBytes p.item ≤ a.batchMaxBytes)
    (room : ¬ a.overflows p.item) : (a.appendNextProduce p).Capped := by
  have moves : a.Moves [p] (a.appendNextProduce p) := Moves.refl.append p room
  refine ⟨capped.ok.moves moves (by simpa using addable), ?_, ?_, capped.flushes⟩
  · rw [moves.entries]
    intro q mem
    rcases List.mem_append.mp mem with old | new
    · exact capped.entry q old
    · rw [List.mem_singleton.mp new]
      exact small
  · change a.nextProduceWireBytes + uncompressedWireBytes p.item ≤ a.batchMaxBytes
    by_cases idle : a.nextProduceRecords = 0
    · have bytes := capped.ok.sums.bytes
      rw [capped.ok.pending_eq_nil idle] at bytes
      simp only [List.map_nil, List.sum_nil] at bytes
      omega
    · unfold overflows at room
      omega

theorem Capped.moves {a b : AgentBuffer RoutedTopicPartitionRecords D}
    {added : List (Promised RoutedTopicPartitionRecords D)} (capped : a.Capped)
    (moves : Moves a added b) (addable : ∀ p ∈ added, Addable a.nodeID p.item)
    (small : ∀ p ∈ added, uncompressedWireBytes p.item ≤ a.batchMaxBytes) : b.Capped := by
  have both := moves.invariant
    (fun b => b.Capped ∧ b.nodeID = a.nodeID ∧ b.batchMaxBytes = a.batchMaxBytes)
    (fun p => Addable a.nodeID p.item ∧ uncompressedWireBytes p.item ≤ a.batchMaxBytes)
    ⟨capped, rfl, rfl⟩ (fun p mem => ⟨addable p mem, small p mem⟩) ?_ ?_ ?_
  · exact both.1
  · rintro b wire ⟨inv, node, cap⟩ busy merged
    exact ⟨inv.flushed busy merged, node, cap⟩
  · rintro b p ⟨inv, node, cap⟩ ⟨here, fits⟩ room
    exact ⟨inv.appendNextProduce (node ▸ here) (cap ▸ fits) room, node, cap⟩
  · rintro b timer closed ⟨inv, node, cap⟩
    exact ⟨⟨inv.ok.moves (Moves.refl.flags timer closed) (by simp), inv.entry, inv.pending,
      inv.flushes⟩, node, cap⟩

/-- The chunks of a gated item fit the cap. -/
theorem split_fits {p : Promised RoutedTopicPartitionRecords D} {batchMaxBytes : Nat}
    (gated : Gated batchMaxBytes p.item) (fanIn : D) :
    ∀ c ∈ splitPromisedRoutedBatchByBatchMaxBytes p batchMaxBytes fanIn,
      uncompressedWireBytes c.item ≤ batchMaxBytes := by
  have fits := p.item.splitByMaxBytes_fits gated
  have whole := p.item.splitByMaxBytes_records batchMaxBytes
  intro c mem
  unfold splitPromisedRoutedBatchByBatchMaxBytes at mem
  simp only at mem
  split at mem
  · rename_i single
    rw [List.mem_singleton.mp mem]
    change multiRecordBatchEstimateBytes p.item.records ≤ batchMaxBytes
    change (p.item.splitByMaxBytes batchMaxBytes).length ≤ 1 at single
    match chunks : p.item.splitByMaxBytes batchMaxBytes with
    | [] =>
        rw [chunks, List.flatMap_nil] at whole
        rw [← whole]
        exact Nat.zero_le _
    | [c] =>
        have all : c.records = p.item.records := by simpa [chunks] using whole
        rw [← all]
        exact fits c (by simp [chunks])
    | _ :: _ :: _ =>
        rw [chunks] at single
        simp at single
  · obtain ⟨chunk, inside, rfl⟩ := List.mem_map.mp mem
    exact fits chunk inside

theorem splitAll_fits {items : List (Promised RoutedTopicPartitionRecords D)} {batchMaxBytes : Nat}
    (fanIn : Nat → D) (gated : ∀ p ∈ items, Gated batchMaxBytes p.item) :
    ∀ c ∈ splitAll batchMaxBytes fanIn items, uncompressedWireBytes c.item ≤ batchMaxBytes := by
  induction items generalizing fanIn with
  | nil => simp [splitAll]
  | cons p rest ih =>
      intro c mem
      rcases List.mem_append.mp mem with here | later
      · exact split_fits (gated p (by simp)) (fanIn 0) c here
      · exact ih _ (fun q inside => gated q (List.mem_cons_of_mem _ inside)) c later

theorem Capped.addChunks {a b : AgentBuffer RoutedTopicPartitionRecords D} {refused : List D}
    {chunks : List (Promised RoutedTopicPartitionRecords D)} (capped : a.Capped)
    (added : a.addChunks chunks = some (b, refused))
    (addable : ∀ p ∈ chunks, Addable a.nodeID p.item)
    (small : ∀ p ∈ chunks, uncompressedWireBytes p.item ≤ a.batchMaxBytes) : b.Capped := by
  rcases addChunks_cases added with ⟨-, rfl, -⟩ | ⟨-, -, -, moves⟩
  · exact capped
  · exact capped.moves moves addable small

theorem Capped.multiAdd {a b : AgentBuffer RoutedTopicPartitionRecords D} {refused : List D}
    {items : List (Promised RoutedTopicPartitionRecords D)} {fanIn : Nat → D} (capped : a.Capped)
    (added : a.multiAdd items fanIn = some (b, refused))
    (addable : ∀ p ∈ items, Addable a.nodeID p.item)
    (gated : ∀ p ∈ items, Gated a.batchMaxBytes p.item) : b.Capped := by
  unfold AgentBuffer.multiAdd at added
  split at added
  · rwa [← (Prod.mk.inj (Option.some.inj added)).1]
  · exact capped.addChunks added (addable_splitAll _ _ addable) (splitAll_fits _ gated)

theorem Capped.add {a b : AgentBuffer RoutedTopicPartitionRecords D} {refused : List D}
    {p : Promised RoutedTopicPartitionRecords D} {fanIn : Nat → D} (capped : a.Capped)
    (added : a.add p fanIn = some (b, refused)) (addable : Addable a.nodeID p.item)
    (gated : Gated a.batchMaxBytes p.item) : b.Capped := by
  unfold AgentBuffer.add at added
  split at added
  · rwa [← (Prod.mk.inj (Option.some.inj added)).1]
  · split at added
    · exact capped.multiAdd added (by simpa using addable) (by simpa using gated)
    · rename_i small
      exact capped.addChunks added (by simpa using addable) (by simpa using small)

end AgentBuffer

namespace AgentRun

/-- The items `Produce` and `ProduceSync` hand to the buffer of an agent. -/
def Produced (nodeID : Int) (batchMaxBytes : Nat)
    (action : AgentAction RoutedTopicPartitionRecords) : Prop :=
  ∀ item ∈ action.items, Addable nodeID item ∧ Gated batchMaxBytes item

theorem capped_step {nodeID : Int} {batchMaxBytes : Nat} (st : AgentRun RoutedTopicPartitionRecords)
    (action : AgentAction RoutedTopicPartitionRecords) (st' : AgentRun RoutedTopicPartitionRecords)
    (inv : st.buffer.Capped ∧ st.buffer.nodeID = nodeID ∧ st.buffer.batchMaxBytes = batchMaxBytes)
    (produced : Produced nodeID batchMaxBytes action) (stepped : st.step action = some st') :
    st'.buffer.Capped ∧ st'.buffer.nodeID = nodeID ∧ st'.buffer.batchMaxBytes = batchMaxBytes := by
  obtain ⟨capped, rfl, rfl⟩ := inv
  have moved {b : AgentBuffer RoutedTopicPartitionRecords Unit}
      (moves : st.buffer.Moves [] b) : b.Capped ∧ b.nodeID = st.buffer.nodeID ∧
        b.batchMaxBytes = st.buffer.batchMaxBytes :=
    ⟨capped.moves moves (by simp) (by simp), moves.config⟩
  cases action with
  | add item =>
      obtain ⟨addable, gated⟩ := produced item (by simp [AgentAction.items])
      simp only [step, Option.bind_eq_bind, Option.bind_eq_some_iff] at stepped
      obtain ⟨⟨b, refused⟩, added, eq⟩ := stepped
      obtain rfl := Option.some.inj eq
      exact ⟨capped.add added addable gated, AgentBuffer.add_config added⟩
  | multiAdd items =>
      simp only [step, Option.bind_eq_bind, Option.bind_eq_some_iff] at stepped
      obtain ⟨⟨b, refused⟩, added, eq⟩ := stepped
      obtain rfl := Option.some.inj eq
      have each : ∀ p ∈ items.map (fun item => (⟨item, ()⟩ : Promised _ Unit)),
          Addable st.buffer.nodeID p.item ∧ Gated st.buffer.batchMaxBytes p.item := by
        intro p mem
        obtain ⟨item, inside, rfl⟩ := List.mem_map.mp mem
        exact produced item inside
      exact ⟨capped.multiAdd added (fun p mem => (each p mem).1) (fun p mem => (each p mem).2),
        AgentBuffer.multiAdd_config added⟩
  | timerFlush =>
      obtain ⟨b, started, rfl⟩ := Option.map_eq_some_iff.mp stepped
      exact moved (AgentBuffer.startFlushLocked_moves started).1
  | close =>
      obtain ⟨b, closing, rfl⟩ := Option.map_eq_some_iff.mp stepped
      rcases AgentBuffer.close_cases closing with ⟨-, rfl⟩ | ⟨-, -, -, moves⟩
      · exact ⟨capped, rfl, rfl⟩
      · exact moved moves
  | callFlush i =>
      simp only [step] at stepped
      split at stepped
      · obtain rfl := Option.some.inj stepped
        exact ⟨capped, rfl, rfl⟩
      · cases stepped
  | finishFlush i =>
      simp only [step] at stepped
      split at stepped
      · obtain rfl := Option.some.inj stepped
        exact ⟨capped, rfl, rfl⟩
      · cases stepped
  | closeReturn =>
      simp only [step] at stepped
      split at stepped
      · obtain rfl := Option.some.inj stepped
        exact ⟨capped, rfl, rfl⟩
      · cases stepped

theorem capped_init (nodeID : Int) (batchMaxBytes : Nat) :
    (init nodeID batchMaxBytes : AgentRun RoutedTopicPartitionRecords).buffer.Capped ∧
      (init nodeID batchMaxBytes : AgentRun RoutedTopicPartitionRecords).buffer.nodeID = nodeID ∧
      (init nodeID batchMaxBytes : AgentRun RoutedTopicPartitionRecords).buffer.batchMaxBytes =
        batchMaxBytes := by
  have start := inv_init (W := RoutedTopicPartitionRecords) nodeID batchMaxBytes
  exact ⟨⟨start.ok, by simp [init, AgentBuffer.entries], Nat.zero_le _, by simp [init]⟩, rfl, rfl⟩

end AgentRun

/-- Merging the items of a partition grows their records by no more than the headers that
it saves. -/
def GrowthFits (group : List RoutedTopicPartitionRecords) : Prop :=
  mergeGrowth group ≤ recordBatchHeaderBytes * (group.length - 1 : Int)

instance (group : List RoutedTopicPartitionRecords) : Decidable (GrowthFits group) :=
  inferInstanceAs (Decidable (_ ≤ _))

/-- A merged batch is then no larger than the items it is made of. -/
theorem GrowthFits.merged {group : TopicPartition × List RoutedTopicPartitionRecords}
    {wire : RoutedTopicPartitionRecords} (fits : GrowthFits group.2) (merged : Merged group wire)
    (members : group.2 ≠ []) (nonempty : ∀ w ∈ group.2, w.records ≠ []) :
    multiRecordBatchEstimateBytes wire.records ≤
      (group.2.map fun w => multiRecordBatchEstimateBytes w.records).sum := by
  obtain ⟨tp, items⟩ := group
  cases items with
  | nil => exact absurd rfl members
  | cons first others =>
      have joined : wire.records =
          (first :: others).flatMap RoutedTopicPartitionRecords.records := merged.records
      have size := multiRecordBatchEstimateBytes_merge first others (nonempty first (by simp))
      have sum : (((first :: others).map fun w =>
          multiRecordBatchEstimateBytes w.records).sum : Int) =
          ((first :: others).map fun w => (multiRecordBatchEstimateBytes w.records : Int)).sum := by
        rw [Nat.cast_list_sum, List.map_map]
        rfl
      rw [← joined] at size
      unfold GrowthFits at fits
      simp only [List.length_cons] at fits
      push_cast at fits
      apply Int.ofNat_le.mp
      rw [sum]
      linarith

namespace AgentBuffer

variable {D : Type} {a b : AgentBuffer RoutedTopicPartitionRecords D}

/-- What is pending can be merged, partition by partition, without outgrowing the sum of the
standalone sizes. -/
def mergesWithin (a : AgentBuffer RoutedTopicPartitionRecords D) : Bool :=
  (FirstSeen.groupBy getTopicPartition (unpromise a.nextProduceItems)).all fun group =>
    GrowthFits group.2

/-- The same before an item that does not fit, and so flushes what is pending. -/
def overflowMergesWithin (a : AgentBuffer RoutedTopicPartitionRecords D)
    (p : Promised RoutedTopicPartitionRecords D) : Bool :=
  !a.overflows p.item || a.mergesWithin

/-- Every wire entry handed to a flush is within the cap. -/
def WireCapped (a : AgentBuffer RoutedTopicPartitionRecords D) : Prop :=
  ∀ f ∈ a.flushes, ∀ w ∈ f.wire, multiRecordBatchEstimateBytes w.records ≤ a.batchMaxBytes

theorem WireCapped.flushed (wires : a.WireCapped) (capped : a.Capped)
    (within : a.mergesWithin = true) {wire : List RoutedTopicPartitionRecords}
    (merged : mergePromisedRoutedBatchByTopicPartition a.nextProduceItems = some wire) :
    (a.flushed wire).WireCapped := by
  have pending : ∀ w ∈ unpromise a.nextProduceItems, Addable a.nodeID w := by
    intro w inside
    obtain ⟨p, entry, rfl⟩ := List.mem_map.mp inside
    exact capped.ok.pending p entry
  have groups := FirstSeen.groups_groupBy getTopicPartition (unpromise a.nextProduceItems)
  have each : ∀ group ∈ FirstSeen.groupBy getTopicPartition (unpromise a.nextProduceItems),
      ∃ wire, mergeGroup group.2 = some wire ∧
        multiRecordBatchEstimateBytes wire.records ≤ a.batchMaxBytes := by
    rintro ⟨tp, members⟩ found
    obtain ⟨wire, eq, merged⟩ := mergeGroup_merged (fun w inside => (pending w inside).node) _ found
    refine ⟨wire, eq, ?_⟩
    have some : members ≠ [] := groups.nonempty tp members found
    have kept := groups.members tp members found
    have records : ∀ w ∈ members, w.records ≠ [] := by
      intro w inside
      rw [kept, List.mem_filter] at inside
      exact (pending w inside.1).nonempty
    have fits := of_decide_eq_true (List.all_eq_true.mp within _ found)
    calc multiRecordBatchEstimateBytes wire.records
        ≤ (members.map fun w => multiRecordBatchEstimateBytes w.records).sum :=
          fits.merged merged some records
      _ ≤ ((unpromise a.nextProduceItems).map fun w =>
          multiRecordBatchEstimateBytes w.records).sum := by
          rw [kept]
          exact (List.filter_sublist.map _).sum_le_sum fun _ _ => Nat.zero_le _
      _ = a.nextProduceWireBytes := by
          rw [capped.ok.sums.bytes, unpromise, List.map_map]
          rfl
      _ ≤ a.batchMaxBytes := capped.pending
  obtain ⟨made, eq, all⟩ := forall₂_of_mapM each
  obtain rfl : made = wire := Option.some.inj (eq.symm.trans merged)
  intro f mem w inside
  rcases List.mem_append.mp mem with old | new
  · exact wires f old w inside
  · obtain rfl := List.mem_singleton.mp new
    obtain ⟨group, -, fits⟩ := exists_left_of_forall₂ all w inside
    exact fits

theorem WireCapped.startFlushLocked (wires : a.WireCapped) (capped : a.Capped)
    (within : a.mergesWithin = true) (started : a.startFlushLocked = some b) : b.WireCapped := by
  unfold AgentBuffer.startFlushLocked at started
  split at started
  · obtain rfl := Option.some.inj started
    exact wires
  · obtain ⟨wire, merged, rfl⟩ := Option.map_eq_some_iff.mp started
    exact wires.flushed capped within merged

theorem WireCapped.addToNextProduceLocked (wires : a.WireCapped) (capped : a.Capped)
    {p : Promised RoutedTopicPartitionRecords D} (within : a.overflowMergesWithin p = true)
    (added : a.addToNextProduceLocked p = some b) : b.WireCapped := by
  unfold AgentBuffer.addToNextProduceLocked at added
  split at added
  · rename_i full
    obtain ⟨mid, started, rfl⟩ := Option.map_eq_some_iff.mp added
    have merges : a.mergesWithin = true := by simpa [overflowMergesWithin, full] using within
    have kept : mid.WireCapped := wires.startFlushLocked capped merges started
    exact kept
  · obtain rfl := Option.some.inj added
    exact wires

/-- The chunks of a call, one by one. -/
theorem WireCapped.foldlM (wires : a.WireCapped) (capped : a.Capped)
    {chunks : List (Promised RoutedTopicPartitionRecords D)}
    (addable : ∀ p ∈ chunks, Addable a.nodeID p.item)
    (small : ∀ p ∈ chunks, uncompressedWireBytes p.item ≤ a.batchMaxBytes)
    (within : Machine.along AgentBuffer.addToNextProduceLocked overflowMergesWithin a chunks = true)
    (added : chunks.foldlM AgentBuffer.addToNextProduceLocked a = some b) : b.WireCapped := by
  induction chunks generalizing a with
  | nil =>
      obtain rfl : a = b := Option.some.inj added
      exact wires
  | cons p rest ih =>
      obtain ⟨mid, first, later⟩ := Machine.run_cons_eq_some.mp added
      simp only [Machine.along, Bool.and_eq_true, first, Option.map_some,
        Option.getD_some] at within
      have moves := (addToNextProduceLocked_moves first).1
      obtain ⟨node, cap⟩ := moves.config
      refine ih (wires.addToNextProduceLocked capped within.1 first) ?_ ?_ ?_ within.2 later
      · exact capped.moves moves (by simpa using addable p (by simp))
          (by simpa using small p (by simp))
      · rw [node]
        exact fun q mem => addable q (List.mem_cons_of_mem _ mem)
      · rw [cap]
        exact fun q mem => small q (List.mem_cons_of_mem _ mem)

theorem WireCapped.addChunks (wires : a.WireCapped) (capped : a.Capped)
    {chunks : List (Promised RoutedTopicPartitionRecords D)} {refused : List D}
    (addable : ∀ p ∈ chunks, Addable a.nodeID p.item)
    (small : ∀ p ∈ chunks, uncompressedWireBytes p.item ≤ a.batchMaxBytes)
    (within : a.closed = false → Machine.along AgentBuffer.addToNextProduceLocked
      overflowMergesWithin a chunks = true)
    (added : a.addChunks chunks = some (b, refused)) : b.WireCapped := by
  unfold AgentBuffer.addChunks at added
  split at added
  · rw [← (Prod.mk.inj (Option.some.inj added)).1]
    exact wires
  · rename_i isOpen
    simp only [Option.bind_eq_bind, Option.bind_eq_some_iff] at added
    obtain ⟨mid, folded, eq⟩ := added
    rw [← (Prod.mk.inj (Option.some.inj eq)).1, maybeStartNextFlushTimerLocked_eq]
    have kept : mid.WireCapped :=
      wires.foldlM capped addable small (within (by simpa using isOpen)) folded
    exact kept

/-- An item that fits is its only chunk. -/
theorem splitAll_of_fits {p : Promised RoutedTopicPartitionRecords D} {batchMaxBytes : Nat}
    (fanIn : Nat → D) (fits : uncompressedWireBytes p.item ≤ batchMaxBytes) :
    splitAll batchMaxBytes fanIn [p] = [p] := by
  have one := LawfulSplit.fits p.item batchMaxBytes fits
  simp [splitAll, splitPromisedRoutedBatchByBatchMaxBytes, one]

theorem WireCapped.multiAdd (wires : a.WireCapped) (capped : a.Capped)
    {items : List (Promised RoutedTopicPartitionRecords D)} {fanIn : Nat → D} {refused : List D}
    (addable : ∀ p ∈ items, Addable a.nodeID p.item)
    (gated : ∀ p ∈ items, Gated a.batchMaxBytes p.item)
    (within : a.closed = false → Machine.along AgentBuffer.addToNextProduceLocked
      overflowMergesWithin a (splitAll a.batchMaxBytes fanIn items) = true)
    (added : a.multiAdd items fanIn = some (b, refused)) : b.WireCapped := by
  unfold AgentBuffer.multiAdd at added
  split at added
  · rw [← (Prod.mk.inj (Option.some.inj added)).1]
    exact wires
  · exact wires.addChunks capped (addable_splitAll _ _ addable) (splitAll_fits _ gated) within added

theorem WireCapped.add (wires : a.WireCapped) (capped : a.Capped)
    {p : Promised RoutedTopicPartitionRecords D} {fanIn : Nat → D} {refused : List D}
    (addable : Addable a.nodeID p.item) (gated : Gated a.batchMaxBytes p.item)
    (within : a.closed = false → Machine.along AgentBuffer.addToNextProduceLocked
      overflowMergesWithin a (splitAll a.batchMaxBytes fanIn [p]) = true)
    (added : a.add p fanIn = some (b, refused)) : b.WireCapped := by
  unfold AgentBuffer.add at added
  split at added
  · rw [← (Prod.mk.inj (Option.some.inj added)).1]
    exact wires
  · split at added
    · exact wires.multiAdd capped (by simpa using addable) (by simpa using gated) within added
    · rename_i small
      rw [splitAll_of_fits fanIn (not_lt.mp small)] at within
      exact wires.addChunks capped (by simpa using addable) (by simpa using small) within added

end AgentBuffer

namespace AgentRun

/-- Before each flush that an action starts, what is pending merges within the sum of its
standalone sizes. -/
def mergesWithin (st : AgentRun RoutedTopicPartitionRecords) :
    AgentAction RoutedTopicPartitionRecords → Bool
  | .timerFlush | .close => st.buffer.mergesWithin
  | action =>
      st.buffer.closed ||
        Machine.along AgentBuffer.addToNextProduceLocked AgentBuffer.overflowMergesWithin st.buffer
          (AgentBuffer.splitAll st.buffer.batchMaxBytes (fun _ => ())
            (action.items.map fun item => ⟨item, ()⟩))

theorem wireCapped_step {nodeID : Int} {batchMaxBytes : Nat}
    (st : AgentRun RoutedTopicPartitionRecords) (action : AgentAction RoutedTopicPartitionRecords)
    (st' : AgentRun RoutedTopicPartitionRecords)
    (capped : st.buffer.Capped ∧ st.buffer.nodeID = nodeID ∧
      st.buffer.batchMaxBytes = batchMaxBytes) (wires : st.buffer.WireCapped)
    (produced : Produced nodeID batchMaxBytes action) (within : st.mergesWithin action = true)
    (stepped : st.step action = some st') : st'.buffer.WireCapped := by
  obtain ⟨capped, rfl, rfl⟩ := capped
  cases action with
  | add item =>
      obtain ⟨addable, gated⟩ := produced item (by simp [AgentAction.items])
      simp only [step, Option.bind_eq_bind, Option.bind_eq_some_iff] at stepped
      obtain ⟨⟨b, refused⟩, added, eq⟩ := stepped
      obtain rfl := Option.some.inj eq
      refine wires.add capped addable gated (fun isOpen => ?_) added
      simpa [mergesWithin, isOpen, AgentAction.items] using within
  | multiAdd items =>
      simp only [step, Option.bind_eq_bind, Option.bind_eq_some_iff] at stepped
      obtain ⟨⟨b, refused⟩, added, eq⟩ := stepped
      obtain rfl := Option.some.inj eq
      have each : ∀ p ∈ items.map (fun item => (⟨item, ()⟩ : Promised _ Unit)),
          Addable st.buffer.nodeID p.item ∧ Gated st.buffer.batchMaxBytes p.item := by
        intro p mem
        obtain ⟨item, inside, rfl⟩ := List.mem_map.mp mem
        exact produced item inside
      refine wires.multiAdd capped (fun p mem => (each p mem).1) (fun p mem => (each p mem).2)
        (fun isOpen => ?_) added
      simpa [mergesWithin, isOpen, AgentAction.items] using within
  | timerFlush =>
      obtain ⟨b, started, rfl⟩ := Option.map_eq_some_iff.mp stepped
      exact wires.startFlushLocked capped within started
  | close =>
      obtain ⟨b, closing, rfl⟩ := Option.map_eq_some_iff.mp stepped
      unfold AgentBuffer.close at closing
      split at closing
      · obtain rfl := Option.some.inj closing
        exact wires
      · have marked : AgentBuffer.Capped { st.buffer with closed := true } :=
          capped.moves (AgentBuffer.Moves.refl.flags _ true) (by simp) (by simp)
        have same : AgentBuffer.WireCapped { st.buffer with closed := true } := wires
        exact same.startFlushLocked marked within closing
  | callFlush i =>
      simp only [step] at stepped
      split at stepped
      · obtain rfl := Option.some.inj stepped
        exact wires
      · cases stepped
  | finishFlush i =>
      simp only [step] at stepped
      split at stepped
      · obtain rfl := Option.some.inj stepped
        exact wires
      · cases stepped
  | closeReturn =>
      simp only [step] at stepped
      split at stepped
      · obtain rfl := Option.some.inj stepped
        exact wires
      · cases stepped

end AgentRun

/-- In every run in which, before each flush, the growth of what is pending is covered by the
headers saved, no wire entry exceeds the cap. The sum of the standalone sizes in a flush never
does. -/
theorem batchMaxBytes_caps_wire_of_mergesWithin {nodeID : Int} {batchMaxBytes : Nat}
    {actions : List (AgentAction RoutedTopicPartitionRecords)}
    {st : AgentRun RoutedTopicPartitionRecords}
    (produced : ∀ action ∈ actions, AgentRun.Produced nodeID batchMaxBytes action)
    (within : Machine.along AgentRun.step AgentRun.mergesWithin (AgentRun.init nodeID batchMaxBytes)
      actions = true)
    (runs : Machine.run AgentRun.step (AgentRun.init nodeID batchMaxBytes) actions = some st) :
    ∀ f ∈ st.buffer.flushes,
      (f.entries.map fun p => multiRecordBatchEstimateBytes p.item.records).sum ≤ batchMaxBytes ∧
      ∀ w ∈ f.wire, multiRecordBatchEstimateBytes w.records ≤ batchMaxBytes := by
  obtain ⟨⟨capped, -, cap⟩, wires⟩ := Machine.invariant_along_of_mem
    (AgentRun.Produced nodeID batchMaxBytes)
    (fun st => (st.buffer.Capped ∧ st.buffer.nodeID = nodeID ∧
      st.buffer.batchMaxBytes = batchMaxBytes) ∧ st.buffer.WireCapped) produced within
    (fun st action st' inv gated fits stepped =>
      ⟨AgentRun.capped_step st action st' inv.1 gated stepped,
        AgentRun.wireCapped_step st action st' inv.1 inv.2 gated fits stepped⟩)
    ⟨AgentRun.capped_init nodeID batchMaxBytes, by simp [AgentBuffer.WireCapped, AgentRun.init]⟩ runs
  exact fun f mem => ⟨cap ▸ capped.flushes f mem, cap ▸ wires f mem⟩

/-- At 300 bytes: two items of one partition, the second stamped an hour earlier, are flushed
as one batch when a third no longer fits beside them, and the timer flushes the third. -/
def hourApart : List (AgentAction RoutedTopicPartitionRecords) :=
  [.add ⟨"t", 0, List.replicate 3 { timestamp := Time.ofUnixMilli 1700003600000 }, 1, .healthy⟩,
    .multiAdd [⟨"t", 0, List.replicate 8 { timestamp := Time.ofUnixMilli 1700000000000 }, 1, .healthy⟩,
      ⟨"t", 1, List.replicate 5 { timestamp := Time.ofUnixMilli 0 }, 1, .healthy⟩],
    .timerFlush]

theorem produced_hourApart : ∀ action ∈ hourApart, AgentRun.Produced 1 300 action := by
  have each : ∀ item ∈ hourApart.flatMap AgentAction.items, item.nodeID = 1 ∧ item.records ≠ [] ∧
      ∀ r ∈ item.records, singleRecordBatchEstimateBytes r ≤ 300 := by
    decide
  intro action mem item inside
  obtain ⟨node, some, gate⟩ := each item (List.mem_flatMap_of_mem mem inside)
  exact ⟨⟨node, some⟩, gate⟩

theorem batchMaxBytes_caps_wire_of_mergesWithin_two :
    ∃ st, Machine.run AgentRun.step (AgentRun.init 1 300) hourApart = some st ∧
      (st.buffer.flushes.map fun f => (f.entries.length, f.wire.length)) = [(2, 1), (1, 1)] ∧
      ∀ f ∈ st.buffer.flushes, ∀ w ∈ f.wire, multiRecordBatchEstimateBytes w.records ≤ 300 := by
  have state : (Machine.run AgentRun.step (AgentRun.init 1 300) hourApart).map (fun st =>
      st.buffer.flushes.map fun f => (f.entries.length, f.wire.length)) =
      some [(2, 1), (1, 1)] := by
    decide
  obtain ⟨st, runs, shape⟩ := Option.map_eq_some_iff.mp state
  have caps := batchMaxBytes_caps_wire_of_mergesWithin produced_hourApart (by decide) runs
  exact ⟨st, runs, shape, fun f mem => (caps f mem).2⟩

/-- A record stamped with the epoch, then fourteen of today. Alone they need 72 and
163 bytes; in one batch every later timestamp delta takes five bytes more. -/
def epochThenToday : List (AgentAction RoutedTopicPartitionRecords) :=
  [.add ⟨"t", 0, [{ timestamp := Time.ofUnixMilli 0 }], 1, .healthy⟩,
    .add ⟨"t", 0, List.replicate 14 { timestamp := Time.ofUnixMilli 1700000000000 }, 1, .healthy⟩,
    .timerFlush]

/-- Every record passes the gate at 235 bytes, and the flush sends a batch of 240. -/
theorem batchMaxBytes_exceeded_by_merge :
    (∀ action ∈ epochThenToday, AgentRun.Produced 1 235 action) ∧
    ∃ st, Machine.run AgentRun.step (AgentRun.init 1 235) epochThenToday = some st ∧
      ∃ f ∈ st.buffer.flushes, ∃ w ∈ f.wire, multiRecordBatchEstimateBytes w.records = 240 := by
  constructor
  · have gate : ∀ msec ∈ [0, 1700000000000],
        singleRecordBatchEstimateBytes { timestamp := Time.ofUnixMilli msec } ≤ 235 := by decide
    have first := gate 0 (by simp)
    have later := gate 1700000000000 (by simp)
    intro action mem
    simp only [epochThenToday, List.mem_cons, List.not_mem_nil, or_false] at mem
    rcases mem with rfl | rfl | rfl <;> intro item inside <;>
      simp only [AgentAction.items, List.mem_singleton, List.not_mem_nil] at inside
    · subst inside
      exact ⟨⟨rfl, by simp [LawfulRoutedBatch.records]⟩, by simpa [Gated] using first⟩
    · subst inside
      refine ⟨⟨rfl, by simp [LawfulRoutedBatch.records]⟩, ?_⟩
      intro r found
      rw [List.eq_of_mem_replicate found]
      exact later
  · have sizes : (Machine.run AgentRun.step (AgentRun.init 1 235) epochThenToday).map
        (fun st => st.buffer.flushes.map fun f =>
          f.wire.map fun w => multiRecordBatchEstimateBytes w.records) = some [[240]] := by
      decide
    obtain ⟨st, runs, eq⟩ := Option.map_eq_some_iff.mp sizes
    refine ⟨st, runs, ?_⟩
    obtain ⟨f, single, one⟩ := List.map_eq_singleton_iff.mp eq
    obtain ⟨w, only, size⟩ := List.map_eq_singleton_iff.mp one
    exact ⟨f, by simp [single], w, by simp [only], size⟩

end Warpstream
