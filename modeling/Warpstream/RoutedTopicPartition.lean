import Warpstream.RoutedBatch

set_option autoImplicit false

/- Unencoded records routed to an agent: the item type of the client's main
buffer. -/
namespace Warpstream

open Kbin

/-- `routedTopicPartitionRecords`, with its embedded `topicPartitionRecords`. -/
structure RoutedTopicPartitionRecords where
  topic : String
  partition : Int
  records : List Kgo.Record
  nodeID : Int
  nodeState : AgentState := .healthy
deriving DecidableEq

/-- What franz-go counts as buffered for a record: keys and values, no framing. -/
def recordPayloadBytes (r : Kgo.Record) : Nat :=
  fieldLen r.key + fieldLen r.value +
    (r.headers.map fun h => h.key.length + fieldLen h.value).sum

/-- The loop of `splitByMaxBytes` with the open chunk, its size and its first
timestamp. -/
def splitRecords (batchMaxBytes : Nat) (currRecords : List Kgo.Record) (currBytes : Nat)
    (firstTS : Int) : List Kgo.Record → List (List Kgo.Record)
  | [] => [currRecords]
  | r :: rest =>
      let ts := r.timestamp.unixMilli
      let alone := recordBatchHeaderBytes + recordEstimateBytes r 0 0
      if currRecords = [] then splitRecords batchMaxBytes [r] alone ts rest
      else
        let cost := recordEstimateBytes r (int32 currRecords.length) (int64 (ts - firstTS))
        if batchMaxBytes < currBytes + cost then
          currRecords :: splitRecords batchMaxBytes [r] alone ts rest
        else splitRecords batchMaxBytes (currRecords ++ [r]) (currBytes + cost) firstTS rest

namespace RoutedTopicPartitionRecords

def splitByMaxBytes (p : RoutedTopicPartitionRecords) (batchMaxBytes : Nat) :
    List RoutedTopicPartitionRecords :=
  if multiRecordBatchEstimateBytes p.records ≤ batchMaxBytes then [p]
  else (splitRecords batchMaxBytes [] 0 0 p.records).map fun c => { p with records := c }

def mergeWith (p : RoutedTopicPartitionRecords) (others : List RoutedTopicPartitionRecords) :
    Option RoutedTopicPartitionRecords :=
  match others.getLast? with
  | none => some p
  | some last =>
      if ∃ o ∈ others, p.topic ≠ o.topic ∨ p.partition ≠ o.partition ∨ p.nodeID ≠ o.nodeID then
        none
      else
        some { p with
          records := p.records ++ others.flatMap records
          nodeState := last.nodeState }

instance : RoutedBatch RoutedTopicPartitionRecords where
  getTopicPartition p := ⟨p.topic, p.partition⟩
  getNodeID p := p.nodeID
  recordCount p := p.records.length
  payloadBytes p := (p.records.map recordPayloadBytes).sum
  uncompressedWireBytes p := multiRecordBatchEstimateBytes p.records
  splitByMaxBytes := splitByMaxBytes
  mergeWith := mergeWith

end RoutedTopicPartitionRecords

theorem splitRecords_flatten (batchMaxBytes : Nat) (currRecords : List Kgo.Record)
    (currBytes : Nat) (firstTS : Int) (records : List Kgo.Record) :
    (splitRecords batchMaxBytes currRecords currBytes firstTS records).flatten =
      currRecords ++ records := by
  induction records generalizing currRecords currBytes firstTS with
  | nil => simp [splitRecords]
  | cons r rest ih =>
      simp only [splitRecords]
      split
      · rename_i fresh
        simp [ih, fresh]
      · split
        · simp [ih]
        · simp [ih]

theorem splitRecords_nonempty (batchMaxBytes : Nat) (currRecords : List Kgo.Record)
    (currBytes : Nat) (firstTS : Int) (records : List Kgo.Record)
    (some : currRecords ≠ [] ∨ records ≠ []) :
    ∀ c ∈ splitRecords batchMaxBytes currRecords currBytes firstTS records, c ≠ [] := by
  induction records generalizing currRecords currBytes firstTS with
  | nil => simpa [splitRecords] using some
  | cons r rest ih =>
      have single := ih [r] (recordBatchHeaderBytes + recordEstimateBytes r 0 0)
        r.timestamp.unixMilli (Or.inl (by simp))
      simp only [splitRecords]
      split
      · exact single
      · rename_i started
        split
        · intro c mem
          rcases List.mem_cons.mp mem with rfl | later
          · exact started
          · exact single c later
        · exact ih _ _ _ (Or.inl (by simp))

/-- Appending to a batch costs the record at its offset and delta in that batch. -/
theorem multiRecordBatchEstimateBytes_concat (first : Kgo.Record) (rest : List Kgo.Record)
    (r : Kgo.Record) :
    multiRecordBatchEstimateBytes (first :: rest ++ [r]) =
      multiRecordBatchEstimateBytes (first :: rest) +
        recordEstimateBytes r (int32 (first :: rest).length)
          (int64 (r.timestamp.unixMilli - first.timestamp.unixMilli)) := by
  rw [List.cons_append, multiRecordBatchEstimateBytes_cons, multiRecordBatchEstimateBytes_cons,
    ← List.cons_append, recordsEstimateBytes_append, recordsEstimateBytes_cons _ _ r,
    recordsEstimateBytes_nil, Nat.zero_add, Nat.add_zero, Nat.add_assoc]

/-- What the split loop keeps about its open chunk. -/
structure OpenChunk (batchMaxBytes : Nat) (currRecords : List Kgo.Record) (currBytes : Nat)
    (firstTS : Int) : Prop where
  sized : currRecords ≠ [] → currBytes = multiRecordBatchEstimateBytes currRecords
  first : ∀ r ∈ currRecords.head?, firstTS = r.timestamp.unixMilli
  fits : multiRecordBatchEstimateBytes currRecords ≤ batchMaxBytes

theorem OpenChunk.empty (batchMaxBytes : Nat) : OpenChunk batchMaxBytes [] 0 0 :=
  ⟨by simp, by simp, Nat.zero_le _⟩

theorem OpenChunk.single {batchMaxBytes : Nat} {r : Kgo.Record}
    (gate : singleRecordBatchEstimateBytes r ≤ batchMaxBytes) :
    OpenChunk batchMaxBytes [r] (recordBatchHeaderBytes + recordEstimateBytes r 0 0)
      r.timestamp.unixMilli := by
  refine ⟨?_, by simp, ?_⟩
  · intro _
    rw [multiRecordBatchEstimateBytes_singleton]
    rfl
  · rwa [multiRecordBatchEstimateBytes_singleton]

/-- The running count and the cost of one more record add up to the estimate from scratch. -/
theorem OpenChunk.estimate_concat {batchMaxBytes currBytes : Nat} {currRecords : List Kgo.Record}
    {firstTS : Int} (chunk : OpenChunk batchMaxBytes currRecords currBytes firstTS)
    (started : currRecords ≠ []) (r : Kgo.Record) :
    multiRecordBatchEstimateBytes (currRecords ++ [r]) = currBytes + recordEstimateBytes r
      (int32 currRecords.length) (int64 (r.timestamp.unixMilli - firstTS)) := by
  cases currRecords with
  | nil => exact absurd rfl started
  | cons first rest =>
      have ts : firstTS = first.timestamp.unixMilli := chunk.first first rfl
      have grown := multiRecordBatchEstimateBytes_concat first rest r
      rwa [← ts, ← chunk.sized started] at grown

theorem OpenChunk.concat {batchMaxBytes currBytes : Nat} {currRecords : List Kgo.Record}
    {firstTS : Int} (chunk : OpenChunk batchMaxBytes currRecords currBytes firstTS)
    (started : currRecords ≠ []) (r : Kgo.Record)
    (room : currBytes + recordEstimateBytes r (int32 currRecords.length)
      (int64 (r.timestamp.unixMilli - firstTS)) ≤ batchMaxBytes) :
    OpenChunk batchMaxBytes (currRecords ++ [r]) (currBytes + recordEstimateBytes r
      (int32 currRecords.length) (int64 (r.timestamp.unixMilli - firstTS))) firstTS := by
  have grown := chunk.estimate_concat started r
  refine ⟨fun _ => grown.symm, ?_, by rw [grown]; exact room⟩
  rw [List.head?_append_of_ne_nil _ started]
  exact chunk.first

/-- Every chunk of records that pass the per-record gate fits the cap. -/
theorem splitRecords_fits {batchMaxBytes : Nat} {currRecords : List Kgo.Record} {currBytes : Nat}
    {firstTS : Int} {records : List Kgo.Record}
    (chunk : OpenChunk batchMaxBytes currRecords currBytes firstTS)
    (gate : ∀ r ∈ records, singleRecordBatchEstimateBytes r ≤ batchMaxBytes) :
    ∀ c ∈ splitRecords batchMaxBytes currRecords currBytes firstTS records,
      multiRecordBatchEstimateBytes c ≤ batchMaxBytes := by
  induction records generalizing currRecords currBytes firstTS with
  | nil =>
      intro c mem
      obtain rfl : c = currRecords := by simpa [splitRecords] using mem
      exact chunk.fits
  | cons r rest ih =>
      have later : ∀ r ∈ rest, singleRecordBatchEstimateBytes r ≤ batchMaxBytes :=
        fun r mem => gate r (List.mem_cons_of_mem _ mem)
      have single := ih (OpenChunk.single (gate r (by simp))) later
      simp only [splitRecords]
      split
      · exact single
      · rename_i started
        split
        · intro c mem
          rcases List.mem_cons.mp mem with rfl | tail
          · exact chunk.fits
          · exact single c tail
        · rename_i room
          exact ih (chunk.concat started r (by omega)) later

/-- The first chunk extends the open one. -/
theorem exists_splitRecords_eq_cons (batchMaxBytes : Nat) (currRecords : List Kgo.Record)
    (currBytes : Nat) (firstTS : Int) (records : List Kgo.Record) :
    ∃ more later, splitRecords batchMaxBytes currRecords currBytes firstTS records =
      (currRecords ++ more) :: later := by
  induction records generalizing currRecords currBytes firstTS with
  | nil => exact ⟨[], [], by simp [splitRecords]⟩
  | cons r rest ih =>
      simp only [splitRecords]
      split
      · rename_i fresh
        obtain ⟨more, later, eq⟩ := ih [r] (recordBatchHeaderBytes + recordEstimateBytes r 0 0)
          r.timestamp.unixMilli
        exact ⟨r :: more, later, by rw [eq, fresh]; rfl⟩
      · split
        · exact ⟨[], _, by rw [List.append_nil]⟩
        · obtain ⟨more, later, eq⟩ := ih (currRecords ++ [r]) (currBytes + recordEstimateBytes r
            (int32 currRecords.length) (int64 (r.timestamp.unixMilli - firstTS))) firstTS
          exact ⟨r :: more, later, by rw [eq, List.append_assoc]; rfl⟩

/-- The first record of a later chunk would not have fitted. -/
def Overflows (batchMaxBytes : Nat) (chunk later : List Kgo.Record) : Prop :=
  ∀ r ∈ later.head?, batchMaxBytes < multiRecordBatchEstimateBytes (chunk ++ [r])

theorem splitRecords_overflows {batchMaxBytes : Nat} {currRecords : List Kgo.Record}
    {currBytes : Nat} {firstTS : Int} {records : List Kgo.Record}
    (chunk : OpenChunk batchMaxBytes currRecords currBytes firstTS)
    (gate : ∀ r ∈ records, singleRecordBatchEstimateBytes r ≤ batchMaxBytes) :
    (splitRecords batchMaxBytes currRecords currBytes firstTS records).IsChain
      (Overflows batchMaxBytes) := by
  induction records generalizing currRecords currBytes firstTS with
  | nil => exact List.isChain_singleton _
  | cons r rest ih =>
      have later : ∀ r ∈ rest, singleRecordBatchEstimateBytes r ≤ batchMaxBytes :=
        fun r mem => gate r (List.mem_cons_of_mem _ mem)
      have single := ih (OpenChunk.single (gate r (by simp))) later
      simp only [splitRecords]
      split
      · exact single
      · rename_i started
        split
        · rename_i full
          obtain ⟨more, after, eq⟩ := exists_splitRecords_eq_cons batchMaxBytes [r]
            (recordBatchHeaderBytes + recordEstimateBytes r 0 0) r.timestamp.unixMilli rest
          rw [eq] at single ⊢
          refine List.isChain_cons_cons.mpr ⟨?_, single⟩
          intro r' first
          obtain rfl : r = r' := Option.some.inj first
          rw [chunk.estimate_concat started]
          exact full
        · rename_i room
          exact ih (chunk.concat started r (by omega)) later

namespace RoutedTopicPartitionRecords

variable (p : RoutedTopicPartitionRecords)

theorem splitByMaxBytes_records (batchMaxBytes : Nat) :
    (p.splitByMaxBytes batchMaxBytes).flatMap records = p.records := by
  unfold splitByMaxBytes
  split
  · simp
  · rw [List.flatMap_map]
    simpa using splitRecords_flatten batchMaxBytes [] 0 0 p.records

theorem mem_splitByMaxBytes {batchMaxBytes : Nat} {c : RoutedTopicPartitionRecords}
    (mem : c ∈ p.splitByMaxBytes batchMaxBytes) :
    c = p ∨ ∃ chunk ∈ splitRecords batchMaxBytes [] 0 0 p.records, c = { p with records := chunk } := by
  unfold splitByMaxBytes at mem
  split at mem
  · exact Or.inl (List.mem_singleton.mp mem)
  · obtain ⟨chunk, inside, rfl⟩ := List.mem_map.mp mem
    exact Or.inr ⟨chunk, inside, rfl⟩

theorem splitByMaxBytes_fits {batchMaxBytes : Nat}
    (gate : ∀ r ∈ p.records, singleRecordBatchEstimateBytes r ≤ batchMaxBytes) :
    ∀ c ∈ p.splitByMaxBytes batchMaxBytes,
      multiRecordBatchEstimateBytes c.records ≤ batchMaxBytes := by
  intro c mem
  unfold splitByMaxBytes at mem
  split at mem
  · rename_i fits
    rwa [List.mem_singleton.mp mem]
  · obtain ⟨chunk, inside, rfl⟩ := List.mem_map.mp mem
    exact splitRecords_fits (OpenChunk.empty batchMaxBytes) gate chunk inside

theorem splitByMaxBytes_overflows {batchMaxBytes : Nat}
    (gate : ∀ r ∈ p.records, singleRecordBatchEstimateBytes r ≤ batchMaxBytes) :
    ((p.splitByMaxBytes batchMaxBytes).map records).IsChain (Overflows batchMaxBytes) := by
  unfold splitByMaxBytes
  split
  · exact List.isChain_singleton _
  · rw [List.map_map]
    simpa [Function.comp_def] using
      splitRecords_overflows (OpenChunk.empty batchMaxBytes) gate

theorem mergeWith_same (others : List RoutedTopicPartitionRecords)
    (same : ∀ o ∈ others, SameRouting p o) :
    ∃ merged, p.mergeWith others = some merged ∧ merged.topic = p.topic ∧
      merged.partition = p.partition ∧ merged.nodeID = p.nodeID ∧
      merged.records = (p :: others).flatMap records := by
  unfold mergeWith
  cases tail : others.getLast? with
  | none =>
      rw [List.getLast?_eq_none_iff.mp tail]
      exact ⟨p, rfl, rfl, rfl, rfl, by simp⟩
  | some last =>
      have accepted : ¬ ∃ o ∈ others,
          p.topic ≠ o.topic ∨ p.partition ≠ o.partition ∨ p.nodeID ≠ o.nodeID := by
        rintro ⟨o, mem, differs⟩
        obtain ⟨tp, node⟩ := same o mem
        have fields : p.topic = o.topic ∧ p.partition = o.partition := by
          simpa [RoutedBatch.getTopicPartition] using tp
        rcases differs with topic | partition | nodeID
        · exact topic fields.1
        · exact partition fields.2
        · exact nodeID node
      simp only [accepted, ↓reduceIte]
      exact ⟨_, rfl, rfl, rfl, rfl, rfl⟩

instance : LawfulRoutedBatch RoutedTopicPartitionRecords Kgo.Record where
  records := records
  recordCount_eq _ := rfl
  split_records := splitByMaxBytes_records
  split_routing p max c mem := by
    rcases p.mem_splitByMaxBytes mem with rfl | ⟨chunk, -, rfl⟩
    · exact ⟨rfl, rfl⟩
    · exact ⟨rfl, rfl⟩
  split_nonempty p max some c mem := by
    rcases p.mem_splitByMaxBytes mem with rfl | ⟨chunk, inside, rfl⟩
    · exact some
    · exact splitRecords_nonempty max [] 0 0 p.records (Or.inr some) chunk inside
  mergeWith_eq p others same := by
    obtain ⟨merged, eq, topic, partition, node, all⟩ := p.mergeWith_same others same
    refine ⟨merged, eq, ⟨?_, node⟩, all⟩
    simp only [RoutedBatch.getTopicPartition, topic, partition]

instance : LawfulSplit RoutedTopicPartitionRecords where
  fits p max small := by
    change multiRecordBatchEstimateBytes p.records ≤ max at small
    change (p.splitByMaxBytes max).length ≤ 1
    rw [splitByMaxBytes, if_pos small]
    exact le_refl 1
  nonempty p max some c mem := by
    apply List.length_pos_iff.mpr
    exact LawfulRoutedBatch.split_nonempty p max (List.length_pos_iff.mp some) c mem

/-- The chunks cut the records in order, and each takes as many as fit. -/
theorem splitByMaxBytes_greedy_cover (batchMaxBytes : Nat)
    (gate : ∀ r ∈ p.records, singleRecordBatchEstimateBytes r ≤ batchMaxBytes) :
    (p.splitByMaxBytes batchMaxBytes).flatMap records = p.records ∧
      (p.records ≠ [] → ∀ c ∈ p.splitByMaxBytes batchMaxBytes, c.records ≠ []) ∧
      (∀ c ∈ p.splitByMaxBytes batchMaxBytes,
        multiRecordBatchEstimateBytes c.records ≤ batchMaxBytes ∧ c.topic = p.topic ∧
          c.partition = p.partition ∧ c.nodeID = p.nodeID ∧ c.nodeState = p.nodeState) ∧
      ((p.splitByMaxBytes batchMaxBytes).length = 1 ↔
        multiRecordBatchEstimateBytes p.records ≤ batchMaxBytes) ∧
      ∀ before c c' after r rest, p.splitByMaxBytes batchMaxBytes = before ++ c :: c' :: after →
        c'.records = r :: rest →
          batchMaxBytes < multiRecordBatchEstimateBytes (c.records ++ [r]) := by
  have fits := p.splitByMaxBytes_fits gate
  refine ⟨p.splitByMaxBytes_records batchMaxBytes, ?_, ?_, ?_, ?_⟩
  · intro nonempty
    exact LawfulRoutedBatch.split_nonempty p batchMaxBytes nonempty
  · intro c mem
    refine ⟨fits c mem, ?_⟩
    rcases p.mem_splitByMaxBytes mem with rfl | ⟨chunk, -, rfl⟩
    · exact ⟨rfl, rfl, rfl, rfl⟩
    · exact ⟨rfl, rfl, rfl, rfl⟩
  · constructor
    · intro one
      obtain ⟨c, eq⟩ := List.length_eq_one_iff.mp one
      have whole := p.splitByMaxBytes_records batchMaxBytes
      rw [eq, List.flatMap_singleton] at whole
      rw [← whole]
      exact fits c (by simp [eq])
    · intro fit
      simp [splitByMaxBytes, fit]
  · intro before c c' after r rest eq first
    have chain := p.splitByMaxBytes_overflows gate
    rw [eq, List.map_append, List.map_cons, List.map_cons] at chain
    have pair := (List.isChain_cons_cons.mp chain.right_of_append).1
    exact pair r (by simp [first])

/-- Two records of 72 bytes each as a batch, 79 together. -/
theorem splitByMaxBytes_greedy_cover_two :
    let p : RoutedTopicPartitionRecords := ⟨"t", 0, [{ topic := "t" }, { topic := "t" }], 1, .healthy⟩
    ((p.splitByMaxBytes 72).length = 1 ↔ multiRecordBatchEstimateBytes p.records ≤ 72) ∧
      (p.splitByMaxBytes 72).length = 2 :=
  ⟨(splitByMaxBytes_greedy_cover _ 72 (by decide)).2.2.2.1, by decide⟩

end RoutedTopicPartitionRecords

end Warpstream
