import Warpstream.EncodedTopicPartition
import Warpstream.RoutedTopicPartition

set_option autoImplicit false

/- The size estimates against the bytes the encoder emits, and against the record format
with lengths that do not wrap. -/
namespace Warpstream

open Kbin

/-- The varint of a length, whatever its size. -/
def lengthVarintBytes (n : Nat) : Nat := Base128.uvarintLen (2 * n)

/-- A field with its length before it. -/
def formatFieldBytes (n : Nat) : Nat := lengthVarintBytes n + n

def formatHeaderBytes (h : Kgo.RecordHeader) : Nat :=
  formatFieldBytes h.key.length + formatFieldBytes (fieldLen h.value)

def formatBodyBytes (r : Kgo.Record) (offsetDelta tsDelta : Int) : Nat :=
  1 + varlongLen tsDelta + varintLen offsetDelta + formatFieldBytes (fieldLen r.key) +
    formatFieldBytes (fieldLen r.value) + lengthVarintBytes r.headers.length +
    (r.headers.map formatHeaderBytes).sum

/-- The uncompressed size of a batch with the record alone, with no length cast to 32 bits. -/
def formatBatchBytes (r : Kgo.Record) : Nat :=
  recordBatchHeaderBytes + formatFieldBytes (formatBodyBytes r 0 0)

theorem varintLen_int32 {n : Nat} (small : n < 2 ^ 31) :
    varintLen (int32 n) = lengthVarintBytes n := by
  have value : (Base128.zigzag 32 n : Int) =
      if 0 ≤ (n : Int) then 2 * (n : Int) else -2 * (n : Int) - 1 :=
    Base128.zigzag_value 31 n (by omega) (by omega)
  rw [if_pos (Int.natCast_nonneg n)] at value
  unfold varintLen lengthVarintBytes
  rw [int32_eq (by omega) (by omega)]
  apply congrArg
  omega

theorem headerEstimateBytes_eq {h : Kgo.RecordHeader} (small : headerEstimateBytes h < 2 ^ 31) :
    headerEstimateBytes h = formatHeaderBytes h := by
  unfold headerEstimateBytes at small ⊢
  unfold formatHeaderBytes formatFieldBytes
  rw [varintLen_int32 (n := h.key.length) (by omega),
    varintLen_int32 (n := fieldLen h.value) (by omega)]

theorem headersEstimateBytes_cons (h : Kgo.RecordHeader) (rest : List Kgo.RecordHeader) :
    headersEstimateBytes (h :: rest) = headerEstimateBytes h + headersEstimateBytes rest := by
  simp only [headersEstimateBytes, List.map_cons, List.sum_cons]

theorem headersEstimateBytes_eq {headers : List Kgo.RecordHeader}
    (small : headersEstimateBytes headers < 2 ^ 31) :
    headersEstimateBytes headers = (headers.map formatHeaderBytes).sum := by
  induction headers with
  | nil => simp [headersEstimateBytes]
  | cons h rest ih =>
      rw [headersEstimateBytes_cons] at small
      have first : headerEstimateBytes h = formatHeaderBytes h := by
        apply headerEstimateBytes_eq
        omega
      have later := ih (by omega)
      rw [headersEstimateBytes_cons, List.map_cons, List.sum_cons, first, later]

theorem length_headers_le (headers : List Kgo.RecordHeader) :
    2 * headers.length ≤ headersEstimateBytes headers := by
  rw [← wireHeaders_length, ← List.length_map (f := wireHeader)]
  apply Kmsg.headers_length_le

theorem recordBodyBytes_eq {r : Kgo.Record} {offsetDelta tsDelta : Int}
    (small : recordBodyBytes r offsetDelta tsDelta < 2 ^ 31) :
    recordBodyBytes r offsetDelta tsDelta = formatBodyBytes r offsetDelta tsDelta := by
  have count := length_headers_le r.headers
  unfold recordBodyBytes at small ⊢
  unfold formatBodyBytes formatFieldBytes
  rw [varintLen_int32 (n := fieldLen r.key) (by omega),
    varintLen_int32 (n := fieldLen r.value) (by omega),
    varintLen_int32 (n := r.headers.length) (by omega), headersEstimateBytes_eq (by omega)]

/-- Below the ceiling of the batch size no cast of the estimate loses anything. -/
theorem singleRecordBatchEstimateBytes_eq {r : Kgo.Record}
    (small : singleRecordBatchEstimateBytes r < 2 ^ 31) :
    singleRecordBatchEstimateBytes r = formatBatchBytes r := by
  unfold singleRecordBatchEstimateBytes recordEstimateBytes at small ⊢
  unfold formatBatchBytes formatFieldBytes
  rw [varintLen_int32 (by omega), recordBodyBytes_eq (by omega)]

/-- The bytes of a record are its length field and as many bytes as that says. -/
theorem encodeRecord_body (r : Kgo.Record) (offsetDelta firstTimestamp : Int)
    (small : (encodeRecord [] r offsetDelta firstTimestamp).length < 2 ^ 31) :
    ∃ body : Bytes, encodeRecord [] r offsetDelta firstTimestamp =
        appendVarint [] (wireRecord r offsetDelta firstTimestamp).length ++ body ∧
      (wireRecord r offsetDelta firstTimestamp).length = body.length := by
  have span := skip_wireRecord r offsetDelta firstTimestamp small
  have split := Kmsg.Record.appendTo_eq (wireRecord r offsetDelta firstTimestamp) []
  rw [List.nil_append] at split
  refine ⟨_, split, ?_⟩
  have total := congrArg List.length split
  rw [List.length_append, appendVarint_length, List.length_nil] at total
  unfold encodeRecord at span
  omega

theorem length_encodeRecord_le {firstTimestamp : Int} {records : List Kgo.Record} {r : Kgo.Record}
    (i k : Nat) (found : records[i]? = some r) :
    (encodeRecord [] r (int32 (k + i : Nat)) firstTimestamp).length ≤
      (encodeRecordsFrom firstTimestamp k [] records).length := by
  induction records generalizing i k with
  | nil => cases found
  | cons first rest ih =>
      rw [encodeRecordsFrom_cons, List.length_append]
      cases i with
      | zero =>
          obtain rfl : first = r := Option.some.inj found
          exact Nat.le_add_right _ _
      | succ i =>
          have later := ih i (k + 1) found
          rw [show k + 1 + i = k + (i + 1) by omega] at later
          omega

theorem Kmsg.RecordBatch.appendTo_length (v : Kmsg.RecordBatch) :
    (v.appendTo []).length = 61 + (v.records.getD []).length := by
  simp only [RecordBatch.appendTo, appendInt64, appendInt32, appendInt16, appendInt8,
    List.length_append, bigEndian_length, List.length_nil]

/-- The `MaxTimestamp` loop ends with the latest timestamp. -/
theorem foldl_max_unixMilli (firstTS : Int) (records : List Kgo.Record) :
    let maxTS := records.foldl (fun maxTS r => max maxTS r.timestamp.unixMilli) firstTS
    firstTS ≤ maxTS ∧ (∀ r ∈ records, r.timestamp.unixMilli ≤ maxTS) ∧
      (maxTS = firstTS ∨ ∃ r ∈ records, maxTS = r.timestamp.unixMilli) := by
  induction records generalizing firstTS with
  | nil => simp
  | cons r rest ih =>
      obtain ⟨lower, later, reached⟩ := ih (max firstTS r.timestamp.unixMilli)
      simp only [List.foldl_cons]
      refine ⟨by omega, ?_, ?_⟩
      · intro r' mem
        rcases List.mem_cons.mp mem with rfl | inside
        · omega
        · exact later r' inside
      · rcases reached with same | ⟨r', inside, same⟩
        · rcases max_choice firstTS r.timestamp.unixMilli with first | this
          · exact Or.inl (same.trans first)
          · exact Or.inr ⟨r, by simp, same.trans this⟩
        · exact Or.inr ⟨r', List.mem_cons_of_mem _ inside, same⟩

/-- What the bytes of a batch say about themselves and about the records. -/
structure DescribedBy (records : List Kgo.Record) (buf : Bytes) (rb : Kmsg.RecordBatch) : Prop where
  read : Kmsg.RecordBatch.readFrom buf = some rb
  length : (buf.length : Int) = 12 + rb.length
  numRecords : rb.numRecords = records.length
  lastOffsetDelta : rb.lastOffsetDelta = records.length - 1
  latest : ∀ r ∈ records, r.timestamp.unixMilli ≤ rb.maxTimestamp
  reached : ∃ r ∈ records, rb.maxTimestamp = r.timestamp.unixMilli

theorem describedBy_putCrc (first : Kgo.Record) (rest : List Kgo.Record) (attributes : Int)
    (payload : Bytes) (small : payload.length + 49 < 2 ^ 31)
    (count : (first :: rest).length < 2 ^ 31) :
    ∃ rb, DescribedBy (first :: rest)
      (putCrc ((wireBatch first rest attributes payload).appendTo [])) rb := by
  have sized := wireBatch_sized first rest attributes payload small
  have bounds := foldl_max_unixMilli first.timestamp.unixMilli rest
  have present : (wireBatch first rest attributes payload).records = some payload := rfl
  have num : (wireBatch first rest attributes payload).numRecords =
      int32 (first :: rest).length := by
    simp only [wireBatch]
  have last : (wireBatch first rest attributes payload).lastOffsetDelta =
      int32 ((first :: rest).length - 1) := by
    simp only [wireBatch]
  have maxTS : (wireBatch first rest attributes payload).maxTimestamp =
      rest.foldl (fun maxTS r => max maxTS r.timestamp.unixMilli) first.timestamp.unixMilli := by
    simp only [wireBatch]
  obtain ⟨crc, patched⟩ := putCrc_appendTo (wireBatch first rest attributes payload)
  obtain ⟨crc', read⟩ := readFrom_putCrc first rest attributes payload small
  generalize wireBatch first rest attributes payload = batch at *
  have reached : ∃ r ∈ first :: rest, batch.maxTimestamp = r.timestamp.unixMilli := by
    rw [maxTS]
    rcases bounds.2.2 with same | ⟨r, inside, same⟩
    · exact ⟨first, by simp, same⟩
    · exact ⟨r, List.mem_cons_of_mem _ inside, same⟩
  have kept : int64 batch.maxTimestamp = batch.maxTimestamp := by
    obtain ⟨r, -, same⟩ := reached
    rw [same]
    exact int64_eq r.timestamp.unixMilli_range.1 r.timestamp.unixMilli_range.2
  have positive : 0 < (first :: rest).length := Nat.succ_pos _
  refine ⟨_, read, ?_, ?_, ?_, ?_, ?_⟩
  · change _ = 12 + int32 batch.length
    rw [patched, Kmsg.RecordBatch.appendTo_length, sized, present, Option.getD_some]
    push_cast
    omega
  · change int32 batch.numRecords = _
    rw [num, int32_int32, int32_eq (by omega) (by omega)]
  · change int32 batch.lastOffsetDelta = _
    rw [last, int32_int32, int32_eq (by omega) (by omega)]
  · intro r mem
    change _ ≤ int64 batch.maxTimestamp
    rw [kept, maxTS]
    rcases List.mem_cons.mp mem with rfl | inside
    · exact bounds.1
    · exact bounds.2.1 r inside
  · change ∃ r ∈ _, int64 batch.maxTimestamp = _
    rw [kept]
    exact reached

/-- The raw record bytes that `encodeBatch` compresses. -/
def rawRecords (first : Kgo.Record) (rest : List Kgo.Record) : Bytes :=
  encodeRecordsInto [] (first :: rest) first.timestamp.unixMilli

theorem multiRecordBatchEstimateBytes_raw (first : Kgo.Record) (rest : List Kgo.Record) :
    multiRecordBatchEstimateBytes (first :: rest) = 65 + (rawRecords first rest).length := by
  rw [multiRecordBatchEstimateBytes_cons, ← encodeRecordsFrom_length]
  rfl

/-- The encoded batch describes itself and is no longer than the estimate. -/
theorem encodeBatch_described [Snappy] (first : Kgo.Record) (rest : List Kgo.Record)
    (small : (rawRecords first rest).length < 2 ^ 31 - 49) :
    ∃ batch rb, encodeBatch (first :: rest) = some batch ∧
      DescribedBy (first :: rest) batch.buf rb ∧
      batch.buf.length + 4 ≤ multiRecordBatchEstimateBytes (first :: rest) := by
  have shrunk := compressPayload_length (rawRecords first rest)
  have count := recordsEstimateBytes_length first.timestamp.unixMilli 0 (first :: rest)
  rw [← encodeRecordsFrom_length] at count
  change 7 * _ ≤ (rawRecords first rest).length at count
  obtain ⟨batch, encoded, bytes⟩ := encodeBatch_cons first rest
  obtain ⟨rb, described⟩ := describedBy_putCrc first rest (compressPayload (rawRecords first rest)).2
    (compressPayload (rawRecords first rest)).1 (by omega) (by omega)
  refine ⟨batch, rb, encoded, ?_, ?_⟩
  · rw [bytes]
    exact described
  · obtain ⟨crc, patched⟩ := putCrc_appendTo (wireBatch first rest
      (compressPayload (rawRecords first rest)).2 (compressPayload (rawRecords first rest)).1)
    have length := Kmsg.RecordBatch.appendTo_length ({ wireBatch first rest
      (compressPayload (rawRecords first rest)).2 (compressPayload (rawRecords first rest)).1
        with crc := crc } : Kmsg.RecordBatch)
    change _ = 61 + (compressPayload (rawRecords first rest)).1.length at length
    rw [bytes, multiRecordBatchEstimateBytes_raw]
    change (putCrc ((wireBatch first rest (compressPayload (rawRecords first rest)).2
      (compressPayload (rawRecords first rest)).1).appendTo [])).length + 4 ≤ _
    rw [patched, length]
    omega

/-- The sizes the client works with are those of the bytes it sends. -/
theorem batch_sizes_exact [Snappy] (first : Kgo.Record) (rest : List Kgo.Record) (topic : String)
    (partition nodeID : Int) (nodeState : AgentState)
    (small : (rawRecords first rest).length < 2 ^ 31 - 49) :
    multiRecordBatchEstimateBytes (first :: rest) = 65 + (rawRecords first rest).length ∧
      (∃ e, newEncodedTopicPartitionRecords topic partition (first :: rest) = some e ∧
        RoutedBatch.uncompressedWireBytes ({ e with nodeID := nodeID, nodeState := nodeState } :
            RoutedEncodedTopicPartitionRecords) =
          RoutedBatch.uncompressedWireBytes (⟨topic, partition, first :: rest, nodeID, nodeState⟩ :
            RoutedTopicPartitionRecords)) ∧
      (∀ (i : Nat) (r : Kgo.Record), (first :: rest)[i]? = some r →
        ∃ body : Bytes, encodeRecord [] r (int32 i) first.timestamp.unixMilli =
            appendVarint [] (wireRecord r (int32 i) first.timestamp.unixMilli).length ++ body ∧
          (wireRecord r (int32 i) first.timestamp.unixMilli).length = body.length) ∧
      (∃ batch rb, encodeBatch (first :: rest) = some batch ∧
        DescribedBy (first :: rest) batch.buf rb ∧
        batch.buf.length + 4 ≤ multiRecordBatchEstimateBytes (first :: rest)) ∧
      ∀ batchMaxBytes : Nat, (batchMaxBytes : Int) ≤ batchMaxBytesCeiling → ∀ r : Kgo.Record,
        singleRecordBatchEstimateBytes r ≤ batchMaxBytes → formatBatchBytes r ≤ batchMaxBytes := by
  refine ⟨multiRecordBatchEstimateBytes_raw first rest, ?_, ?_,
    encodeBatch_described first rest small, ?_⟩
  · obtain ⟨e, made, -, -, count, sized⟩ := newEncodedTopicPartitionRecords_stats topic partition
      (List.cons_ne_nil first rest)
    refine ⟨e, made, ?_⟩
    change (if e.encodedStats.records = 0 then 0 else
      recordBatchHeaderBytes + e.encodedStats.uncompressedBytes) = _
    rw [count, if_neg (by simp)]
    exact sized
  · intro i r found
    have part := @length_encodeRecord_le first.timestamp.unixMilli _ _ i 0 found
    change _ ≤ (rawRecords first rest).length at part
    rw [Nat.zero_add] at part
    apply encodeRecord_body
    omega
  · intro batchMaxBytes ceiling r accepted
    unfold batchMaxBytesCeiling at ceiling
    rw [← singleRecordBatchEstimateBytes_eq (by omega)]
    exact accepted

/-- Two empty records, the second four seconds before the first. -/
theorem batch_sizes_exact_backwards :
    (rawRecords { timestamp := .unix 5 } [{ timestamp := .unix 1 }]).length = 15 ∧
      multiRecordBatchEstimateBytes [{ timestamp := .unix 5 }, { timestamp := .unix 1 }] =
        65 + (rawRecords { timestamp := .unix 5 } [{ timestamp := .unix 1 }]).length :=
  ⟨by decide +kernel,
    (@batch_sizes_exact Snappy.stored { timestamp := .unix 5 } [{ timestamp := .unix 1 }] "t" 0 1
      .healthy (by decide +kernel)).1⟩

end Warpstream
