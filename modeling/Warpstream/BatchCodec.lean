import Warpstream.Record

set_option autoImplicit false

/- `encodeBatch` and `decodeBatch`: one Kafka RecordBatch (magic 2) with an
optional Snappy payload. A Go panic is `none`. -/
namespace Warpstream

open Kbin

/-- The Snappy block codec of `s2`; decoding undoes encoding. -/
class Snappy where
  encodeSnappy : Bytes → Bytes
  decode : Bytes → Option Bytes
  decode_encodeSnappy : ∀ raw, decode (encodeSnappy raw) = some raw

/-- One bit of the reflected Castagnoli polynomial division. -/
def crc32cBit (crc : BitVec 32) : BitVec 32 :=
  if crc.getLsbD 0 then crc >>> 1 ^^^ 0x82f63b78#32 else crc >>> 1

def crc32cByte (crc : BitVec 32) (b : UInt8) : BitVec 32 :=
  let x := crc ^^^ b.toBitVec.setWidth 32
  crc32cBit (crc32cBit (crc32cBit (crc32cBit (crc32cBit (crc32cBit (crc32cBit (crc32cBit x)))))))

/-- `crc32.Checksum` over the Castagnoli table. -/
def crc32c (bytes : Bytes) : BitVec 32 := ~~~(bytes.foldl crc32cByte 0xffffffff#32)

def wireHeader (h : Kgo.RecordHeader) : Kmsg.Header := ⟨h.key, h.value⟩

def recordLength (r : Kmsg.Record) : Int :=
  int32 (1 + varlongLen r.timestampDelta64 + varintLen r.offsetDelta +
    (varintLen (int32 (fieldLen r.key)) + fieldLen r.key) +
    (varintLen (int32 (fieldLen r.value)) + fieldLen r.value) +
    varintLen (int32 r.headers.length) +
    (r.headers.map fun h => varintLen (int32 h.key.length) + h.key.length +
      (varintLen (int32 (fieldLen h.value)) + fieldLen h.value)).sum : Nat)

/-- The `kmsg.Record` that `encodeRecord` appends. -/
def wireRecord (r : Kgo.Record) (offsetDelta firstTimestamp : Int) : Kmsg.Record :=
  let wire : Kmsg.Record :=
    { timestampDelta64 := int64 (r.timestamp.unixMilli - firstTimestamp)
      offsetDelta := offsetDelta
      key := r.key
      value := r.value
      headers := r.headers.map wireHeader }
  { wire with length := recordLength wire }

def encodeRecord (dst : Bytes) (r : Kgo.Record) (offsetDelta firstTimestamp : Int) : Bytes :=
  (wireRecord r offsetDelta firstTimestamp).appendTo dst

/-- The loop of `encodeRecordsInto` from index `i` on. -/
def encodeRecordsFrom (firstTimestamp : Int) : Nat → Bytes → List Kgo.Record → Bytes
  | _, dst, [] => dst
  | i, dst, r :: rest =>
      encodeRecordsFrom firstTimestamp (i + 1) (encodeRecord dst r (int32 i) firstTimestamp) rest

def encodeRecordsInto (dst : Bytes) (records : List Kgo.Record) (firstTimestamp : Int) : Bytes :=
  encodeRecordsFrom firstTimestamp 0 dst records

/-- The batch bytes with the uncompressed and compressed payload sizes. -/
structure EncodedBatch where
  buf : Bytes
  uncompressedBytes : Nat
  compressedBytes : Nat
deriving DecidableEq

/-- `binary.BigEndian.PutUint32(buf[crcOffset:], checksum)`. -/
def putCrc (buf : Bytes) : Bytes :=
  buf.take crcOffset ++ bigEndian 4 (crc32c (buf.drop (crcOffset + 4))).toNat ++
    buf.drop (crcOffset + 4)

/-- The `kmsg.RecordBatch` that `encodeBatch` appends, before its CRC is known. -/
def wireBatch (first : Kgo.Record) (rest : List Kgo.Record) (attributes : Int) (payload : Bytes) :
    Kmsg.RecordBatch :=
  let firstTS := first.timestamp.unixMilli
  { partitionLeaderEpoch := -1
    magic := 2
    attributes := attributes
    lastOffsetDelta := int32 ((first :: rest).length - 1 : Int)
    firstTimestamp := firstTS
    maxTimestamp := rest.foldl (fun maxTS r => max maxTS r.timestamp.unixMilli) firstTS
    producerID := -1
    producerEpoch := -1
    firstSequence := -1
    numRecords := int32 (first :: rest).length
    records := some payload
    length := int32 (batchFixedFieldsAfterLength + int32 payload.length) }

/-- The payload and the codec bits of the attributes: Snappy unless it does not
shrink the records. -/
def compressPayload [Snappy] (raw : Bytes) : Bytes × Int :=
  let comp := Snappy.encodeSnappy raw
  if comp.length < raw.length then (comp, 2) else (raw, 0)

def encodeBatch [Snappy] : List Kgo.Record → Option EncodedBatch
  | [] => none
  | first :: rest =>
      let raw := encodeRecordsInto [] (first :: rest) first.timestamp.unixMilli
      let packed := compressPayload raw
      let batch := wireBatch first rest packed.2 packed.1
      some ⟨putCrc (batch.appendTo []), raw.length, packed.1.length⟩

def decodedHeader (h : Kmsg.Header) : Kgo.RecordHeader := ⟨h.key, h.value⟩

def decodedRecord (firstTimestamp : Int) (wire : Kmsg.Record) : Kgo.Record :=
  { key := wire.key
    value := wire.value
    headers := wire.headers.map decodedHeader
    timestamp := Time.ofUnixMilli (int64 (firstTimestamp + wire.timestampDelta64)) }

/-- The record loop of `decodeBatch`. Every pass over bytes this client encoded
consumes at least one, so the payload's length bounds the passes. -/
def decodeRecords (firstTimestamp : Int) : Nat → Bytes → Option (List Kgo.Record)
  | _, [] => some []
  | 0, _ :: _ => none
  | passes + 1, b :: bs => do
      let wire ← Kmsg.Record.readFrom (b :: bs)
      let skip : Int := varintLen wire.length + wire.length
      if skip < 0 ∨ (b :: bs).length < skip then none
      else
        let rest ← decodeRecords firstTimestamp passes ((b :: bs).drop skip.toNat)
        some (decodedRecord firstTimestamp wire :: rest)

def decompressPayload [Snappy] (attributes : Int) (payload : Bytes) : Option Bytes :=
  if attributes % 8 = 2 then Snappy.decode payload else some payload

def decodeBatch [Snappy] (encoded : Bytes) : Option (List Kgo.Record) := do
  let rb ← Kmsg.RecordBatch.readFrom encoded
  let payload ← decompressPayload rb.attributes (rb.records.getD [])
  if rb.numRecords < 0 then none
  else decodeRecords rb.firstTimestamp payload.length payload

theorem wireHeaders_length (headers : List Kgo.RecordHeader) :
    ((headers.map wireHeader).flatMap (fun v => v.appendTo [])).length =
      headersEstimateBytes headers := by
  induction headers with
  | nil => rfl
  | cons h rest ih =>
      simp only [List.map_cons, List.flatMap_cons, List.length_append, ih,
        Kmsg.Header.appendTo_length, headersEstimateBytes, List.sum_cons]
      rfl

section wireRecord

variable (r : Kgo.Record) (offsetDelta firstTimestamp : Int)

theorem wireRecord_key : (wireRecord r offsetDelta firstTimestamp).key = r.key := rfl

theorem wireRecord_value : (wireRecord r offsetDelta firstTimestamp).value = r.value := rfl

theorem wireRecord_headers :
    (wireRecord r offsetDelta firstTimestamp).headers = r.headers.map wireHeader := rfl

theorem wireRecord_offsetDelta :
    (wireRecord r offsetDelta firstTimestamp).offsetDelta = offsetDelta := rfl

theorem wireRecord_timestampDelta64 : (wireRecord r offsetDelta firstTimestamp).timestampDelta64 =
    int64 (r.timestamp.unixMilli - firstTimestamp) := by
  simp only [wireRecord]

theorem wireRecord_timestampDelta :
    (wireRecord r offsetDelta firstTimestamp).timestampDelta = 0 := rfl

theorem wireRecord_attributes : (wireRecord r offsetDelta firstTimestamp).attributes = 0 := rfl

theorem wireRecord_length : (wireRecord r offsetDelta firstTimestamp).length =
    int32 (recordBodyBytes r offsetDelta (int64 (r.timestamp.unixMilli - firstTimestamp))) := by
  have headers : ((r.headers.map wireHeader).map fun h =>
      varintLen (int32 h.key.length) + h.key.length +
        (varintLen (int32 (fieldLen h.value)) + fieldLen h.value)).sum =
      headersEstimateBytes r.headers := by
    rw [List.map_map]
    rfl
  unfold wireRecord recordLength recordBodyBytes
  simp only
  rw [headers, List.length_map]

end wireRecord

/-- What `encodeRecord` appends has exactly the estimated size. -/
theorem encodeRecord_length (r : Kgo.Record) (offsetDelta firstTimestamp : Int) :
    (encodeRecord [] r offsetDelta firstTimestamp).length =
      recordEstimateBytes r offsetDelta (int64 (r.timestamp.unixMilli - firstTimestamp)) := by
  have delta : (if (wireRecord r offsetDelta firstTimestamp).timestampDelta64 = 0 then
      (wireRecord r offsetDelta firstTimestamp).timestampDelta else
      (wireRecord r offsetDelta firstTimestamp).timestampDelta64) =
      int64 (r.timestamp.unixMilli - firstTimestamp) := by
    rw [wireRecord_timestampDelta, wireRecord_timestampDelta64]
    split
    · rename_i zero
      exact zero.symm
    · rfl
  unfold encodeRecord
  rw [Kmsg.Record.appendTo_length _ _ delta, wireRecord_length, wireRecord_key, wireRecord_value,
    wireRecord_headers, wireRecord_offsetDelta, wireHeaders_length, List.length_map]
  unfold recordEstimateBytes recordBodyBytes
  rfl

theorem encodeRecord_eq (dst : Bytes) (r : Kgo.Record) (offsetDelta firstTimestamp : Int) :
    encodeRecord dst r offsetDelta firstTimestamp =
      dst ++ encodeRecord [] r offsetDelta firstTimestamp := by
  unfold encodeRecord
  rw [Kmsg.Record.appendTo_eq _ dst, Kmsg.Record.appendTo_eq _ [], List.nil_append]

theorem encodeRecordsFrom_eq (firstTimestamp : Int) (i : Nat) (dst : Bytes)
    (records : List Kgo.Record) :
    encodeRecordsFrom firstTimestamp i dst records =
      dst ++ encodeRecordsFrom firstTimestamp i [] records := by
  induction records generalizing i dst with
  | nil => simp [encodeRecordsFrom]
  | cons r rest ih =>
      unfold encodeRecordsFrom
      rw [ih, ih (i + 1) (encodeRecord [] r (int32 i) firstTimestamp), encodeRecord_eq,
        List.append_assoc]

theorem encodeRecordsFrom_cons (firstTimestamp : Int) (i : Nat) (r : Kgo.Record)
    (rest : List Kgo.Record) :
    encodeRecordsFrom firstTimestamp i [] (r :: rest) =
      encodeRecord [] r (int32 i) firstTimestamp ++
        encodeRecordsFrom firstTimestamp (i + 1) [] rest := by
  rw [encodeRecordsFrom, encodeRecordsFrom_eq]

/-- The estimate is exact for the uncompressed payload. -/
theorem encodeRecordsFrom_length (firstTimestamp : Int) (i : Nat) (records : List Kgo.Record) :
    (encodeRecordsFrom firstTimestamp i [] records).length =
      recordsEstimateBytes firstTimestamp i records := by
  induction records generalizing i with
  | nil => rfl
  | cons r rest ih =>
      rw [encodeRecordsFrom_cons, List.length_append, encodeRecord_length, ih,
        recordsEstimateBytes_cons]

theorem recordsEstimateBytes_length (firstTS : Int) (i : Nat) (records : List Kgo.Record) :
    7 * records.length ≤ recordsEstimateBytes firstTS i records := by
  induction records generalizing i with
  | nil => simp
  | cons r rest ih =>
      have first := recordEstimateBytes_pos r (int32 i) (int64 (r.timestamp.unixMilli - firstTS))
      have others := ih (i + 1)
      rw [recordsEstimateBytes_cons, List.length_cons]
      omega

theorem fields_le_body (r : Kgo.Record) (offsetDelta tsDelta : Int) :
    fieldLen r.key + fieldLen r.value + headersEstimateBytes r.headers ≤
      recordBodyBytes r offsetDelta tsDelta := by
  unfold recordBodyBytes
  omega

/-- A record that fits a 31-bit payload is read back field by field. -/
theorem readFrom_encodeRecord (r : Kgo.Record) (i : Nat) (firstTimestamp : Int) (rest : Bytes)
    (small : (encodeRecord [] r (int32 i) firstTimestamp).length < 2 ^ 31) :
    Kmsg.Record.readFrom (encodeRecord [] r (int32 i) firstTimestamp ++ rest) =
      some { wireRecord r (int32 i) firstTimestamp with
        timestampDelta := int32 (int64 (r.timestamp.unixMilli - firstTimestamp)) } := by
  rw [encodeRecord_length] at small
  have body := fields_le_body r (int32 i) (int64 (r.timestamp.unixMilli - firstTimestamp))
  have total : recordBodyBytes r (int32 i) (int64 (r.timestamp.unixMilli - firstTimestamp)) ≤
      recordEstimateBytes r (int32 i) (int64 (r.timestamp.unixMilli - firstTimestamp)) :=
    Nat.le_add_left _ _
  refine Kmsg.Record.readFrom_appendTo _ rest
    ⟨?_, ?_, wireRecord_timestampDelta _ _ _, ?_, ?_, ?_, ?_, ?_⟩
  · rw [wireRecord_length]
    exact int32_range _
  · rw [wireRecord_attributes]
    constructor <;> norm_num
  · rw [wireRecord_timestampDelta64]
    exact int64_range _
  · rw [wireRecord_offsetDelta]
    exact int32_range _
  · rw [wireRecord_key]
    omega
  · rw [wireRecord_value]
    omega
  · rw [wireRecord_headers, wireHeaders_length]
    omega

/-- What a record keeps through the codec: everything but its topic, partition,
context and the part of the timestamp below a millisecond. -/
def bareRecord (r : Kgo.Record) : Kgo.Record :=
  { key := r.key
    value := r.value
    headers := r.headers
    timestamp := Time.ofUnixMilli r.timestamp.unixMilli }

theorem decodedRecord_wireRecord (r : Kgo.Record) (offsetDelta firstTimestamp delta32 : Int) :
    decodedRecord firstTimestamp
      { wireRecord r offsetDelta firstTimestamp with timestampDelta := delta32 } = bareRecord r := by
  have time : int64 (firstTimestamp + int64 (r.timestamp.unixMilli - firstTimestamp)) =
      r.timestamp.unixMilli :=
    int64_sub_add _ _ r.timestamp.unixMilli_range.1 r.timestamp.unixMilli_range.2
  have headers : (r.headers.map wireHeader).map decodedHeader = r.headers := by
    rw [List.map_map]
    exact List.map_id _
  unfold decodedRecord bareRecord
  change Kgo.Record.mk r.key r.value ((r.headers.map wireHeader).map decodedHeader)
    (Time.ofUnixMilli (int64 (firstTimestamp + int64 (r.timestamp.unixMilli - firstTimestamp))))
    "" 0 none = _
  rw [headers, time]

theorem skip_wireRecord (r : Kgo.Record) (offsetDelta firstTimestamp : Int)
    (small : (encodeRecord [] r offsetDelta firstTimestamp).length < 2 ^ 31) :
    (varintLen (wireRecord r offsetDelta firstTimestamp).length : Int) +
      (wireRecord r offsetDelta firstTimestamp).length =
        (encodeRecord [] r offsetDelta firstTimestamp).length := by
  rw [encodeRecord_length] at small ⊢
  rw [wireRecord_length]
  unfold recordEstimateBytes at small ⊢
  generalize recordBodyBytes r offsetDelta (int64 (r.timestamp.unixMilli - firstTimestamp)) = body
    at small ⊢
  rw [int32_eq (i := (body : Int)) (by omega) (by omega)] at small ⊢
  push_cast
  rfl

/-- Reading one encoded record: its length field spans it and it decodes to the
original's content. -/
theorem exists_readFrom_encodeRecord (r : Kgo.Record) (i : Nat) (firstTimestamp : Int)
    (rest : Bytes) (small : (encodeRecord [] r (int32 i) firstTimestamp).length < 2 ^ 31) :
    ∃ wire, Kmsg.Record.readFrom (encodeRecord [] r (int32 i) firstTimestamp ++ rest) = some wire ∧
      (varintLen wire.length : Int) + wire.length =
        (encodeRecord [] r (int32 i) firstTimestamp).length ∧
      decodedRecord firstTimestamp wire = bareRecord r := by
  have length (v : Kmsg.Record) (delta : Int) :
      ({ v with timestampDelta := delta } : Kmsg.Record).length = v.length := rfl
  refine ⟨_, readFrom_encodeRecord r i firstTimestamp rest small, ?_, ?_⟩
  · rw [length]
    exact skip_wireRecord r _ _ small
  · exact decodedRecord_wireRecord r _ _ _

/-- One pass of the record loop over a complete record. -/
theorem decodeRecords_step {firstTimestamp : Int} {passes : Nat} {record tail : Bytes}
    {wire : Kmsg.Record} {rest : List Kgo.Record}
    (read : Kmsg.Record.readFrom (record ++ tail) = some wire)
    (skip : (varintLen wire.length : Int) + wire.length = record.length)
    (nonempty : 0 < record.length)
    (later : decodeRecords firstTimestamp passes tail = some rest) :
    decodeRecords firstTimestamp (passes + 1) (record ++ tail) =
      some (decodedRecord firstTimestamp wire :: rest) := by
  cases bytes : record ++ tail with
  | nil =>
      have empty := congrArg List.length bytes
      simp only [List.length_append, List.length_nil] at empty
      omega
  | cons b bs =>
      rw [bytes] at read
      have fits : ¬ ((record.length : Int) < 0 ∨ ((b :: bs).length : Int) < record.length) := by
        rw [← bytes, List.length_append]
        omega
      have dropped : (b :: bs).drop record.length = tail := by
        rw [← bytes]
        exact List.drop_left' rfl
      simp only [decodeRecords, read, Option.bind_eq_bind, Option.bind_some, skip, fits, ↓reduceIte,
        Int.toNat_natCast, dropped, later]

theorem decodeRecords_encodeRecordsFrom (firstTimestamp : Int) (i passes : Nat)
    (records : List Kgo.Record)
    (small : (encodeRecordsFrom firstTimestamp i [] records).length < 2 ^ 31)
    (enough : records.length ≤ passes) :
    decodeRecords firstTimestamp passes (encodeRecordsFrom firstTimestamp i [] records) =
      some (records.map bareRecord) := by
  induction records generalizing i passes with
  | nil => cases passes <;> rfl
  | cons r rest ih =>
      rw [encodeRecordsFrom_cons] at small ⊢
      simp only [List.length_append] at small
      simp only [List.length_cons] at enough
      obtain ⟨passes, rfl⟩ : ∃ n, passes = n + 1 := ⟨passes - 1, by omega⟩
      obtain ⟨wire, read, skip, same⟩ := exists_readFrom_encodeRecord r i firstTimestamp
        (encodeRecordsFrom firstTimestamp (i + 1) [] rest) (by omega)
      have positive := recordEstimateBytes_pos r (int32 i)
        (int64 (r.timestamp.unixMilli - firstTimestamp))
      rw [← encodeRecord_length] at positive
      have tail := ih (i + 1) passes (by omega) (by omega)
      rw [decodeRecords_step read skip (by omega) tail, same, List.map_cons]

theorem putCrc_split (head crc tail : Bytes) (offset : head.length = crcOffset)
    (width : crc.length = 4) :
    putCrc (head ++ (crc ++ tail)) = head ++ (bigEndian 4 (crc32c tail).toNat ++ tail) := by
  have dropped : (head ++ (crc ++ tail)).drop (crcOffset + 4) = tail := by
    rw [← List.append_assoc]
    exact List.drop_left' (by rw [List.length_append, offset, width])
  unfold putCrc
  rw [dropped, List.take_left' offset, List.append_assoc]

/-- Patching the CRC gives the bytes of the same batch with another CRC field. -/
theorem putCrc_appendTo (v : Kmsg.RecordBatch) :
    ∃ crc, putCrc (v.appendTo []) = ({ v with crc := crc } : Kmsg.RecordBatch).appendTo [] := by
  have fields (w : Kmsg.RecordBatch) : w.appendTo [] =
      (appendInt8 (appendInt32 (appendInt32 (appendInt64 [] w.firstOffset) w.length)
        w.partitionLeaderEpoch) w.magic) ++ (bigEndian 4 (word 4 w.crc) ++
      (bigEndian 2 (word 2 w.attributes) ++ (bigEndian 4 (word 4 w.lastOffsetDelta) ++
      (bigEndian 8 (word 8 w.firstTimestamp) ++ (bigEndian 8 (word 8 w.maxTimestamp) ++
      (bigEndian 8 (word 8 w.producerID) ++ (bigEndian 2 (word 2 w.producerEpoch) ++
      (bigEndian 4 (word 4 w.firstSequence) ++ (bigEndian 4 (word 4 w.numRecords) ++
      w.records.getD [])))))))))  := by
    simp only [Kmsg.RecordBatch.appendTo, appendInt64, appendInt32, appendInt16, appendInt8,
      List.append_assoc]
  have small (c : BitVec 32) : word 4 c.toNat = c.toNat := by
    have := c.isLt
    unfold word
    omega
  rw [fields, putCrc_split]
  · exact ⟨_, by rw [fields, small]⟩
  · simp only [appendInt64, appendInt32, appendInt8, List.length_append, bigEndian_length,
      List.length_nil, crcOffset]
  · exact bigEndian_length _ _

/-- The int32 length field of a batch can hold the uncompressed records. The
estimate also counts the field itself and the twelve bytes before it. -/
def FitsBatch (records : List Kgo.Record) : Prop :=
  multiRecordBatchEstimateBytes records < 2 ^ 31 + 16

instance (records : List Kgo.Record) : Decidable (FitsBatch records) :=
  inferInstanceAs (Decidable (_ < _))

theorem FitsBatch.raw {first : Kgo.Record} {rest : List Kgo.Record}
    (fits : FitsBatch (first :: rest)) :
    (encodeRecordsInto [] (first :: rest) first.timestamp.unixMilli).length + 49 < 2 ^ 31 := by
  unfold FitsBatch multiRecordBatchEstimateBytes at fits
  unfold encodeRecordsInto
  rw [encodeRecordsFrom_length]
  simp only [recordBatchHeaderBytes, batchFixedFieldsAfterLength] at fits
  omega

theorem FitsBatch.length_lt {records : List Kgo.Record} (fits : FitsBatch records) :
    records.length < 2 ^ 31 := by
  cases records with
  | nil => simp
  | cons first rest =>
      have raw := fits.raw
      have count := recordsEstimateBytes_length first.timestamp.unixMilli 0 (first :: rest)
      rw [encodeRecordsInto, encodeRecordsFrom_length] at raw
      omega

section payload

variable [Snappy] (raw : Bytes)

theorem compressPayload_codec : (compressPayload raw).2 = 0 ∨ (compressPayload raw).2 = 2 := by
  unfold compressPayload
  simp only
  split
  · exact Or.inr rfl
  · exact Or.inl rfl

theorem compressPayload_length : (compressPayload raw).1.length ≤ raw.length := by
  unfold compressPayload
  simp only
  split
  · exact Nat.le_of_lt ‹_›
  · exact Nat.le_refl _

theorem decompressPayload_compressPayload :
    decompressPayload (compressPayload raw).2 (compressPayload raw).1 = some raw := by
  unfold compressPayload decompressPayload
  simp only
  split
  · exact Snappy.decode_encodeSnappy raw
  · rfl

end payload

theorem wireBatch_sized (first : Kgo.Record) (rest : List Kgo.Record) (attributes : Int)
    (payload : Bytes) (small : payload.length + 49 < 2 ^ 31) :
    int32 (wireBatch first rest attributes payload).length = payload.length + 49 := by
  have payload32 : int32 (payload.length : Int) = payload.length := int32_eq (by omega) (by omega)
  have total : int32 (((49 : Nat) : Int) + payload.length) = payload.length + 49 := by
    rw [int32_eq (by omega) (by omega)]
    omega
  unfold wireBatch batchFixedFieldsAfterLength
  simp only
  rw [payload32, total, int32_eq (by omega) (by omega)]

/-- An encoded batch is read back with its fields as the wire truncates them. -/
theorem readFrom_putCrc (first : Kgo.Record) (rest : List Kgo.Record) (attributes : Int)
    (payload : Bytes) (small : payload.length + 49 < 2 ^ 31) :
    ∃ crc, Kmsg.RecordBatch.readFrom
        (putCrc ((wireBatch first rest attributes payload).appendTo [])) =
      some ({ wireBatch first rest attributes payload with crc := crc } : Kmsg.RecordBatch).wrap := by
  have sized := wireBatch_sized first rest attributes payload small
  have present : (wireBatch first rest attributes payload).records = some payload := rfl
  obtain ⟨crc, patched⟩ := putCrc_appendTo (wireBatch first rest attributes payload)
  rw [patched]
  generalize wireBatch first rest attributes payload = batch at *
  have read := Kmsg.RecordBatch.readFrom_appendTo { batch with crc := crc } payload [] present sized
  rw [List.append_nil] at read
  exact ⟨crc, read⟩

/-- What the fixed fields of an encoded batch read back as. -/
theorem readFrom_wireBatch (first : Kgo.Record) (rest : List Kgo.Record) (attributes : Int)
    (payload : Bytes) (codec : attributes = 0 ∨ attributes = 2)
    (small : payload.length + 49 < 2 ^ 31) :
    ∃ rb, Kmsg.RecordBatch.readFrom
        (putCrc ((wireBatch first rest attributes payload).appendTo [])) = some rb ∧
      rb.attributes = attributes ∧ rb.records = some payload ∧
      rb.firstTimestamp = first.timestamp.unixMilli ∧
      rb.numRecords = int32 (int32 (first :: rest).length) := by
  have range := first.timestamp.unixMilli_range
  have present : (wireBatch first rest attributes payload).records = some payload := rfl
  have firstTS : (wireBatch first rest attributes payload).firstTimestamp =
      first.timestamp.unixMilli := rfl
  have given : (wireBatch first rest attributes payload).attributes = attributes := rfl
  have num : (wireBatch first rest attributes payload).numRecords =
      int32 (first :: rest).length := by
    simp only [wireBatch]
  obtain ⟨crc, read⟩ := readFrom_putCrc first rest attributes payload small
  generalize wireBatch first rest attributes payload = batch at *
  refine ⟨_, read, ?_, present, ?_, ?_⟩
  · change int16 batch.attributes = attributes
    rw [given]
    rcases codec with rfl | rfl <;> decide
  · change int64 batch.firstTimestamp = first.timestamp.unixMilli
    rw [firstTS]
    exact int64_eq range.1 range.2
  · change int32 batch.numRecords = _
    rw [num]

theorem decodeBatch_of_read [Snappy] {encoded payload : Bytes} {rb : Kmsg.RecordBatch}
    {records : List Kgo.Record} (read : Kmsg.RecordBatch.readFrom encoded = some rb)
    (unpacked : decompressPayload rb.attributes (rb.records.getD []) = some payload)
    (counted : 0 ≤ rb.numRecords)
    (decoded : decodeRecords rb.firstTimestamp payload.length payload = some records) :
    decodeBatch encoded = some records := by
  have nonneg : ¬ rb.numRecords < 0 := by omega
  simp only [decodeBatch, read, Option.bind_eq_bind, Option.bind_some, unpacked, nonneg,
    ↓reduceIte, decoded]

theorem encodeBatch_cons [Snappy] (first : Kgo.Record) (rest : List Kgo.Record) :
    ∃ batch, encodeBatch (first :: rest) = some batch ∧ batch.buf = putCrc ((wireBatch first rest
      (compressPayload (encodeRecordsInto [] (first :: rest) first.timestamp.unixMilli)).2
      (compressPayload (encodeRecordsInto [] (first :: rest) first.timestamp.unixMilli)).1).appendTo
        []) := by
  unfold encodeBatch
  exact ⟨_, rfl, rfl⟩

/-- `decodeBatch` undoes `encodeBatch` up to what the wire does not carry. -/
theorem decodeBatch_encodeBatch [Snappy] {records : List Kgo.Record} (nonempty : records ≠ [])
    (fits : FitsBatch records) :
    ∃ batch, encodeBatch records = some batch ∧
      decodeBatch batch.buf = some (records.map bareRecord) := by
  cases records with
  | nil => exact absurd rfl nonempty
  | cons first rest =>
      have small := fits.raw
      have count := fits.length_lt
      have counted : int32 (int32 ((first :: rest).length : Int)) = (first :: rest).length := by
        rw [int32_eq (i := ((first :: rest).length : Int)) (by omega) (by omega)]
        exact int32_eq (by omega) (by omega)
      have estimate := recordsEstimateBytes_length first.timestamp.unixMilli 0 (first :: rest)
      rw [← encodeRecordsFrom_length] at estimate
      obtain ⟨batch, encoded, bytes⟩ := encodeBatch_cons first rest
      refine ⟨batch, encoded, ?_⟩
      rw [bytes]
      unfold encodeRecordsInto at small ⊢
      have decoded := decodeRecords_encodeRecordsFrom first.timestamp.unixMilli 0
        (encodeRecordsFrom first.timestamp.unixMilli 0 [] (first :: rest)).length (first :: rest)
        (by omega) (by omega)
      generalize encodeRecordsFrom first.timestamp.unixMilli 0 [] (first :: rest) = raw at *
      have shrunk := compressPayload_length raw
      obtain ⟨rb, read, codec, stored, firstTS, num⟩ := readFrom_wireBatch first rest
        (compressPayload raw).2 (compressPayload raw).1 (compressPayload_codec raw) (by omega)
      have unpacked : decompressPayload rb.attributes (rb.records.getD []) = some raw := by
        rw [codec, stored]
        exact decompressPayload_compressPayload raw
      rw [← firstTS] at decoded
      exact decodeBatch_of_read read unpacked (by omega) decoded

end Warpstream
