import Warpstream.Kbin

set_option autoImplicit false

/- The record formats of the vendored `kmsg` package. -/
namespace Warpstream.Kmsg

open Kbin

/-- A header key is a Go string, kept as its bytes. -/
structure Header where
  key : Bytes
  value : Option Bytes
deriving DecidableEq

structure Record where
  length : Int := 0
  attributes : Int := 0
  timestampDelta : Int := 0
  timestampDelta64 : Int := 0
  offsetDelta : Int := 0
  key : Option Bytes := none
  value : Option Bytes := none
  headers : List Header := []
deriving DecidableEq

def Header.appendTo (v : Header) (dst : Bytes) : Bytes :=
  appendVarintBytes (appendVarintString dst v.key) v.value

def appendHeaders (dst : Bytes) (headers : List Header) : Bytes :=
  headers.foldl (fun dst v => v.appendTo dst) dst

def Record.appendTo (v : Record) (dst : Bytes) : Bytes :=
  let dst := appendVarint dst v.length
  let dst := appendInt8 dst v.attributes
  let dst := appendVarlong dst
    (if v.timestampDelta64 = 0 then v.timestampDelta else v.timestampDelta64)
  let dst := appendVarint dst v.offsetDelta
  let dst := appendVarintBytes dst v.key
  let dst := appendVarintBytes dst v.value
  let dst := appendVarint dst (int32 v.headers.length)
  appendHeaders dst v.headers

def readHeader (b : Reader) : Header × Reader :=
  let (key, b) := b.varintString
  let (value, b) := b.varintBytes
  (⟨key, value⟩, b)

def readHeaders : Nat → Reader → List Header × Reader
  | 0, b => ([], b)
  | l + 1, b =>
      let (h, b) := readHeader b
      let (rest, b) := readHeaders l b
      (h :: rest, b)

/-- `none` is `kbin.ErrNotEnoughData`. -/
def Record.readFrom (src : Bytes) : Option Record :=
  let b : Reader := ⟨src, false⟩
  let (length, b) := b.varint
  let (attributes, b) := b.readInt8
  let (delta, b) := b.varlong
  let (offsetDelta, b) := b.varint
  let (key, b) := b.varintBytes
  let (value, b) := b.varintBytes
  let (l, b) := b.varintArrayLen
  if b.bad then none
  else
    let (headers, b) := readHeaders l.toNat b
    if b.bad then none
    else some ⟨length, attributes, int32 delta, delta, offsetDelta, key, value, headers⟩

structure RecordBatch where
  firstOffset : Int := 0
  length : Int := 0
  partitionLeaderEpoch : Int := 0
  magic : Int := 0
  crc : Int := 0
  attributes : Int := 0
  lastOffsetDelta : Int := 0
  firstTimestamp : Int := 0
  maxTimestamp : Int := 0
  producerID : Int := 0
  producerEpoch : Int := 0
  firstSequence : Int := 0
  numRecords : Int := 0
  records : Option Bytes := none
deriving DecidableEq

def RecordBatch.appendTo (v : RecordBatch) (dst : Bytes) : Bytes :=
  let dst := appendInt64 dst v.firstOffset
  let dst := appendInt32 dst v.length
  let dst := appendInt32 dst v.partitionLeaderEpoch
  let dst := appendInt8 dst v.magic
  let dst := appendInt32 dst v.crc
  let dst := appendInt16 dst v.attributes
  let dst := appendInt32 dst v.lastOffsetDelta
  let dst := appendInt64 dst v.firstTimestamp
  let dst := appendInt64 dst v.maxTimestamp
  let dst := appendInt64 dst v.producerID
  let dst := appendInt16 dst v.producerEpoch
  let dst := appendInt32 dst v.firstSequence
  let dst := appendInt32 dst v.numRecords
  dst ++ v.records.getD []

def RecordBatch.readFrom (src : Bytes) : Option RecordBatch :=
  let b : Reader := ⟨src, false⟩
  let (firstOffset, b) := b.readInt64
  let (length, b) := b.readInt32
  let (partitionLeaderEpoch, b) := b.readInt32
  let (magic, b) := b.readInt8
  let (crc, b) := b.readInt32
  let (attributes, b) := b.readInt16
  let (lastOffsetDelta, b) := b.readInt32
  let (firstTimestamp, b) := b.readInt64
  let (maxTimestamp, b) := b.readInt64
  let (producerID, b) := b.readInt64
  let (producerEpoch, b) := b.readInt16
  let (firstSequence, b) := b.readInt32
  let (numRecords, b) := b.readInt32
  let (records, b) := b.span (length - 49)
  if b.bad then none
  else some ⟨firstOffset, length, partitionLeaderEpoch, magic, crc, attributes, lastOffsetDelta,
    firstTimestamp, maxTimestamp, producerID, producerEpoch, firstSequence, numRecords, records⟩

theorem appendVarint_eq (dst : Bytes) (i : Int) : appendVarint dst i = dst ++ appendVarint [] i := by
  simp only [appendVarint, List.nil_append]

theorem appendVarlong_eq (dst : Bytes) (i : Int) :
    appendVarlong dst i = dst ++ appendVarlong [] i := by
  simp only [appendVarlong, List.nil_append]

theorem appendInt8_eq (dst : Bytes) (i : Int) : appendInt8 dst i = dst ++ appendInt8 [] i := by
  simp only [appendInt8, List.nil_append]

theorem appendVarintString_eq (dst s : Bytes) :
    appendVarintString dst s = dst ++ appendVarintString [] s := by
  unfold appendVarintString
  rw [appendVarint_eq dst, List.append_assoc]

theorem appendVarintBytes_eq (dst : Bytes) (b : Option Bytes) :
    appendVarintBytes dst b = dst ++ appendVarintBytes [] b := by
  cases b with
  | none => exact appendVarint_eq dst (-1)
  | some b => exact appendVarintString_eq dst b

theorem Header.appendTo_eq (v : Header) (dst : Bytes) :
    v.appendTo dst = dst ++ v.appendTo [] := by
  unfold Header.appendTo
  rw [appendVarintBytes_eq, appendVarintBytes_eq (appendVarintString [] v.key),
    appendVarintString_eq, List.append_assoc]

theorem appendHeaders_eq (headers : List Header) (dst : Bytes) :
    appendHeaders dst headers = dst ++ headers.flatMap (fun v => v.appendTo []) := by
  induction headers generalizing dst with
  | nil => simp [appendHeaders]
  | cons v rest ih =>
      have step : appendHeaders dst (v :: rest) = appendHeaders (v.appendTo dst) rest := rfl
      rw [step, ih, Header.appendTo_eq, List.flatMap_cons, List.append_assoc]

/-- The bytes of a record are the concatenation of its fields' bytes. -/
theorem Record.appendTo_eq (v : Record) (dst : Bytes) :
    v.appendTo dst = dst ++ (appendVarint [] v.length ++ (appendInt8 [] v.attributes ++
      (appendVarlong [] (if v.timestampDelta64 = 0 then v.timestampDelta else v.timestampDelta64) ++
      (appendVarint [] v.offsetDelta ++ (appendVarintBytes [] v.key ++
      (appendVarintBytes [] v.value ++ (appendVarint [] (int32 v.headers.length) ++
      v.headers.flatMap (fun v => v.appendTo [])))))))) := by
  unfold Record.appendTo
  simp only
  rw [appendHeaders_eq, appendVarint_eq (appendVarintBytes _ _), appendVarintBytes_eq,
    appendVarintBytes_eq (appendVarint _ _), appendVarint_eq (appendVarlong _ _),
    appendVarlong_eq, appendInt8_eq, appendVarint_eq dst]
  simp only [List.append_assoc]

theorem Header.appendTo_length (v : Header) :
    (v.appendTo []).length = varintLen (int32 v.key.length) + v.key.length +
      (varintLen (int32 (fieldLen v.value)) + fieldLen v.value) := by
  simp only [Header.appendTo, appendVarintBytes_length, appendVarintString_length,
    List.length_nil]
  omega

theorem varintLen_pos (i : Int) : 1 ≤ varintLen i := Base128.uvarintLen_pos _

theorem varlongLen_pos (i : Int) : 1 ≤ varlongLen i := Base128.uvarintLen_pos _

theorem Record.appendTo_length (v : Record) (delta : Int)
    (given : (if v.timestampDelta64 = 0 then v.timestampDelta else v.timestampDelta64) = delta) :
    (v.appendTo []).length = varintLen v.length + (1 + varlongLen delta + varintLen v.offsetDelta +
      (varintLen (int32 (fieldLen v.key)) + fieldLen v.key) +
      (varintLen (int32 (fieldLen v.value)) + fieldLen v.value) +
      varintLen (int32 v.headers.length) +
      (v.headers.flatMap (fun v => v.appendTo [])).length) := by
  have byte : (appendInt8 [] v.attributes).length = 1 := by
    simp only [appendInt8, List.nil_append, bigEndian_length]
  rw [Record.appendTo_eq, given, List.nil_append]
  simp only [List.length_append, appendVarint_length, appendVarlong_length,
    appendVarintBytes_length, byte, List.length_nil, Nat.zero_add]
  omega

theorem Header.appendTo_length_pos (v : Header) : 2 ≤ (v.appendTo []).length := by
  have first := varintLen_pos (int32 v.key.length)
  have second := varintLen_pos (int32 (fieldLen v.value))
  rw [Header.appendTo_length]
  omega

theorem headers_length_le (headers : List Header) :
    2 * headers.length ≤ (headers.flatMap (fun v => v.appendTo [])).length := by
  induction headers with
  | nil => simp
  | cons v rest ih =>
      have first := v.appendTo_length_pos
      simp only [List.flatMap_cons, List.length_append, List.length_cons]
      omega

theorem readHeader_of_fields {b mid next : Reader} {key : Bytes} {value : Option Bytes}
    (first : b.varintString = (key, mid)) (second : mid.varintBytes = (value, next)) :
    readHeader b = (⟨key, value⟩, next) := by
  simp only [readHeader, first, second]

theorem readHeader_appendTo (v : Header) (rest : Bytes) (bad : Bool)
    (small : (v.appendTo []).length < 2 ^ 31) :
    readHeader ⟨v.appendTo [] ++ rest, bad⟩ = (v, ⟨rest, bad⟩) := by
  rw [Header.appendTo_length] at small
  have first := Reader.varintString_append v.key (appendVarintBytes [] v.value ++ rest) bad
    (by omega)
  have second := Reader.varintBytes_append v.value rest bad (by omega)
  have bytes : v.appendTo [] ++ rest =
      appendVarintString [] v.key ++ (appendVarintBytes [] v.value ++ rest) := by
    rw [Header.appendTo, appendVarintBytes_eq, List.append_assoc]
  rw [bytes, readHeader_of_fields first second]

theorem readHeaders_append (headers : List Header) (rest : Bytes) (bad : Bool)
    (small : (headers.flatMap (fun v => v.appendTo [])).length < 2 ^ 31) :
    readHeaders headers.length ⟨headers.flatMap (fun v => v.appendTo []) ++ rest, bad⟩ =
      (headers, ⟨rest, bad⟩) := by
  induction headers with
  | nil => rfl
  | cons v more ih =>
      simp only [List.flatMap_cons, List.length_append] at small
      have first := readHeader_appendTo v (more.flatMap (fun v => v.appendTo []) ++ rest) bad
        (by omega)
      have others := ih (by omega)
      simp only [List.flatMap_cons, List.append_assoc, List.length_cons, readHeaders, first, others]

theorem Record.readFrom_of_fields {src : Bytes} {b1 b2 b3 b4 b5 b6 b7 b8 : Reader}
    {length attributes delta offsetDelta l : Int} {key value : Option Bytes}
    {headers : List Header} (readLength : Reader.varint ⟨src, false⟩ = (length, b1))
    (readAttributes : b1.readInt8 = (attributes, b2)) (readDelta : b2.varlong = (delta, b3))
    (readOffset : b3.varint = (offsetDelta, b4)) (readKey : b4.varintBytes = (key, b5))
    (readValue : b5.varintBytes = (value, b6)) (readCount : b6.varintArrayLen = (l, b7))
    (countOk : b7.bad = false) (readAll : readHeaders l.toNat b7 = (headers, b8))
    (ok : b8.bad = false) :
    Record.readFrom src =
      some ⟨length, attributes, int32 delta, delta, offsetDelta, key, value, headers⟩ := by
  simp only [Record.readFrom, readLength, readAttributes, readDelta, readOffset, readKey, readValue,
    readCount, countOk, readAll, ok, Bool.false_eq_true, ↓reduceIte]

/-- Sizes and values for which a record's fields survive their wire types. -/
structure Record.Encodable (v : Record) : Prop where
  length : -2 ^ 31 ≤ v.length ∧ v.length < 2 ^ 31
  attributes : -2 ^ 7 ≤ v.attributes ∧ v.attributes < 2 ^ 7
  delta32 : v.timestampDelta = 0
  delta : -2 ^ 63 ≤ v.timestampDelta64 ∧ v.timestampDelta64 < 2 ^ 63
  offset : -2 ^ 31 ≤ v.offsetDelta ∧ v.offsetDelta < 2 ^ 31
  key : fieldLen v.key < 2 ^ 31
  value : fieldLen v.value < 2 ^ 31
  headers : (v.headers.flatMap (fun v => v.appendTo [])).length < 2 ^ 31

theorem Record.readFrom_appendTo (v : Record) (rest : Bytes) (encodable : v.Encodable) :
    Record.readFrom (v.appendTo [] ++ rest) =
      some { v with timestampDelta := int32 v.timestampDelta64 } := by
  have count := headers_length_le v.headers
  have small := encodable.headers
  have count32 : int32 v.headers.length = v.headers.length := int32_eq (by omega) (by omega)
  have delta : (if v.timestampDelta64 = 0 then v.timestampDelta else v.timestampDelta64) =
      v.timestampDelta64 := by
    split
    · rename_i zero
      rw [zero, encodable.delta32]
    · rfl
  have attributes : Int.bmod v.attributes (2 ^ (8 * 1)) = v.attributes := by
    have := encodable.attributes
    apply Int.bmod_eq_of_le <;> omega
  rw [Record.appendTo_eq, delta, count32]
  simp only [List.nil_append, List.append_assoc]
  have readAttributes := Reader.fixed_bigEndian 1 v.attributes
    (appendVarlong [] v.timestampDelta64 ++ (appendVarint [] v.offsetDelta ++
      (appendVarintBytes [] v.key ++ (appendVarintBytes [] v.value ++
      (appendVarint [] v.headers.length ++
      (v.headers.flatMap (fun v => v.appendTo []) ++ rest)))))) false
  rw [attributes] at readAttributes
  exact Record.readFrom_of_fields
    (Reader.varint_append v.length _ false encodable.length.1 encodable.length.2)
    readAttributes
    (Reader.varlong_append v.timestampDelta64 _ false encodable.delta.1 encodable.delta.2)
    (Reader.varint_append v.offsetDelta _ false encodable.offset.1 encodable.offset.2)
    (Reader.varintBytes_append v.key _ false encodable.key)
    (Reader.varintBytes_append v.value _ false encodable.value)
    (Reader.varintArrayLen_append v.headers.length _ false (by omega) (by omega)
      (by simp only [List.length_append]; omega))
    rfl (by simpa using readHeaders_append v.headers rest false encodable.headers) rfl

theorem RecordBatch.readFrom_of_fields {src : Bytes}
    {b1 b2 b3 b4 b5 b6 b7 b8 b9 b10 b11 b12 b13 b14 : Reader}
    {firstOffset length epoch magic crc attributes lastOffset firstTs maxTs producer : Int}
    {producerEpoch sequence num : Int} {records : Option Bytes}
    (r1 : Reader.readInt64 ⟨src, false⟩ = (firstOffset, b1)) (r2 : b1.readInt32 = (length, b2))
    (r3 : b2.readInt32 = (epoch, b3)) (r4 : b3.readInt8 = (magic, b4))
    (r5 : b4.readInt32 = (crc, b5)) (r6 : b5.readInt16 = (attributes, b6))
    (r7 : b6.readInt32 = (lastOffset, b7)) (r8 : b7.readInt64 = (firstTs, b8))
    (r9 : b8.readInt64 = (maxTs, b9)) (r10 : b9.readInt64 = (producer, b10))
    (r11 : b10.readInt16 = (producerEpoch, b11)) (r12 : b11.readInt32 = (sequence, b12))
    (r13 : b12.readInt32 = (num, b13)) (r14 : b13.span (length - 49) = (records, b14))
    (ok : b14.bad = false) :
    RecordBatch.readFrom src = some ⟨firstOffset, length, epoch, magic, crc, attributes,
      lastOffset, firstTs, maxTs, producer, producerEpoch, sequence, num, records⟩ := by
  simp only [RecordBatch.readFrom, r1, r2, r3, r4, r5, r6, r7, r8, r9, r10, r11, r12, r13, r14, ok,
    Bool.false_eq_true, ↓reduceIte]

/-- The fixed fields of a batch as the wire truncates them. -/
def RecordBatch.wrap (v : RecordBatch) : RecordBatch :=
  { firstOffset := int64 v.firstOffset
    length := int32 v.length
    partitionLeaderEpoch := int32 v.partitionLeaderEpoch
    magic := int8 v.magic
    crc := int32 v.crc
    attributes := int16 v.attributes
    lastOffsetDelta := int32 v.lastOffsetDelta
    firstTimestamp := int64 v.firstTimestamp
    maxTimestamp := int64 v.maxTimestamp
    producerID := int64 v.producerID
    producerEpoch := int16 v.producerEpoch
    firstSequence := int32 v.firstSequence
    numRecords := int32 v.numRecords
    records := v.records }

theorem RecordBatch.readFrom_appendTo (v : RecordBatch) (payload rest : Bytes)
    (present : v.records = some payload) (sized : int32 v.length = payload.length + 49) :
    RecordBatch.readFrom (v.appendTo [] ++ rest) = some v.wrap := by
  have body : int32 v.length - 49 = payload.length := by omega
  have bytes : v.appendTo [] ++ rest =
      bigEndian 8 (word 8 v.firstOffset) ++ (bigEndian 4 (word 4 v.length) ++
      (bigEndian 4 (word 4 v.partitionLeaderEpoch) ++ (bigEndian 1 (word 1 v.magic) ++
      (bigEndian 4 (word 4 v.crc) ++ (bigEndian 2 (word 2 v.attributes) ++
      (bigEndian 4 (word 4 v.lastOffsetDelta) ++ (bigEndian 8 (word 8 v.firstTimestamp) ++
      (bigEndian 8 (word 8 v.maxTimestamp) ++ (bigEndian 8 (word 8 v.producerID) ++
      (bigEndian 2 (word 2 v.producerEpoch) ++ (bigEndian 4 (word 4 v.firstSequence) ++
      (bigEndian 4 (word 4 v.numRecords) ++ (payload ++ rest))))))))))))) := by
    simp only [RecordBatch.appendTo, appendInt64, appendInt32, appendInt16, appendInt8,
      List.nil_append, List.append_assoc, present, Option.getD_some]
  have span := Reader.span_append payload rest false
  rw [← body] at span
  have read := RecordBatch.readFrom_of_fields
    (Reader.fixed_bigEndian 8 v.firstOffset _ false) (Reader.fixed_bigEndian 4 v.length _ false)
    (Reader.fixed_bigEndian 4 v.partitionLeaderEpoch _ false)
    (Reader.fixed_bigEndian 1 v.magic _ false) (Reader.fixed_bigEndian 4 v.crc _ false)
    (Reader.fixed_bigEndian 2 v.attributes _ false)
    (Reader.fixed_bigEndian 4 v.lastOffsetDelta _ false)
    (Reader.fixed_bigEndian 8 v.firstTimestamp _ false)
    (Reader.fixed_bigEndian 8 v.maxTimestamp _ false)
    (Reader.fixed_bigEndian 8 v.producerID _ false)
    (Reader.fixed_bigEndian 2 v.producerEpoch _ false)
    (Reader.fixed_bigEndian 4 v.firstSequence _ false)
    (Reader.fixed_bigEndian 4 v.numRecords _ false) span rfl
  rw [bytes, read, RecordBatch.wrap, present]
  rfl

end Warpstream.Kmsg
