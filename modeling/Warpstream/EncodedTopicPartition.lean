import Warpstream.BatchCodec
import Warpstream.RoutedBatch

set_option autoImplicit false

/- Pre-encoded batches: the item type of the hedge buffer and of the direct
producer. Merging two of them decodes, concatenates and re-encodes. -/
namespace Warpstream

structure ProduceRequestStats where
  records : Nat := 0
  batches : Nat := 0
  uncompressedBytes : Nat := 0
  compressedBytes : Nat := 0
deriving DecidableEq

def ProduceRequestStats.add (s o : ProduceRequestStats) : ProduceRequestStats :=
  { records := s.records + o.records
    batches := s.batches + o.batches
    uncompressedBytes := s.uncompressedBytes + o.uncompressedBytes
    compressedBytes := s.compressedBytes + o.compressedBytes }

structure EncodedTopicPartitionRecords where
  topic : String
  partition : Int
  encoded : Bytes
  encodedStats : ProduceRequestStats
deriving DecidableEq

def EncodedTopicPartitionRecords.topicPartition (p : EncodedTopicPartitionRecords) :
    TopicPartition :=
  ⟨p.topic, p.partition⟩

def newEncodedTopicPartitionRecords [Snappy] (topic : String) (partition : Int)
    (records : List Kgo.Record) : Option EncodedTopicPartitionRecords := do
  let batch ← encodeBatch records
  some
    { topic := topic
      partition := partition
      encoded := batch.buf
      encodedStats :=
        { records := records.length
          batches := 1
          uncompressedBytes := batch.uncompressedBytes
          compressedBytes := batch.compressedBytes } }

/-- `routedEncodedTopicPartitionRecords`. -/
structure RoutedEncodedTopicPartitionRecords extends EncodedTopicPartitionRecords where
  nodeID : Int
  nodeState : AgentState := .healthy
deriving DecidableEq

namespace RoutedEncodedTopicPartitionRecords

def recordCount (p : RoutedEncodedTopicPartitionRecords) : Nat := p.encodedStats.records

def uncompressedWireBytes (p : RoutedEncodedTopicPartitionRecords) : Nat :=
  if p.encodedStats.records = 0 then 0
  else recordBatchHeaderBytes + p.encodedStats.uncompressedBytes

/-- The records of all items in order, `none` if one of them does not decode. -/
def decodeAll [Snappy] (items : List RoutedEncodedTopicPartitionRecords) :
    Option (List Kgo.Record) :=
  (items.mapM fun p => decodeBatch p.encoded).map List.flatten

def mergeWith [Snappy] (p : RoutedEncodedTopicPartitionRecords)
    (others : List RoutedEncodedTopicPartitionRecords) :
    Option RoutedEncodedTopicPartitionRecords :=
  match others.getLast? with
  | none => some p
  | some last =>
      if ∃ o ∈ others, p.topic ≠ o.topic ∨ p.partition ≠ o.partition ∨ p.nodeID ≠ o.nodeID then
        none
      else do
        let records ← decodeAll (p :: others)
        let encoded ← newEncodedTopicPartitionRecords p.topic p.partition records
        some { encoded with nodeID := p.nodeID, nodeState := last.nodeState }

instance [Snappy] : RoutedBatch RoutedEncodedTopicPartitionRecords where
  getTopicPartition p := p.topicPartition
  getNodeID p := p.nodeID
  recordCount := recordCount
  payloadBytes _ := 0
  uncompressedWireBytes := uncompressedWireBytes
  splitByMaxBytes p _ := [p]
  mergeWith := mergeWith

instance [Snappy] : LawfulSplit RoutedEncodedTopicPartitionRecords where
  fits _ _ _ := le_refl 1
  nonempty _ _ some c mem := by rwa [List.mem_singleton.mp mem]

end RoutedEncodedTopicPartitionRecords

def unrouteEncodedTopicPartitionRecords (parts : List RoutedEncodedTopicPartitionRecords) :
    List EncodedTopicPartitionRecords :=
  parts.map RoutedEncodedTopicPartitionRecords.toEncodedTopicPartitionRecords

def agentFromRouted (nodeID : Int) (parts : List RoutedEncodedTopicPartitionRecords) : Agent :=
  if parts.any fun p => p.nodeState = .demoted then ⟨nodeID, .demoted⟩ else ⟨nodeID, .healthy⟩

def newMultiRoutedEncodedTopicPartitionRecords {D : Type}
    (parts : List EncodedTopicPartitionRecords) (nodeID : Int) (done : D) :
    List (Promised RoutedEncodedTopicPartitionRecords D) :=
  parts.map fun p => ⟨{ p with nodeID := nodeID }, done⟩

/-- A decoded record agrees with the original in all the wire carries. -/
structure SameContent (r decoded : Kgo.Record) : Prop where
  key : decoded.key = r.key
  value : decoded.value = r.value
  headers : decoded.headers = r.headers
  timestamp : decoded.timestamp.unixMilli = r.timestamp.unixMilli

theorem bareRecord_unixMilli (r : Kgo.Record) :
    (bareRecord r).timestamp.unixMilli = r.timestamp.unixMilli :=
  Time.unixMilli_ofUnixMilli _ r.timestamp.unixMilli_range.1 r.timestamp.unixMilli_range.2

theorem sameContent_bareRecord (r : Kgo.Record) : SameContent r (bareRecord r) :=
  ⟨rfl, rfl, rfl, bareRecord_unixMilli r⟩

theorem forall₂_bareRecord (records : List Kgo.Record) :
    List.Forall₂ SameContent records (records.map bareRecord) := by
  induction records with
  | nil => exact List.Forall₂.nil
  | cons r rest ih => exact List.Forall₂.cons (sameContent_bareRecord r) ih

theorem bareRecord_bareRecord (r : Kgo.Record) : bareRecord (bareRecord r) = bareRecord r := by
  have time := bareRecord_unixMilli r
  rw [bareRecord, time]
  rfl

theorem map_bareRecord_map (records : List Kgo.Record) :
    (records.map bareRecord).map bareRecord = records.map bareRecord := by
  rw [List.map_map]
  exact List.map_congr_left fun r _ => bareRecord_bareRecord r

theorem recordsEstimateBytes_bareRecord (firstTS : Int) (i : Nat) (records : List Kgo.Record) :
    recordsEstimateBytes firstTS i (records.map bareRecord) =
      recordsEstimateBytes firstTS i records := by
  induction records generalizing i with
  | nil => rfl
  | cons r rest ih =>
      rw [List.map_cons, recordsEstimateBytes_cons, recordsEstimateBytes_cons, ih,
        bareRecord_unixMilli]
      rfl

/-- Dropping what the wire does not carry leaves the size as it is. -/
theorem fitsBatch_bareRecord {records : List Kgo.Record} (fits : FitsBatch records) :
    FitsBatch (records.map bareRecord) := by
  cases records with
  | nil => exact fits
  | cons first rest =>
      unfold FitsBatch at fits ⊢
      rw [multiRecordBatchEstimateBytes_cons] at fits
      rw [List.map_cons, multiRecordBatchEstimateBytes_cons, bareRecord_unixMilli, ← List.map_cons,
        recordsEstimateBytes_bareRecord]
      exact fits

theorem newEncodedTopicPartitionRecords_eq [Snappy] (topic : String) (partition : Int)
    {records : List Kgo.Record} (nonempty : records ≠ []) (fits : FitsBatch records) :
    ∃ e, newEncodedTopicPartitionRecords topic partition records = some e ∧ e.topic = topic ∧
      e.partition = partition ∧ decodeBatch e.encoded = some (records.map bareRecord) ∧
      e.encodedStats.records = records.length := by
  obtain ⟨batch, encoded, decoded⟩ := decodeBatch_encodeBatch nonempty fits
  simp only [newEncodedTopicPartitionRecords, encoded, Option.bind_eq_bind, Option.bind_some]
  exact ⟨_, rfl, rfl, rfl, decoded, rfl⟩

/-- The stated size of an encoded batch is that of its uncompressed records. -/
theorem newEncodedTopicPartitionRecords_stats [Snappy] (topic : String) (partition : Int)
    {records : List Kgo.Record} (nonempty : records ≠ []) :
    ∃ e, newEncodedTopicPartitionRecords topic partition records = some e ∧ e.topic = topic ∧
      e.partition = partition ∧ e.encodedStats.records = records.length ∧
      recordBatchHeaderBytes + e.encodedStats.uncompressedBytes =
        multiRecordBatchEstimateBytes records := by
  cases records with
  | nil => exact absurd rfl nonempty
  | cons first rest =>
      refine ⟨_, rfl, rfl, rfl, rfl, ?_⟩
      rw [multiRecordBatchEstimateBytes_cons, ← encodeRecordsFrom_length]
      rfl

open RoutedEncodedTopicPartitionRecords

/-- The encoded items that can exist: batches this client encoded from a list of
records, and merges of such items in any nesting. -/
inductive Encodes [Snappy] : RoutedEncodedTopicPartitionRecords → List Kgo.Record → Prop
  | encode (topic : String) (partition : Int) (records : List Kgo.Record)
      (e : EncodedTopicPartitionRecords) (nodeID : Int) (nodeState : AgentState)
      (nonempty : records ≠ []) (fits : FitsBatch records)
      (encoded : newEncodedTopicPartitionRecords topic partition records = some e) :
      Encodes { e with nodeID := nodeID, nodeState := nodeState } records
  | merge (first : RoutedEncodedTopicPartitionRecords × List Kgo.Record)
      (others : List (RoutedEncodedTopicPartitionRecords × List Kgo.Record))
      (merged : RoutedEncodedTopicPartitionRecords)
      (each : ∀ part ∈ first :: others, Encodes part.1 part.2)
      (fits : FitsBatch ((first :: others).flatMap Prod.snd))
      (eq : mergeWith first.1 (others.map Prod.fst) = some merged) :
      Encodes merged ((first :: others).flatMap Prod.snd)

/-- An item holds the bytes and the count of a list of records. -/
structure Holds [Snappy] (item : RoutedEncodedTopicPartitionRecords) (records : List Kgo.Record) :
    Prop where
  nonempty : records ≠ []
  decoded : decodeBatch item.encoded = some (records.map bareRecord)
  counted : item.recordCount = records.length

section merge

variable [Snappy] {parts : List (RoutedEncodedTopicPartitionRecords × List Kgo.Record)}

theorem mapM_decodeBatch (each : ∀ part ∈ parts, Holds part.1 part.2) :
    ((parts.map Prod.fst).mapM fun p => decodeBatch p.encoded) =
      some (parts.map fun part => part.2.map bareRecord) := by
  induction parts with
  | nil => rfl
  | cons part rest ih =>
      have first := (each part (by simp)).decoded
      have later := ih fun p mem => each p (List.mem_cons_of_mem _ mem)
      simp only [List.map_cons, List.mapM_cons, first, later, Option.bind_eq_bind,
        Option.bind_some, Option.pure_def]

omit [Snappy] in
theorem flatten_map_bareRecord :
    (parts.map fun part => part.2.map bareRecord).flatten =
      (parts.flatMap Prod.snd).map bareRecord := by
  rw [List.map_flatMap, List.flatMap_def]

theorem sum_recordCount (each : ∀ part ∈ parts, Holds part.1 part.2) :
    (parts.map fun part => part.1.recordCount).sum = (parts.flatMap Prod.snd).length := by
  induction parts with
  | nil => rfl
  | cons part rest ih =>
      have later := ih fun p mem => each p (List.mem_cons_of_mem _ mem)
      rw [List.map_cons, List.sum_cons, later, (each part (by simp)).counted, List.flatMap_cons,
        List.length_append]

/-- Merging items of one route succeeds and holds all their records in order. -/
theorem mergeWith_holds (first : RoutedEncodedTopicPartitionRecords × List Kgo.Record)
    (others : List (RoutedEncodedTopicPartitionRecords × List Kgo.Record))
    (each : ∀ part ∈ first :: others, Holds part.1 part.2)
    (route : ∀ part ∈ others, first.1.topic = part.1.topic ∧
      first.1.partition = part.1.partition ∧ first.1.nodeID = part.1.nodeID)
    (fits : FitsBatch ((first :: others).flatMap Prod.snd)) :
    ∃ merged, mergeWith first.1 (others.map Prod.fst) = some merged ∧
      Holds merged ((first :: others).flatMap Prod.snd) := by
  unfold mergeWith
  cases tail : (others.map Prod.fst).getLast? with
  | none =>
      have empty : others = [] := List.map_eq_nil_iff.mp (List.getLast?_eq_none_iff.mp tail)
      subst empty
      exact ⟨first.1, rfl, by simpa using each first (by simp)⟩
  | some last =>
      have accepted : ¬ ∃ o ∈ others.map Prod.fst, first.1.topic ≠ o.topic ∨
          first.1.partition ≠ o.partition ∨ first.1.nodeID ≠ o.nodeID := by
        rintro ⟨o, mem, differs⟩
        obtain ⟨part, inside, rfl⟩ := List.mem_map.mp mem
        obtain ⟨topic, partition, node⟩ := route part inside
        tauto
      have nonempty : ((first :: others).flatMap Prod.snd).map bareRecord ≠ [] := by
        simp [(each first (by simp)).nonempty]
      have decoded : decodeAll (first.1 :: others.map Prod.fst) =
          some (((first :: others).flatMap Prod.snd).map bareRecord) := by
        have all := mapM_decodeBatch each
        rw [List.map_cons] at all
        rw [decodeAll, all, Option.map_some, flatten_map_bareRecord]
      obtain ⟨e, made, -, -, bytes, count⟩ := newEncodedTopicPartitionRecords_eq first.1.topic
        first.1.partition nonempty (fitsBatch_bareRecord fits)
      simp only [accepted, ↓reduceIte, decoded, made, Option.bind_eq_bind, Option.bind_some]
      refine ⟨_, rfl, by simpa using nonempty, ?_, ?_⟩
      · rw [← map_bareRecord_map]
        exact bytes
      · rw [← List.length_map (f := bareRecord)]
        exact count

end merge

/-- `mergeWith` returns only when all items share the route of the first. -/
theorem mergeWith_route [Snappy] {p merged : RoutedEncodedTopicPartitionRecords}
    {others : List RoutedEncodedTopicPartitionRecords} (eq : mergeWith p others = some merged) :
    ∀ o ∈ others, p.topic = o.topic ∧ p.partition = o.partition ∧ p.nodeID = o.nodeID := by
  intro o mem
  unfold mergeWith at eq
  cases tail : others.getLast? with
  | none =>
      rw [List.getLast?_eq_none_iff.mp tail] at mem
      cases mem
  | some last =>
      rw [tail] at eq
      by_contra differs
      have refused : ∃ o ∈ others,
          p.topic ≠ o.topic ∨ p.partition ≠ o.partition ∨ p.nodeID ≠ o.nodeID :=
        ⟨o, mem, by tauto⟩
      simp only [refused, ↓reduceIte] at eq
      cases eq

/-- Every item that can exist holds its records, however often it was merged. -/
theorem Encodes.holds [Snappy] {item : RoutedEncodedTopicPartitionRecords}
    {records : List Kgo.Record} (encodes : Encodes item records) : Holds item records := by
  induction encodes with
  | encode topic partition records e nodeID nodeState nonempty fits encoded =>
      obtain ⟨e', made, -, -, bytes, count⟩ :=
        newEncodedTopicPartitionRecords_eq topic partition nonempty fits
      obtain rfl : e = e' := Option.some.inj (encoded.symm.trans made)
      exact ⟨nonempty, bytes, count⟩
  | merge first others merged each fits eq ih =>
      have route : ∀ part ∈ others, first.1.topic = part.1.topic ∧
          first.1.partition = part.1.partition ∧ first.1.nodeID = part.1.nodeID :=
        fun part mem => mergeWith_route eq part.1 (List.mem_map_of_mem mem)
      obtain ⟨again, made, held⟩ := mergeWith_holds first others ih route fits
      obtain rfl : merged = again := Option.some.inj (eq.symm.trans made)
      exact held

/-- The codec loses nothing the wire carries, and merging encoded items is
concatenation of their records, closed under further merges. -/
theorem batch_codec_roundtrip_and_merge [Snappy] :
    (∀ records : List Kgo.Record, records ≠ [] → FitsBatch records →
      ∃ batch decoded, encodeBatch records = some batch ∧ decodeBatch batch.buf = some decoded ∧
        decoded.length = records.length ∧ List.Forall₂ SameContent records decoded) ∧
    (∀ (first : RoutedEncodedTopicPartitionRecords × List Kgo.Record)
        (others : List (RoutedEncodedTopicPartitionRecords × List Kgo.Record)),
      (∀ part ∈ first :: others, Encodes part.1 part.2) →
      (∀ part ∈ others, first.1.topic = part.1.topic ∧ first.1.partition = part.1.partition ∧
        first.1.nodeID = part.1.nodeID) →
      FitsBatch ((first :: others).flatMap Prod.snd) →
      ∃ merged lists, mergeWith first.1 (others.map Prod.fst) = some merged ∧
        (((first :: others).map Prod.fst).mapM fun o => decodeBatch o.encoded) = some lists ∧
        decodeBatch merged.encoded = some lists.flatten ∧
        merged.recordCount = ((first :: others).map fun part => part.1.recordCount).sum ∧
        Encodes merged ((first :: others).flatMap Prod.snd)) ∧
    (∀ (item : RoutedEncodedTopicPartitionRecords) (records : List Kgo.Record),
      Encodes item records →
      ∃ decoded, decodeBatch item.encoded = some decoded ∧
        List.Forall₂ SameContent records decoded ∧ item.recordCount = records.length) := by
  refine ⟨?_, ?_, ?_⟩
  · intro records nonempty fits
    obtain ⟨batch, encoded, decoded⟩ := decodeBatch_encodeBatch nonempty fits
    exact ⟨batch, _, encoded, decoded, List.length_map _, forall₂_bareRecord records⟩
  · intro first others each route fits
    have held : ∀ part ∈ first :: others, Holds part.1 part.2 := fun part mem => (each part mem).holds
    obtain ⟨merged, eq, all⟩ := mergeWith_holds first others held route fits
    refine ⟨merged, _, eq, mapM_decodeBatch held, ?_, ?_, .merge first others merged each fits eq⟩
    · rw [flatten_map_bareRecord]
      exact all.decoded
    · rw [sum_recordCount held]
      exact all.counted
  · intro item records encodes
    exact ⟨_, encodes.holds.decoded, forall₂_bareRecord records, encodes.holds.counted⟩

/-- The codec that stores its input. -/
abbrev Snappy.stored : Snappy := ⟨id, some, fun _ => rfl⟩

/-- A record without a value. -/
def tombstone : Kgo.Record := { key := some [1, 2], timestamp := Time.ofUnixMilli 5000 }

/-- A record with an empty value and two headers, one of them without a value. -/
def emptied : Kgo.Record :=
  { value := some [], headers := [⟨[3], some [4]⟩, ⟨[], none⟩], timestamp := Time.ofUnixMilli 2000 }

/-- The timestamps go backwards twice: inside the first item, and from it to the second. -/
theorem batch_codec_roundtrip_and_merge_stored :
    letI := Snappy.stored
    (∃ batch decoded, encodeBatch [tombstone, emptied] = some batch ∧
      decodeBatch batch.buf = some decoded ∧ decoded.length = 2 ∧
      List.Forall₂ SameContent [tombstone, emptied] decoded) ∧
    ∃ e e' merged decoded, newEncodedTopicPartitionRecords "t" 0 [tombstone, emptied] = some e ∧
      newEncodedTopicPartitionRecords "t" 0 [{ value := some [5, 6, 7] }] = some e' ∧
      mergeWith { e with nodeID := 1 } [{ e' with nodeID := 1 }] = some merged ∧
      merged.recordCount = 3 ∧ decodeBatch merged.encoded = some decoded ∧
      List.Forall₂ SameContent [tombstone, emptied, { value := some [5, 6, 7] }] decoded := by
  let _ := Snappy.stored
  have fits : FitsBatch [tombstone, emptied] := by decide
  have fits' : FitsBatch [{ value := some [5, 6, 7] }] := by decide
  have all : FitsBatch [tombstone, emptied, { value := some [5, 6, 7] }] := by decide
  refine ⟨batch_codec_roundtrip_and_merge.1 [tombstone, emptied] (by simp) fits, ?_⟩
  obtain ⟨e, made, topic, partition, -, count⟩ :=
    newEncodedTopicPartitionRecords_eq "t" 0 (by simp) fits
  obtain ⟨e', made', topic', partition', -, count'⟩ :=
    newEncodedTopicPartitionRecords_eq "t" 0 (by simp) fits'
  have first := Encodes.encode "t" 0 _ e 1 .healthy (by simp) fits made
  have second := Encodes.encode "t" 0 _ e' 1 .healthy (by simp) fits' made'
  obtain ⟨merged, -, eq, -, -, counted, encodes⟩ := batch_codec_roundtrip_and_merge.2.1
    ({ e with nodeID := 1 }, [tombstone, emptied])
    [({ e' with nodeID := 1 }, [{ value := some [5, 6, 7] }])]
    (by simpa using ⟨first, second⟩) (by simp [topic, topic', partition, partition']) all
  obtain ⟨decoded, bytes, same, -⟩ := batch_codec_roundtrip_and_merge.2.2 merged _ encodes
  refine ⟨e, e', merged, decoded, made, made', eq, counted.trans ?_, bytes, same⟩
  simp [recordCount, count, count']

end Warpstream
