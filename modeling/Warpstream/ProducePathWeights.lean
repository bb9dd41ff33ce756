import Warpstream.ProducePathSizes

set_option autoImplicit false

/- How often a record is in the items and batches of the produce path. Encoding a flush of
the main buffer keeps the count, and merging batches in the hedge buffer does not add to it. -/
namespace Warpstream

open RoutedBatch

section weigh

variable {α κ : Type} [DecidableEq κ]

theorem weigh_sublist {weight : α → Nat} {xs ys : List α} (sub : xs.Sublist ys) :
    weigh weight xs ≤ weigh weight ys :=
  (sub.map weight).sum_le_sum fun _ _ => Nat.zero_le _

theorem weigh_map {β : Type} (weight : β → Nat) (f : α → β) (xs : List α) :
    weigh weight (xs.map f) = weigh (fun x => weight (f x)) xs := by
  rw [weigh, List.map_map]
  rfl

theorem weigh_congr {weight weight' : α → Nat} {xs : List α}
    (same : ∀ x ∈ xs, weight x = weight' x) : weigh weight xs = weigh weight' xs := by
  rw [weigh, List.map_congr_left same]
  rfl

theorem weigh_le_weigh {weight weight' : α → Nat} {xs : List α}
    (each : ∀ x ∈ xs, weight x ≤ weight' x) : weigh weight xs ≤ weigh weight' xs :=
  List.sum_le_sum each

theorem weigh_mul_left (k : Nat) (weight : α → Nat) (xs : List α) :
    weigh (fun x => k * weight x) xs = k * weigh weight xs :=
  List.sum_map_mul_left xs weight k

/-- Only the items with a key weigh anything. -/
theorem weigh_filter_key (key : α → κ) (k : κ) (weight : α → Nat) (xs : List α) :
    weigh weight (xs.filter fun x => key x = k) =
      weigh (fun x => if key x = k then weight x else 0) xs := by
  induction xs with
  | nil => rfl
  | cons x rest ih =>
      by_cases same : key x = k
      · simp [same, ih]
      · simp [same, ih]

/-- One item at most has the key. -/
theorem weigh_key_le {key : α → κ} {xs : List α} (distinct : (xs.map key).Nodup) {k : κ}
    {weight : α → Nat} {bound : Nat} (each : ∀ x ∈ xs, key x = k → weight x ≤ bound) :
    weigh weight (xs.filter fun x => key x = k) ≤ bound := by
  induction xs with
  | nil => exact Nat.zero_le _
  | cons x rest ih =>
      obtain ⟨fresh, later⟩ := List.nodup_cons.mp distinct
      by_cases same : key x = k
      · have none : (rest.filter fun x => key x = k) = [] := by
          rw [List.filter_eq_nil_iff]
          intro y mem other
          exact fresh (List.mem_map.mpr ⟨y, mem, (of_decide_eq_true other).trans same.symm⟩)
        rw [List.filter_cons_of_pos (by simpa using same), none, weigh_cons, weigh_nil, Nat.add_zero]
        exact each x List.mem_cons_self same
      · rw [List.filter_cons_of_neg (by simpa using same)]
        exact ih later fun y mem => each y (List.mem_cons_of_mem _ mem)

theorem weigh_of_forall₂ {β : Type} {R : α → β → Prop} {weight : α → Nat} {weight' : β → Nat}
    {xs : List α} {ys : List β} (each : List.Forall₂ R xs ys)
    (same : ∀ x ∈ xs, ∀ y, R x y → weight x = weight' y) : weigh weight xs = weigh weight' ys := by
  induction each with
  | nil => rfl
  | cons here _ ih =>
      rw [weigh_cons, weigh_cons, same _ List.mem_cons_self _ here,
        ih fun x mem => same x (List.mem_cons_of_mem _ mem)]

theorem weigh_filter_of_zero {weight : α → Nat} {keep : α → Bool} {xs : List α}
    (zero : ∀ x ∈ xs, keep x = false → weight x = 0) :
    weigh weight (xs.filter keep) = weigh weight xs := by
  induction xs with
  | nil => rfl
  | cons x rest ih =>
      have later := ih fun y mem => zero y (List.mem_cons_of_mem _ mem)
      cases kept : keep x with
      | true => rw [List.filter_cons_of_pos kept, weigh_cons, weigh_cons, later]
      | false =>
          rw [List.filter_cons_of_neg (by simp [kept]), weigh_cons, later,
            zero x List.mem_cons_self kept, Nat.zero_add]

theorem count_flatMap_eq_weigh {β : Type} [DecidableEq β] (b : β) (f : α → List β) (xs : List α) :
    (xs.flatMap f).count b = weigh (fun x => (f x).count b) xs := by
  rw [List.count_flatMap]
  rfl

end weigh

section records

variable [Snappy]

/-- The records that a batch decodes to. -/
def EncodedTopicPartitionRecords.decoded (p : EncodedTopicPartitionRecords) : List Kgo.Record :=
  (decodeBatch p.encoded).getD []

/-- The records that the request of an attempt has for a partition. -/
def Attempt.sentRecords (a : Attempt) (tp : TopicPartition) : List Kgo.Record :=
  match a.request with
  | .error _ => []
  | .ok (req, _) =>
      (req.topics.filter fun t => t.topic = tp.topic).flatMap fun t =>
        (t.partitions.filter fun p => p.partition = tp.partition).flatMap fun p =>
          (decodeBatch p.records).getD []

/-- How often a batch has the record for the partition. -/
def batchWeight (tp : TopicPartition) (b : Kgo.Record) (p : EncodedTopicPartitionRecords) : Nat :=
  if p.topicPartition = tp then p.decoded.count b else 0

/-- How often an item for one of the agents has the record for the partition. -/
def hedgeWeight (toAgent : Int → Bool) (tp : TopicPartition) (b : Kgo.Record)
    (w : RoutedEncodedTopicPartitionRecords) : Nat :=
  if toAgent w.nodeID then batchWeight tp b w.toEncodedTopicPartitionRecords else 0

omit [Snappy] in
/-- How often an item of the main buffer has the record, as far as the wire carries it. -/
def recordWeight (tp : TopicPartition) (b : Kgo.Record) (w : RoutedTopicPartitionRecords) : Nat :=
  if getTopicPartition w = tp then (w.records.map bareRecord).count b else 0

variable {tp : TopicPartition} {b : Kgo.Record}

omit [Snappy] in
theorem weigh_recordWeight (items : List RoutedTopicPartitionRecords) :
    weigh (recordWeight tp b) items = ((partitionRecords tp items).map bareRecord).count b := by
  rw [partitionRecords, List.map_flatMap, count_flatMap_eq_weigh, weigh_filter_key]
  rfl

omit [Snappy] in
theorem lossy_recordWeight : Lossy (recordWeight tp b) := by
  intro w max
  have chunks : weigh (recordWeight tp b) (splitByMaxBytes w max) =
      weigh (fun c => if getTopicPartition w = tp then (c.records.map bareRecord).count b else 0)
        (splitByMaxBytes w max) := by
    refine weigh_congr fun c mem => ?_
    rw [recordWeight, (LawfulRoutedBatch.split_routing w max c mem).1]
  rw [chunks, recordWeight]
  split
  · have whole : (splitByMaxBytes w max).flatMap RoutedTopicPartitionRecords.records = w.records :=
      LawfulRoutedBatch.split_records w max
    rw [← count_flatMap_eq_weigh, ← List.map_flatMap, whole]
  · simp [weigh]

theorem lossy_hedgeWeight {toAgent : Int → Bool} : Lossy (hedgeWeight toAgent tp b) :=
  fun _ _ => Nat.le_refl _

/-- A request has no record more often than the batches it is built from. -/
theorem Attempt.count_sentRecords_le (a : Attempt) :
    (a.sentRecords tp).count b ≤ weigh (batchWeight tp b) a.partitions := by
  unfold sentRecords
  cases built : a.request with
  | error e => exact Nat.zero_le _
  | ok result =>
      obtain ⟨-, topics, request, names, entries, -⟩ := of_foldlM_buildTopic built
      have groups := FirstSeen.groups_groupBy EncodedTopicPartitionRecords.topic a.partitions
      have same : result.1.topics = topics := by rw [request]; rfl
      dsimp only
      rw [count_flatMap_eq_weigh, same]
      refine weigh_key_le (names ▸ groups.nodup) fun t mem topic => ?_
      obtain ⟨-, g, group, key, own⟩ := entries t mem
      have members := groups.members g.1 g.2 group
      rw [own, List.filter_map, List.flatMap_map, count_flatMap_eq_weigh]
      -- the entries of the topic are batches for the partition
      have part : ∀ p ∈ (nonEmpty g.2).filter
          ((fun q => decide (q.partition = tp.partition)) ∘ (·.reqPartition)),
          ((decodeBatch p.reqPartition.records).getD []).count b = batchWeight tp b p := by
        intro p inside
        obtain ⟨kept, partition⟩ := List.mem_filter.mp inside
        have here := List.mem_of_mem_filter kept
        rw [members, List.mem_filter, decide_eq_true_eq] at here
        have same : p.topicPartition = tp := congrArg₂ TopicPartition.mk
          ((here.2.trans key).trans topic) (of_decide_eq_true partition)
        rw [batchWeight, if_pos same]
        rfl
      rw [weigh_congr part]
      refine weigh_sublist (List.filter_sublist.trans (List.filter_sublist.trans ?_))
      rw [members]
      exact List.filter_sublist

theorem EncodedFrom.decoded {p : EncodedTopicPartitionRecords} {records : List Kgo.Record}
    (encoded : EncodedFrom p records) (fits : FitsBatch records) :
    p.decoded = records.map bareRecord := by
  obtain ⟨nonempty, encodes⟩ := encoded
  obtain ⟨e, made, -, -, decoded, -⟩ :=
    newEncodedTopicPartitionRecords_eq p.topic p.partition nonempty fits
  obtain rfl := Option.some.inj (encodes.symm.trans made)
  rw [EncodedTopicPartitionRecords.decoded, decoded, Option.getD_some]

theorem EncodedFrom.size {p : RoutedEncodedTopicPartitionRecords} {records : List Kgo.Record}
    (encoded : EncodedFrom p.toEncodedTopicPartitionRecords records) :
    uncompressedWireBytes p = multiRecordBatchEstimateBytes records := by
  obtain ⟨nonempty, encodes⟩ := encoded
  obtain ⟨e, made, -, -, counted, sized⟩ :=
    newEncodedTopicPartitionRecords_stats p.topic p.partition nonempty
  obtain rfl := Option.some.inj (encodes.symm.trans made)
  have present := List.length_pos_iff.mpr nonempty
  have size : uncompressedWireBytes p = p.uncompressedWireBytes := rfl
  rw [size, RoutedEncodedTopicPartitionRecords.uncompressedWireBytes, if_neg (by omega), sized]

/-- A merge decodes to what its parts decode to. -/
theorem decoded_of_mergeWith {first merged : RoutedEncodedTopicPartitionRecords}
    {others : List RoutedEncodedTopicPartitionRecords}
    {contents : RoutedEncodedTopicPartitionRecords → List Kgo.Record}
    (encoded : ∀ o ∈ first :: others, EncodedFrom o.toEncodedTopicPartitionRecords (contents o))
    (small : others = [] ∨ ((first :: others).map uncompressedWireBytes).sum ≤ 2 ^ 29)
    (eq : first.mergeWith others = some merged) :
    merged.decoded = (first :: others).flatMap fun o => o.decoded := by
  rcases small with rfl | small
  · obtain rfl := Option.some.inj (show some first = some merged from eq)
    simp
  · have sizes : ((first :: others).map contents).map multiRecordBatchEstimateBytes =
        (first :: others).map uncompressedWireBytes := by
      rw [List.map_map]
      exact List.map_congr_left fun o mem => (encoded o mem).size.symm
    have each : ∀ o ∈ first :: others, Holds o (contents o) := by
      intro o mem
      refine (encoded o mem).holds (Nat.le_trans (Nat.le_trans ?_ small) (by norm_num))
      exact List.single_le_sum (fun _ _ => Nat.zero_le _) _ (List.mem_map_of_mem mem)
    have grown := multiRecordBatchEstimateBytes_flatten_le ((first :: others).map contents)
    rw [sizes] at grown
    let pair := fun o => (o, contents o)
    have parts : ((first :: others).map pair).flatMap Prod.snd =
        ((first :: others).map contents).flatten := by
      rw [List.flatMap_map]
      rfl
    have fits : FitsBatch ((pair first :: others.map pair).flatMap Prod.snd) := by
      rw [← List.map_cons, parts, FitsBatch]
      omega
    obtain ⟨merged', eq', whole⟩ := mergeWith_holds (pair first)
      (others.map pair) (fun part mem => by
        obtain ⟨o, here, rfl⟩ := List.mem_map.mp (List.map_cons (f := pair) ▸ mem)
        exact each o here)
      (fun part mem => by
        obtain ⟨o, here, rfl⟩ := List.mem_map.mp mem
        exact mergeWith_route eq o here) fits
    have same : (others.map pair).map Prod.fst = others := by
      rw [List.map_map]
      exact List.map_id others
    rw [same] at eq'
    obtain rfl := Option.some.inj (eq.symm.trans eq')
    rw [EncodedTopicPartitionRecords.decoded, whole.decoded, Option.getD_some, ← List.map_cons,
      List.flatMap_map, List.map_flatMap]
    refine List.flatMap_congr fun o mem => ?_
    rw [EncodedTopicPartitionRecords.decoded, (each o mem).decoded, Option.getD_some]

end records

namespace ProducePath

variable [Snappy] {s s' : ProducePath} {added : List RoutedTopicPartitionRecords}
  {tp : TopicPartition} {b : Kgo.Record}

/-- The batches that a flush of the main buffer becomes have the records of its entries. -/
theorem Sized.weigh_encoded (sized : s.Sized) (sound : s.Sound added)
    (small : s.cfg.batchMaxBytes.toNat ≤ 2 ^ 29) {agent index : Nat}
    {a : AgentBuffer RoutedTopicPartitionRecords Callback}
    {f : Flush RoutedTopicPartitionRecords Callback}
    {routed : List RoutedEncodedTopicPartitionRecords}
    (found : s.buffer.buffer.agentBuffers[agent]? = some a) (started : a.flushes[index]? = some f)
    (encoded : encodePartitions f.wire = some routed) :
    weigh (batchWeight tp b) (unrouteEncodedTopicPartitionRecords routed) =
      weigh (recordWeight tp b) (unpromise f.entries) := by
  have filled : weigh (recordWeight tp b) (f.wire.filter fun w => w.records ≠ []) =
      weigh (recordWeight tp b) f.wire := by
    refine weigh_filter_of_zero fun w _ empty => ?_
    have none : w.records = [] := by simpa using empty
    simp [recordWeight, none]
  rw [weigh_recordWeight, ← sound.partitionRecords_wire found started, ← weigh_recordWeight,
    ← filled, unrouteEncodedTopicPartitionRecords, weigh_map]
  refine (weigh_of_forall₂ (contents_of_encodePartitions encoded) fun w mem p content => ?_).symm
  have fits := sized.fits sound small (List.mem_of_getElem? found) (List.mem_of_getElem? started)
    (List.mem_of_mem_filter mem)
  have same : p.topicPartition = getTopicPartition w := content.2
  rw [recordWeight, batchWeight, same, content.1.decoded fits]

/-- Merging adds no record to what a flush of the hedge buffer sends. -/
theorem Sound.weigh_hedge_wire (sound : s.Sound added)
    (small : s.cfg.batchMaxBytes.toNat ≤ 2 ^ 29)
    {a : AgentBuffer RoutedEncodedTopicPartitionRecords Callback}
    {f : Flush RoutedEncodedTopicPartitionRecords Callback}
    (mem : a ∈ s.hedgeBuffer.buffer.agentBuffers) (inside : f ∈ a.flushes) :
    weigh (batchWeight tp b) (unrouteEncodedTopicPartitionRecords f.wire) ≤
      weigh (batchWeight tp b) (unrouteEncodedTopicPartitionRecords (unpromise f.entries)) := by
  obtain ⟨size, bin⟩ := sound.hedgeBins.agents a mem
  have each : ∀ o ∈ unpromise f.entries, ∃ records,
      EncodedFrom o.toEncodedTopicPartitionRecords records := by
    intro o entry
    obtain ⟨e, taken, rfl⟩ := List.mem_map.mp entry
    obtain ⟨-, c, call, listed⟩ := (bin.entries e
      (List.mem_append_left _ (List.mem_flatMap.mpr ⟨f, inside, taken⟩))).1
    obtain ⟨records, encoded, -⟩ := sound.call_contents call listed
    exact ⟨records, encoded⟩
  choose! contents encoded using each
  have routing := RoutedEncodedTopicPartitionRecords.routing_of_mergeWith
  rw [unrouteEncodedTopicPartitionRecords, unrouteEncodedTopicPartitionRecords, weigh_map, weigh_map]
  have onlyKey := weigh_filter_key (fun w : RoutedEncodedTopicPartitionRecords => w.topicPartition)
    tp (fun w => w.decoded.count b) f.wire
  refine Nat.le_trans (Nat.le_of_eq onlyKey.symm) ?_
  refine weigh_key_le (bin.wire routing inside).1 fun w wire key => ?_
  obtain ⟨first, others, group⟩ := (groups_of_merge routing (bin.sums.merged f inside).2).1 w wire
  have fits : others = [] ∨ ((first :: others).map uncompressedWireBytes).sum ≤ 2 ^ 29 := by
    rcases sound.hedgeRoom a mem f inside with one | room
    · have short := group.sub.length_le
      rw [unpromise, List.length_map, List.length_cons] at short
      exact Or.inl (List.length_eq_zero_iff.mp (by omega))
    · have least := (group.sub.map uncompressedWireBytes).sum_le_sum fun _ _ => Nat.zero_le _
      rw [unpromise, List.map_map] at least
      exact Or.inr (Nat.le_trans least (Nat.le_trans room (size ▸ small)))
  have own (o : RoutedEncodedTopicPartitionRecords) (member : o ∈ first :: others) :
      o.decoded.count b = batchWeight tp b o.toEncodedTopicPartitionRecords := by
    have same : o.topicPartition = tp := ((group.members o).mp member).2.trans key
    rw [batchWeight, if_pos same]
  rw [decoded_of_mergeWith (fun o member => encoded o ((group.members o).mp member).1) fits
    group.merged, count_flatMap_eq_weigh, weigh_congr own]
  exact weigh_sublist group.sub

end ProducePath

end Warpstream
