import Warpstream.ProducePathAcks

set_option autoImplicit false

/- What the callers of the client and the agents see of each other: a record that is reported
as produced was acknowledged in a batch that contains it, and every batch on the wire is made
of records that were handed to the client. -/
namespace Warpstream

open RoutedBatch

section contents

variable [Snappy]

/-- The batch was encoded from the records. -/
def EncodedFrom (p : EncodedTopicPartitionRecords) (records : List Kgo.Record) : Prop :=
  records ≠ [] ∧ newEncodedTopicPartitionRecords p.topic p.partition records = some p

/-- The bytes are the records' batch. -/
def BatchOf (records : List Kgo.Record) (bytes : Bytes) : Prop :=
  ∃ batch, encodeBatch records = some batch ∧ batch.buf = bytes

variable {p : EncodedTopicPartitionRecords} {records : List Kgo.Record}

theorem EncodedFrom.batchOf (encoded : EncodedFrom p records) : BatchOf records p.encoded := by
  obtain ⟨-, encodes⟩ := encoded
  simp only [newEncodedTopicPartitionRecords, Option.bind_eq_bind, Option.bind_eq_some_iff]
    at encodes
  obtain ⟨batch, made, same⟩ := encodes
  exact ⟨batch, made, by rw [← Option.some.inj same]⟩

theorem EncodedFrom.filled (encoded : EncodedFrom p records) : p.encoded ≠ [] := by
  obtain ⟨batch, made, same⟩ := encoded.batchOf
  cases records with
  | nil => cases made
  | cons first rest =>
      obtain ⟨batch', made', buf⟩ := encodeBatch_cons first rest
      obtain rfl := Option.some.inj (made.symm.trans made')
      rw [← same, buf, putCrc]
      intro empty
      have crc := congrArg List.length
        (List.append_eq_nil_iff.mp (List.append_eq_nil_iff.mp empty).1).2
      rw [Kbin.bigEndian_length] at crc
      cases crc

/-- A batch of at most a gigabyte holds its records. -/
theorem EncodedFrom.holds {p : RoutedEncodedTopicPartitionRecords}
    (encoded : EncodedFrom p.toEncodedTopicPartitionRecords records)
    (small : uncompressedWireBytes p ≤ 2 ^ 30) : Holds p records := by
  obtain ⟨nonempty, encodes⟩ := encoded
  obtain ⟨e, made, -, -, counted, sized⟩ :=
    newEncodedTopicPartitionRecords_stats p.topic p.partition nonempty
  obtain rfl := Option.some.inj (encodes.symm.trans made)
  have fits : FitsBatch records := by
    have present := List.length_pos_iff.mpr nonempty
    have size : p.uncompressedWireBytes ≤ 2 ^ 30 := small
    rw [RoutedEncodedTopicPartitionRecords.uncompressedWireBytes, if_neg (by omega), sized] at size
    exact Nat.lt_of_le_of_lt size (by norm_num)
  obtain ⟨e, made', -, -, decoded, -⟩ :=
    newEncodedTopicPartitionRecords_eq p.topic p.partition nonempty fits
  obtain rfl := Option.some.inj (encodes.symm.trans made')
  exact ⟨nonempty, decoded, counted⟩

/-- A merge of encoded batches has their records, up to what the wire does not carry. -/
theorem mergeWith_contents (first : RoutedEncodedTopicPartitionRecords × List Kgo.Record)
    (others : List (RoutedEncodedTopicPartitionRecords × List Kgo.Record))
    {merged : RoutedEncodedTopicPartitionRecords}
    (encoded : ∀ part ∈ first :: others, EncodedFrom part.1.toEncodedTopicPartitionRecords part.2)
    (fits : others = [] ∨
      ((first :: others).map fun part => uncompressedWireBytes part.1).sum ≤ 2 ^ 30)
    (eq : first.1.mergeWith (others.map Prod.fst) = some merged) :
    ∃ records, EncodedFrom merged.toEncodedTopicPartitionRecords records ∧
      records.map bareRecord = ((first :: others).flatMap Prod.snd).map bareRecord := by
  have here := encoded first List.mem_cons_self
  unfold RoutedEncodedTopicPartitionRecords.mergeWith at eq
  split at eq
  · rename_i none
    obtain rfl := Option.some.inj eq
    obtain rfl := List.map_eq_nil_iff.mp (List.getLast?_eq_none_iff.mp none)
    exact ⟨first.2, here, by simp⟩
  · rename_i last tail
    have more : others ≠ [] := by
      rintro rfl
      cases tail
    split at eq
    · cases eq
    simp only [Option.bind_eq_bind, Option.bind_eq_some_iff] at eq
    obtain ⟨records, decoded, e, made, same⟩ := eq
    obtain rfl := Option.some.inj same
    have each : ∀ part ∈ first :: others, Holds part.1 part.2 := by
      intro part mem
      refine (encoded part mem).holds (Nat.le_trans ?_ (fits.resolve_left more))
      exact List.single_le_sum (fun _ _ => Nat.zero_le _) _
        (List.mem_map_of_mem (f := fun part => uncompressedWireBytes part.1) mem)
    have all := mapM_decodeBatch each
    rw [List.map_cons] at all
    rw [RoutedEncodedTopicPartitionRecords.decodeAll, all, Option.map_some,
      flatten_map_bareRecord] at decoded
    obtain rfl := Option.some.inj decoded
    obtain ⟨topic, partition⟩ := partition_of_newEncodedTopicPartitionRecords made
    refine ⟨_, ⟨?_, ?_⟩, map_bareRecord_map _⟩
    · simp [here.1]
    · dsimp only
      rw [topic, partition]
      exact made

end contents

section groups

variable {W D : Type} [RoutedBatch W] {entries : List (Promised W D)} {wire : List W}

/-- A wire item is the merge of the items for its partition. -/
structure GroupOf (entries : List (Promised W D)) (w first : W) (others : List W) : Prop where
  merged : mergeWith first others = some w
  members : ∀ o, o ∈ first :: others ↔
    o ∈ unpromise entries ∧ getTopicPartition o = getTopicPartition w
  sub : (first :: others).Sublist (unpromise entries)

theorem groups_of_merge
    (routing : ∀ (w : W) (others : List W) (merged : W), mergeWith w others = some merged →
      SameRouting merged w)
    (eq : mergePromisedRoutedBatchByTopicPartition entries = some wire) :
    (∀ w ∈ wire, ∃ first others, GroupOf entries w first others) ∧
      ∀ e ∈ entries, ∃ w ∈ wire, getTopicPartition w = getTopicPartition e.item := by
  have groups := FirstSeen.groups_groupBy getTopicPartition (unpromise entries)
  have each := forall₂_of_mapM_eq_some
    (P := fun group w => getTopicPartition w = group.1 ∧
      ∃ first others, GroupOf entries w first others) eq ?_
  · refine ⟨fun w mem => ?_, fun e mem => ?_⟩
    · obtain ⟨-, -, -, group⟩ := exists_left_of_forall₂ each w mem
      exact group
    · obtain ⟨group, listed, key⟩ :=
        List.mem_map.mp (groups.covers e.item (List.mem_map_of_mem (f := Promised.item) mem))
      obtain ⟨w, inside, here, -⟩ := exists_left_of_forall₂ each.flip group listed
      exact ⟨w, inside, here.trans key⟩
  · rintro ⟨tp, members⟩ mem w merged
    have all := groups.members tp members mem
    cases members with
    | nil => cases merged
    | cons first others =>
        have head : first ∈ (unpromise entries).filter fun x => getTopicPartition x = tp :=
          all ▸ List.mem_cons_self
        have key : getTopicPartition w = tp :=
          (routing first others w merged).1.trans (of_decide_eq_true (List.mem_filter.mp head).2)
        refine ⟨key, first, others, merged, fun o => ?_, all ▸ List.filter_sublist⟩
        rw [all, List.mem_filter, decide_eq_true_eq, key]

end groups

theorem mem_partitionRecords {W R : Type} [RoutedBatch W] [LawfulRoutedBatch W R]
    {tp : TopicPartition} {items : List W} {r : R} :
    r ∈ partitionRecords tp items ↔
      ∃ w ∈ items, getTopicPartition w = tp ∧ r ∈ LawfulRoutedBatch.records w := by
  simp [partitionRecords, and_assoc]

/-- What `flushBatch` encodes, partition by partition. -/
theorem contents_of_encodePartitions [Snappy] {wire : List RoutedTopicPartitionRecords}
    {routed : List RoutedEncodedTopicPartitionRecords} (eq : encodePartitions wire = some routed) :
    List.Forall₂ (fun (w : RoutedTopicPartitionRecords) (p : RoutedEncodedTopicPartitionRecords) =>
      EncodedFrom p.toEncodedTopicPartitionRecords w.records ∧
        getTopicPartition p = getTopicPartition w) (wire.filter fun p => p.records ≠ []) routed := by
  refine forall₂_of_mapM_eq_some eq fun w mem p made => ?_
  obtain ⟨e, encoded, rfl⟩ := Option.map_eq_some_iff.mp made
  obtain ⟨topic, partition⟩ := partition_of_newEncodedTopicPartitionRecords encoded
  refine ⟨⟨of_decide_eq_true (List.mem_filter.mp mem).2, ?_⟩, ?_⟩
  · rw [topic, partition]
    exact encoded
  · exact congrArg₂ TopicPartition.mk topic partition

namespace ClusterRun

open ClusterBuffer

variable {W : Type} [RoutedBatch W] {r : ClusterRun W}

/-- No goroutine and no pending produce has the item or a chunk of it any more. -/
structure Released (r : ClusterRun W) (i : Nat) : Prop where
  ops : ∀ task ∈ r.tasks, ∀ op ∈ task, ∀ cb ∈ op.callbacks, ¬ r.buffer.ReportsTo cb (.wrapped i)
  pending : ∀ a ∈ r.buffer.agentBuffers, ∀ e ∈ a.nextProduceItems,
    ¬ r.buffer.ReportsTo e.done (.wrapped i)
  flushes : ∀ agent index, r.buffer.Carries agent index (.wrapped i) →
    r.buffer.FlushReturned agent index

/-- An item that was completed by more than the end of its context is released. -/
theorem Inv.released (inv : Inv r) {i : Nat} {it : Item W} {d : Delivery}
    (found : r.buffer.items[i]? = some it) (mem : d ∈ it.completions) (late : d.cause ≠ .ctx) :
    r.Released i := by
  have reported := (inv.origins.items i it found d mem).2 late
  have settled : r.buffer.owed r.tasks.flatten (.wrapped i) = 0 := by
    by_contra due
    exact inv.ledger.not_reported (Nat.pos_of_ne_zero due) reported
  have unowed {cb : Callback} (due : 0 < r.buffer.owed r.tasks.flatten cb) :
      ¬ r.buffer.ReportsTo cb (.wrapped i) := by
    intro reports
    have more := owed_of_reportsTo inv.ledger reports due
    omega
  constructor
  · intro task inside op member cb calls
    have due := owedBy_pos (List.mem_flatten.mpr ⟨task, inside, member⟩) calls
    exact unowed (by simp only [owed]; omega)
  · intro a inside e pending
    have due : 0 < r.buffer.held e.done := by
      have counted : 0 < (a.nextProduceItems.map Promised.done).count e.done :=
        List.count_pos_iff.mpr (List.mem_map_of_mem pending)
      exact Nat.lt_of_lt_of_le counted (List.single_le_sum (fun _ _ => Nat.zero_le _) _
        (List.mem_map_of_mem
          (f := fun a => (a.nextProduceItems.map Promised.done).count e.done) inside))
    exact unowed (by simp only [owed]; omega)
  · intro agent index carries
    exact returned_of_settled inv.ledger inv.origins settled carries

end ClusterRun

namespace ProducePath

variable [Snappy] {s s' : ProducePath} {added : List RoutedTopicPartitionRecords}

section records

variable {agent index : Nat}

/-- The wire items of a flush of the main buffer have the records of its entries. -/
theorem Sound.partitionRecords_wire (sound : s.Sound added)
    {a : AgentBuffer RoutedTopicPartitionRecords Callback}
    {f : Flush RoutedTopicPartitionRecords Callback}
    (found : s.buffer.buffer.agentBuffers[agent]? = some a) (started : a.flushes[index]? = some f)
    (tp : TopicPartition) :
    partitionRecords tp f.wire = partitionRecords tp (unpromise f.entries) := by
  have inside := List.mem_of_getElem? started
  have bin := (sound.bins.agents a (List.mem_of_getElem? found)).2
  have node : ∀ p ∈ f.entries, getNodeID p.item = a.nodeID := fun p entry =>
    (bin.entries p (List.mem_append_left _ (List.mem_flatMap.mpr ⟨f, inside, entry⟩))).2
  obtain ⟨wire, merged, -, -, -, same⟩ := mergePromised_spec node
  obtain rfl := Option.some.inj (merged.symm.trans (bin.sums.merged f inside).2)
  exact same tp

/-- The batches of a call hold records that were added. -/
theorem Sound.call_contents (sound : s.Sound added) {c : FlushCall} (mem : c ∈ s.calls)
    {p : EncodedTopicPartitionRecords} (part : p ∈ c.call.cfg.partitions) :
    ∃ records, EncodedFrom p records ∧ ∀ r ∈ records,
      ∃ item ∈ added, getTopicPartition item = p.topicPartition ∧ r ∈ item.records := by
  obtain ⟨a, f, found, started, encoded⟩ := (sound.calls c mem).flush
  obtain ⟨q, listed, rfl⟩ := List.mem_map.mp part
  obtain ⟨w, wire, contents, tp⟩ :=
    exists_left_of_forall₂ (contents_of_encodePartitions encoded) q listed
  refine ⟨w.records, contents, fun r inside => ?_⟩
  have carried : r ∈ partitionRecords (getTopicPartition w) f.wire :=
    mem_partitionRecords.mpr ⟨w, List.mem_of_mem_filter wire, rfl, inside⟩
  rw [sound.partitionRecords_wire found started] at carried
  obtain ⟨entry, here, same, own⟩ := mem_partitionRecords.mp carried
  obtain ⟨e, taken, rfl⟩ := List.mem_map.mp here
  obtain ⟨item, accepted, tp', r_mem⟩ := ((sound.bins.agents a (List.mem_of_getElem? found)).2.entries
    e (List.mem_append_left _
      (List.mem_flatMap.mpr ⟨f, List.mem_of_getElem? started, taken⟩))).1.2 r own
  exact ⟨item, accepted, (tp'.trans same).trans tp.symm, r_mem⟩

/-- A record of an entry is in the batch that the call of its flush has for its partition. -/
theorem Sound.call_contains (sound : s.Sound added) {c : FlushCall} (mem : c ∈ s.calls)
    {a : AgentBuffer RoutedTopicPartitionRecords Callback}
    {f : Flush RoutedTopicPartitionRecords Callback}
    (found : s.buffer.buffer.agentBuffers[c.agent]? = some a)
    (started : a.flushes[c.index]? = some f)
    {e : Promised RoutedTopicPartitionRecords Callback} (entry : e ∈ f.entries) {r : Kgo.Record}
    (own : r ∈ e.item.records) :
    ∃ p ∈ c.call.cfg.partitions, p.topicPartition = getTopicPartition e.item ∧
      ∃ records, EncodedFrom p records ∧ r ∈ records := by
  obtain ⟨a', f', found', started', encoded⟩ := (sound.calls c mem).flush
  obtain rfl := Option.some.inj (found.symm.trans found')
  obtain rfl := Option.some.inj (started.symm.trans started')
  have carried : r ∈ partitionRecords (getTopicPartition e.item) (unpromise f.entries) :=
    mem_partitionRecords.mpr ⟨e.item, List.mem_map_of_mem entry, rfl, own⟩
  rw [← sound.partitionRecords_wire found started] at carried
  obtain ⟨w, wire, same, inside⟩ := mem_partitionRecords.mp carried
  have filled : w ∈ f.wire.filter fun p => p.records ≠ [] :=
    List.mem_filter.mpr ⟨wire, decide_eq_true (List.ne_nil_of_mem inside)⟩
  obtain ⟨p, listed, contents, tp⟩ :=
    exists_left_of_forall₂ (contents_of_encodePartitions encoded).flip w filled
  exact ⟨_, List.mem_map_of_mem listed, tp.trans same, w.records, contents, inside⟩

/-- A wire item of the hedge buffer has the records of the entries for its partition. -/
theorem Sound.hedge_contents (sound : s.Sound added) (small : s.cfg.batchMaxBytes.toNat ≤ 2 ^ 30)
    {a : AgentBuffer RoutedEncodedTopicPartitionRecords Callback}
    {f : Flush RoutedEncodedTopicPartitionRecords Callback}
    (mem : a ∈ s.hedgeBuffer.buffer.agentBuffers) (inside : f ∈ a.flushes)
    (contents : RoutedEncodedTopicPartitionRecords → List Kgo.Record)
    (encoded : ∀ o ∈ unpromise f.entries,
      EncodedFrom o.toEncodedTopicPartitionRecords (contents o))
    {w : RoutedEncodedTopicPartitionRecords} (wire : w ∈ f.wire) :
    ∃ records, EncodedFrom w.toEncodedTopicPartitionRecords records ∧
      ∀ b, b ∈ records.map bareRecord ↔ ∃ o ∈ unpromise f.entries,
        getTopicPartition o = getTopicPartition w ∧ b ∈ (contents o).map bareRecord := by
  obtain ⟨size, bin⟩ := sound.hedgeBins.agents a mem
  obtain ⟨first, others, group⟩ := (groups_of_merge
    RoutedEncodedTopicPartitionRecords.routing_of_mergeWith (bin.sums.merged f inside).2).1 w wire
  have fits : others = [] ∨ ((first :: others).map uncompressedWireBytes).sum ≤ 2 ^ 30 := by
    rcases sound.hedgeRoom a mem f inside with one | room
    · have short := group.sub.length_le
      rw [unpromise, List.length_map, List.length_cons] at short
      exact Or.inl (List.length_eq_zero_iff.mp (by omega))
    · have least := (group.sub.map uncompressedWireBytes).sum_le_sum fun _ _ => Nat.zero_le _
      rw [unpromise, List.map_map] at least
      exact Or.inr (Nat.le_trans least (Nat.le_trans room (size ▸ small)))
  let pair := fun o => (o, contents o)
  obtain ⟨records, whole, same⟩ := mergeWith_contents (pair first) (others.map pair)
    (fun part listed => by
      obtain ⟨o, here, rfl⟩ := List.mem_map.mp (List.map_cons (f := pair) ▸ listed)
      exact encoded o ((group.members o).mp here).1) (by
      rw [List.map_eq_nil_iff, ← List.map_cons, List.map_map]
      exact fits) (by
      rw [List.map_map]
      exact (List.map_id others).symm ▸ group.merged)
  refine ⟨records, whole, fun b => ?_⟩
  rw [same, ← List.map_cons, List.flatMap_map, List.map_flatMap, List.mem_flatMap]
  simp only [group.members, and_assoc]
  rfl

/-- Every batch on the wire is made of records that were added. -/
theorem Sound.wire_contents (sound : s.Sound added) (small : s.cfg.batchMaxBytes.toNat ≤ 2 ^ 30)
    {attempt : Attempt} (mem : attempt ∈ s.wire) {tp : TopicPartition} {bytes : Bytes}
    (sends : attempt.Sends tp bytes) :
    ∃ records, BatchOf records bytes ∧ ∀ r ∈ records, ∃ item ∈ added,
      getTopicPartition item = tp ∧ ∃ r' ∈ item.records, bareRecord r' = bareRecord r := by
  obtain ⟨p, part, rfl, rfl⟩ := Attempt.mem_of_sends sends
  rcases sound.wire attempt mem with ⟨c, call, parts⟩ | ⟨a, agent, f, flush, parts⟩
  · obtain ⟨records, encoded, from_added⟩ := sound.call_contents call (parts ▸ part)
    refine ⟨records, encoded.batchOf, fun r inside => ?_⟩
    obtain ⟨item, listed, tp, own⟩ := from_added r inside
    exact ⟨item, listed, tp, r, own, rfl⟩
  · rw [parts] at part
    obtain ⟨w, wire, rfl⟩ := List.mem_map.mp part
    -- each entry of the flush is a batch of some call
    have each : ∀ o ∈ unpromise f.entries, ∃ records,
        EncodedFrom o.toEncodedTopicPartitionRecords records ∧ ∀ r ∈ records,
          ∃ item ∈ added, getTopicPartition item = getTopicPartition o ∧ r ∈ item.records := by
      intro o entry
      obtain ⟨e, taken, rfl⟩ := List.mem_map.mp entry
      obtain ⟨-, c, call, listed⟩ := ((sound.hedgeBins.agents a agent).2.entries e
        (List.mem_append_left _ (List.mem_flatMap.mpr ⟨f, flush, taken⟩))).1
      exact sound.call_contents call listed
    choose! contents encoded from_added using each
    obtain ⟨records, whole, exactly⟩ := sound.hedge_contents small agent flush contents encoded wire
    refine ⟨records, whole.batchOf, fun r inside => ?_⟩
    obtain ⟨o, entry, same, carried⟩ := (exactly _).mp (List.mem_map_of_mem (f := bareRecord) inside)
    obtain ⟨r', here, bare⟩ := List.mem_map.mp carried
    obtain ⟨item, listed, tp, own⟩ := from_added o entry r' here
    exact ⟨item, listed, tp.trans same, r', own, bare⟩

end records

theorem cfg_step {action : ProduceAction} (stepped : s.step action = some s') : s'.cfg = s.cfg := by
  cases steps_of_step stepped <;> rfl

theorem sound_run {cfg : ClientConfig} (valid : cfg.validateBatchMaxBytes = none)
    {actions : List ProduceAction} (runs : Machine.run step (init cfg) actions = some s) :
    s.Sound (actions.flatMap (ProduceAction.added cfg)) ∧ s.cfg = cfg := by
  refine Machine.invariant_run_of_mem (fun action => ∀ w ∈ action.added cfg,
      w ∈ actions.flatMap (ProduceAction.added cfg))
    (fun s => s.Sound (actions.flatMap (ProduceAction.added cfg)) ∧ s.cfg = cfg)
    (fun s action s' inv known stepped => ?_) ⟨sound_init cfg, rfl⟩
    (fun action mem w inside => List.mem_flatMap.mpr ⟨action, mem, inside⟩) runs
  obtain ⟨sound, rfl⟩ := inv
  exact ⟨sound.step (ClientConfig.small_of_valid valid) known stepped, cfg_step stepped⟩

section credit

/-- No flush of the hedge buffer starts between two items of a leg's group. -/
def keepsTogether (s : ProducePath) : ProduceAction → Bool
  | .hedgeBuffer action => s.hedgeBuffer.keepsTogether action
  | _ => true

/-- A result that a call read is what the hedge buffer told one of its legs. -/
def LegTold (s : ProducePath) (q : Nat) (x : LegResult) : Prop :=
  ∃ l ∈ s.legs, l.owner.call = q ∧ l.owner.leg.own = x.own ∧ ∃ d, l.sent = some d ∧ d.res = x.res

structure Credited (s : ProducePath) : Prop where
  hedge : s.hedge.Inv
  received : ∀ (q : Nat) (c : FlushCall), s.calls[q]? = some c →
    ∀ x ∈ c.call.cascadeOrStart.received, s.LegTold q x

theorem credited_init (cfg : ClientConfig) : (init cfg).Credited :=
  ⟨HedgeRun.inv_init _, fun q c found => by cases found⟩

omit [Snappy] in
theorem LegTold.mono {q : Nat} {x : LegResult} (told : s.LegTold q x)
    (kept : ∀ l ∈ s.legs, ∀ d, l.sent = some d → ∃ l' ∈ s'.legs, l'.owner = l.owner ∧
      l'.sent = some d) : s'.LegTold q x := by
  obtain ⟨l, mem, call, own, d, sent, res⟩ := told
  obtain ⟨l', mem', owner, sent'⟩ := kept l mem d sent
  exact ⟨l', mem', owner ▸ call, owner ▸ own, d, sent', res⟩

section view

variable {q : Nat} {c : FlushCall} {call : HedgerCall}

omit [Snappy] in
theorem hedge_call (found : s.calls[q]? = some c) : s.hedge.calls[q]? = some c.view := by
  rw [hedge, List.getElem?_map, found]
  rfl

omit [Snappy] in
theorem hedge_begin (flush : Nat × Nat) :
    (s.begin flush call).hedge = s.hedge.begin call.cfg call.cascadeOrStart := by
  rw [ProducePath.begin, hedge, List.map_append]
  rfl

omit [Snappy] in
theorem hedge_setCall : (s.setCall q c call).hedge =
    { s.hedge with calls := s.hedge.calls.set q { c with call := call }.view } := by
  rw [setCall, hedge, List.map_set]
  rfl

omit [Snappy] in
theorem hedge_dispatch (legs : List HedgeLeg) (cfg : call.cfg = c.call.cfg) :
    (s.dispatch q c call legs).hedge = s.hedge.dispatch q c.view call.cascadeOrStart legs := by
  rw [dispatch, hedge, List.map_set, FlushCall.view, cfg]
  rfl

omit [Snappy] in
theorem hedge_collect (owner : SentLeg) (cfg : call.cfg = c.call.cfg) :
    (s.collect q c call owner).hedge = s.hedge.collect q c.view call.cascadeOrStart owner := by
  rw [collect, setCall, hedge, List.map_set, FlushCall.view, cfg]
  rfl

end view

/-- The results read so far, after a step of one call. -/
theorem Credited.received_set (credited : s.Credited) {q : Nat} {c c' : FlushCall}
    (found : s.calls[q]? = some c) (calls : s'.calls = s.calls.set q c')
    (kept : ∀ l ∈ s.legs, ∀ d, l.sent = some d → ∃ l' ∈ s'.legs, l'.owner = l.owner ∧
      l'.sent = some d)
    (read : ∀ x ∈ c'.call.cascadeOrStart.received,
      x ∈ c.call.cascadeOrStart.received ∨ s'.LegTold q x) :
    ∀ (k : Nat) (other : FlushCall), s'.calls[k]? = some other →
      ∀ x ∈ other.call.cascadeOrStart.received, s'.LegTold k x := by
  intro k other place x mem
  rw [calls] at place
  by_cases same : k = q
  · subst same
    rw [List.getElem?_set_self (List.getElem?_eq_some_iff.mp found).1] at place
    obtain rfl := Option.some.inj place
    rcases read x mem with old | new
    · exact (credited.received k c found x old).mono kept
    · exact new
  · rw [List.getElem?_set_ne (Ne.symm same)] at place
    exact (credited.received k other place x mem).mono kept

/-- A call moves on and the legs do not. -/
theorem Credited.setCall (credited : s.Credited) {q : Nat} {c : FlushCall}
    (found : s.calls[q]? = some c) (call : HedgerCall) (cfg : call.cfg = c.call.cfg)
    (acc : call.cascadeOrStart.acc = c.call.cascadeOrStart.acc)
    (received : call.cascadeOrStart.received = c.call.cascadeOrStart.received) :
    (s.setCall q c call).Credited := by
  constructor
  · rw [hedge_setCall]
    refine credited.hedge.setCall (hedge_call found) cfg fun tp p waits => ?_
    exact acc ▸ waits
  · exact credited.received_set found rfl (fun l mem d sent => ⟨l, mem, rfl, sent⟩)
      fun x mem => Or.inl (received ▸ mem)

theorem Credited.begin (credited : s.Credited) {flush : Nat × Nat} {call : HedgerCall}
    (inv : call.Inv) (unstarted : call.cascade = none)
    (records : ∀ p ∈ call.cfg.partitions, 0 < p.encodedStats.records) :
    (s.begin flush call).Credited := by
  obtain ⟨cascade, begins, -⟩ := Cascade.ok_start inv.core.distinct
  have stands : call.cascadeOrStart = cascade := by
    simp only [HedgerCall.cascadeOrStart, unstarted, begins]
  constructor
  · rw [hedge_begin, stands]
    exact credited.hedge.begin begins records
  · intro q c found x mem
    rw [ProducePath.begin, List.getElem?_append] at found
    split at found
    · exact credited.received q c found x mem
    · obtain rfl := List.mem_singleton.mp (List.mem_of_getElem? found)
      have none : cascade.received = [] := by
        unfold Cascade.start at begins
        cases made : newProduceResultAccumulator call.cfg.partitions with
        | error err =>
            rw [made] at begins
            cases begins
        | ok acc =>
            rw [made] at begins
            obtain rfl := Except.ok.inj begins
            rfl
      rw [stands, none] at mem
      cases mem

theorem Credited.dispatch (credited : s.Credited) {q : Nat} {c : FlushCall} {call : HedgerCall}
    {cascade : Cascade} {order : List EncodedTopicPartitionRecords} {legs : List HedgeLeg}
    {tried : GoMap TopicPartition (List Int)} {chosen : List (Int × EncodedTopicPartitionRecords)}
    (found : s.calls[q]? = some c) (running : c.call.cascadeOrStart = cascade)
    (pending : cascade.acc.Remaining order)
    (picked : pickCandidates c.call.cfg cascade.tried order = .ok (tried, chosen))
    (grouped : legs.Perm (groupLegs chosen)) (cfg : call.cfg = c.call.cfg)
    (next : call.cascadeOrStart = cascade.dispatch tried legs) :
    (s.dispatch q c call legs).Credited := by
  subst running
  constructor
  · rw [hedge_dispatch legs cfg, next]
    exact credited.hedge.dispatch (hedge_call found) rfl
      ((grouped.map HedgeLeg.agent).nodup_iff.mpr (groupLegs_agents_nodup chosen))
      (credited.hedge.parts_of_wave (hedge_call found) pending picked grouped)
  · refine credited.received_set found rfl (fun l mem d sent => ?_) fun x mem => Or.inl ?_
    · exact ⟨l, List.mem_append_left _ mem, rfl, sent⟩
    · rwa [next] at mem

theorem Credited.collect (credited : s.Credited) {q i : Nat} {c : FlushCall} {call : HedgerCall}
    {cascade : Cascade} {leg : HedgeLeg} {l : LegDone} {d : Delivery}
    (found : s.calls[q]? = some c) (running : c.call.cascadeOrStart = cascade) (mem : l ∈ s.legs)
    (owner : l.owner = ⟨q, c.attemptCtx, leg⟩) (sent : l.sent = some d)
    (cfg : call.cfg = c.call.cfg) (next : call.cascadeOrStart = cascade.receive i leg d.res) :
    (s.collect q c call l.owner).Credited := by
  subst running
  have legs (k : LegDone) (inside : k ∈ s.legs) : ∃ k' ∈ s.legs.map (LegDone.collect l.owner),
      k'.owner = k.owner ∧ k'.sent = k.sent :=
    ⟨_, List.mem_map_of_mem inside, k.collect_owner _, k.collect_sent _⟩
  constructor
  · rw [hedge_collect l.owner cfg, next]
    exact credited.hedge.collect (hedge_call found) mem owner sent
  · refine credited.received_set found rfl (fun k inside d told => ?_) fun x read => ?_
    · obtain ⟨k', inside', own, same⟩ := legs k inside
      exact ⟨k', inside', own, same.trans told⟩
    · rw [next] at read
      refine (List.mem_append.mp read).imp_right fun new => ?_
      obtain rfl := List.mem_singleton.mp new
      obtain ⟨k', inside', own, same⟩ := legs l mem
      exact ⟨k', inside', by rw [own, owner], by rw [own, owner], d, same.trans sent, rfl⟩

omit [Snappy] in
/-- What a leg was told stays. -/
theorem exists_deliver {r : HedgeRun} (action : ClusterAction RoutedEncodedTopicPartitionRecords)
    {l : LegDone} (mem : l ∈ r.legs) {d : Delivery} (sent : l.sent = some d) :
    ∃ l' ∈ r.deliver action, l'.owner = l.owner ∧ l'.sent = some d := by
  unfold HedgeRun.deliver
  split
  · split
    · split
      · rename_i it _
        refine ⟨_, List.mem_map_of_mem mem, l.fire_owner it _, ?_⟩
        rw [LegDone.fire, if_neg fun fires => by cases sent.symm.trans fires.2.2]
        exact sent
      · exact ⟨l, mem, rfl, sent⟩
    · exact ⟨l, mem, rfl, sent⟩
  · exact ⟨l, mem, rfl, sent⟩

theorem Credited.buffer (credited : s.Credited)
    {action : ClusterAction RoutedEncodedTopicPartitionRecords}
    {run : ClusterRun RoutedEncodedTopicPartitionRecords} (internal : action.isInternal = true)
    (together : s.hedgeBuffer.keepsTogether action = true)
    (stepped : s.hedgeBuffer.step action = some run) (wire : List Attempt) :
    Credited { s.setHedgeBuffer action run with wire := wire } :=
  ⟨credited.hedge.buffer internal together stepped, fun q c found x mem =>
    (credited.received q c found x mem).mono fun _ inside _ sent => exists_deliver action inside sent⟩

theorem Credited.step (credited : s.Credited) (sound : s.Sound added) {action : ProduceAction}
    (together : s.keepsTogether action = true) (stepped : s.step action = some s') :
    s'.Credited := by
  cases steps_of_step stepped with
  | rejected => exact credited
  | main => exact ⟨credited.hedge, credited.received⟩
  | flushBatch task agent index candidates a f routed found started encoded flush fresh =>
      have input := sound.hedgerInput found started encoded
      refine credited.begin (HedgerCall.inv_init input.distinct input.node) rfl fun p part => ?_
      obtain ⟨w, mem, rfl⟩ := List.mem_map.mp part
      exact (input.encoded w mem).positive
  | flushReturns => exact ⟨credited.hedge, credited.received⟩
  | call q inner c call found own moved =>
      have same := (sound.calls c (List.mem_of_getElem? found)).call.sameAttempts own moved
      exact credited.setCall found _ same.cfg same.acc same.received
  | primary q env c found call attempt sends moved =>
      cases HedgerCall.moves_of_step moved with
      | primaryReturns runs =>
          have kept := credited.setCall found { c.call with
            primaryRaw := some attempt.result
            primaryCh := some (withCoverageCheck attempt.result c.call.cfg.partitions) } rfl rfl rfl
          exact ⟨kept.hedge, kept.received⟩
  | waveStops q order legs c cascade exhaustion found running moved =>
      have same := HedgerCall.SameAttempts.running (cascade.stop exhaustion) running rfl rfl rfl
        c.call.fallbackCh
      exact credited.setCall found _ same.cfg same.acc same.received
  | dispatch q order legs c cascade tried chosen found running pending picked grouped moved =>
      exact credited.dispatch found (HedgerCall.cascadeOrStart_of_some running) pending picked
        grouped rfl rfl
  | legResult q i c cascade leg l d found running waits mem owner sent moved =>
      exact credited.collect (i := i) found (HedgerCall.cascadeOrStart_of_some running) mem owner sent
        rfl rfl
  | hedgeBuffer action run internal quiet moved =>
      exact credited.buffer internal together moved s.wire
  | hedgeFlush task agent index env a f attempt run flush found started sends moved =>
      have internal : (ClusterAction.run (W := RoutedEncodedTopicPartitionRecords) task
          { res := attempt.result }).isInternal = true := rfl
      refine credited.buffer internal ?_ moved _
      obtain ⟨entries, rest, op⟩ := flushOf_eq_some flush
      simp only [ClusterRun.keepsTogether, op]

theorem credited_run {cfg : ClientConfig} (valid : cfg.validateBatchMaxBytes = none)
    {actions : List ProduceAction}
    (together : Machine.along step keepsTogether (init cfg) actions = true)
    (runs : Machine.run step (init cfg) actions = some s) : s.Credited := by
  refine (Machine.invariant_along_of_mem
    (fun action => ∀ w ∈ action.added cfg, w ∈ actions.flatMap (ProduceAction.added cfg))
    (fun s => s.Credited ∧ s.Sound (actions.flatMap (ProduceAction.added cfg)) ∧ s.cfg = cfg)
    (fun action mem w => List.mem_flatMap_of_mem mem) together
    (fun s action s' inv among kept stepped => ?_) ⟨credited_init cfg, sound_init cfg, rfl⟩ runs).1
  obtain ⟨credited, sound, rfl⟩ := inv
  exact ⟨credited.step sound kept stepped,
    sound.step (ClientConfig.small_of_valid valid) among stepped, cfg_step stepped⟩

end credit

section delivered

/-- An agent acknowledged a batch with the record. -/
def Delivered (s : ProducePath) (tp : TopicPartition) (r : Kgo.Record) : Prop :=
  ∃ attempt ∈ s.wire, attempt.Acknowledges tp ∧ ∃ bytes records, attempt.Sends tp bytes ∧
    BatchOf records bytes ∧ bareRecord r ∈ records.map bareRecord

theorem delivered_of_response {attempt : Attempt} (mem : attempt ∈ s.wire)
    {resp : Kmsg.ProduceResponse} (present : attempt.result.resp = some resp) {tp : TopicPartition}
    {e : Kmsg.ProduceResponseTopicPartition} (entry : (tp, e) ∈ resp.entries)
    (zero : e.errorCode = 0) {p : EncodedTopicPartitionRecords} (part : p ∈ attempt.partitions)
    (key : p.topicPartition = tp) {records : List Kgo.Record} (encoded : EncodedFrom p records)
    {r : Kgo.Record} (inside : bareRecord r ∈ records.map bareRecord) : s.Delivered tp r := by
  obtain ⟨built, reply⟩ := Attempt.of_result_resp present
  refine ⟨attempt, mem, ⟨resp, e, reply, entry, zero⟩, p.encoded, records, ?_, encoded.batchOf, inside⟩
  exact key ▸ Attempt.sends_of_mem part encoded.filled built

/-- What a call counts as acknowledged was acknowledged with its records. -/
theorem Credited.delivered (credited : s.Credited) (sound : s.Sound added)
    (small : s.cfg.batchMaxBytes.toNat ≤ 2 ^ 30) {q : Nat} {c : FlushCall}
    (found : s.calls[q]? = some c) {p : EncodedTopicPartitionRecords}
    (part : p ∈ c.call.cfg.partitions) (acked : c.call.Acked p.topicPartition)
    {records : List Kgo.Record} (encoded : EncodedFrom p records) {r : Kgo.Record}
    (inside : r ∈ records) : s.Delivered p.topicPartition r := by
  have ok := sound.calls c (List.mem_of_getElem? found)
  have bare := List.mem_map_of_mem (f := bareRecord) inside
  rcases acked with ⟨raw, resp, e, answered, present, entry, zero⟩ | ⟨cascade, leg, ran, read, acks⟩
  · obtain ⟨attempt, mem, parts, rfl⟩ := ok.primary raw answered
    exact delivered_of_response mem present entry zero (parts ▸ part) rfl encoded bare
  · rw [← HedgerCall.cascadeOrStart_of_some ran] at read
    obtain ⟨l, told, call, own, d, sent, res⟩ := credited.received q c found leg read
    obtain ⟨resp, e, present, entry, zero⟩ := acks.entry
    rw [← res] at present
    obtain ⟨agent, index, -, returned, carries⟩ :=
      credited.hedge.flush_of_resp told sent (by rw [present]; exact Option.some_ne_none resp)
    obtain ⟨a, f, taken, -, -, p', place, started, here, -, -, -, listed, key, item⟩ :=
      carries _ (own ▸ acks.own)
    -- the leg's part of the partition is the call's batch for it
    have same : p' = p := by
      obtain ⟨view, seen, parts⟩ := credited.hedge.own l told
      rw [call, hedge_call found] at seen
      obtain rfl := Option.some.inj seen
      exact List.inj_on_of_nodup_map ok.call.core.distinct (parts p' listed) part key
    subst same
    obtain ⟨a', f', attempt, place', started', mem, parts, result⟩ := sound.hedged _ returned
    obtain rfl := Option.some.inj (place.symm.trans place')
    obtain rfl := Option.some.inj (started.symm.trans started')
    have agentMem := List.mem_of_getElem? place
    have flushMem := List.mem_of_getElem? started
    have each : ∀ o ∈ unpromise f.entries, ∃ rs, EncodedFrom o.toEncodedTopicPartitionRecords rs ∧
        (o = taken.item → rs = records) := by
      intro o listed
      by_cases this : o = taken.item
      · subst this
        exact ⟨records, by rw [item]; exact encoded, fun _ => rfl⟩
      · obtain ⟨e, entry, rfl⟩ := List.mem_map.mp listed
        obtain ⟨⟨rs, nonempty, made⟩, -⟩ := ((sound.hedgeBins.agents a agentMem).2.entries e
          (List.mem_append_left _ (List.mem_flatMap.mpr ⟨f, flushMem, entry⟩))).1
        exact ⟨rs, ⟨nonempty, made⟩, fun same => absurd same this⟩
    choose! contents holds chosen using each
    have takenMem : taken.item ∈ unpromise f.entries := List.mem_map_of_mem here
    obtain ⟨w, wire, tp⟩ := (groups_of_merge RoutedEncodedTopicPartitionRecords.routing_of_mergeWith
      ((sound.hedgeBins.agents a agentMem).2.sums.merged f flushMem).2).2 taken here
    obtain ⟨merged, whole, exactly⟩ :=
      sound.hedge_contents small agentMem flushMem contents holds wire
    refine delivered_of_response mem (result ▸ present) entry zero
      (p := w.toEncodedTopicPartitionRecords) (parts ▸ List.mem_map_of_mem wire) ?_ whole
      ((exactly _).mpr ⟨taken.item, takenMem, tp.symm, ?_⟩)
    · rw [← key]
      exact tp.trans (by rw [item]; rfl)
    · rw [chosen _ takenMem rfl]
      exact bare

end delivered

end ProducePath

/-- Along every run of the whole produce path, with any interleaving of its goroutines and
any answers of the agents: when a record is reported as produced, an agent has acknowledged
a batch for its partition that has the record. -/
theorem produce_success_was_acknowledged [Snappy] {cfg : ClientConfig}
    (valid : cfg.validateBatchMaxBytes = none) {actions : List ProduceAction} {s : ProducePath}
    (together : Machine.along ProducePath.step ProducePath.keepsTogether (ProducePath.init cfg)
      actions = true)
    (runs : Machine.run ProducePath.step (ProducePath.init cfg) actions = some s)
    {i : Nat} {it : Item RoutedTopicPartitionRecords} {d : Delivery}
    (found : s.buffer.buffer.items[i]? = some it) (mem : d ∈ it.completions)
    (ok : recordErrFromResult d.res (getTopicPartition it.item) = none) :
    ∀ r ∈ it.item.records, s.Delivered (getTopicPartition it.item) r := by
  intro r inside
  obtain ⟨sound, cfg_eq⟩ := ProducePath.sound_run valid runs
  have credited := ProducePath.credited_run valid together runs
  obtain ⟨agent, index, cause⟩ := sound.buffer.cause_of_ok found mem ok
  obtain ⟨a, parts, foundAgent, split, flushed⟩ := sound.buffer.parts_flushed found mem cause
  obtain ⟨part, listed, own, tp⟩ : ∃ part ∈ parts, r ∈ part.records ∧
      getTopicPartition part = getTopicPartition it.item := by
    rcases split with rfl | rfl
    · exact ⟨it.item, List.mem_singleton_self _, inside, rfl⟩
    · have whole : r ∈ LawfulRoutedBatch.records it.item := inside
      rw [← LawfulRoutedBatch.split_records it.item a.batchMaxBytes] at whole
      obtain ⟨part, listed, own⟩ := List.mem_flatMap.mp whole
      exact ⟨part, listed, own, (LawfulRoutedBatch.split_routing _ _ part listed).1⟩
  obtain ⟨ret, returned, sameAgent, carries, a', f, cb, foundAgent', started, entry⟩ :=
    flushed part listed
  have clean := (sound.buffer.ok_iff found mem cause).mp ok ret returned (sameAgent ▸ carries)
  obtain ⟨c, call, callAgent, callIndex, ended⟩ := sound.returned ret returned
  obtain ⟨q, place⟩ := List.mem_iff_getElem?.mp call
  obtain ⟨p, batch, key, records, encoded, has⟩ := sound.call_contains call
    (by rw [callAgent, sameAgent]; exact foundAgent') (callIndex ▸ started) entry own
  have acked := ((sound.calls c call).call.answers ended).acked p.topicPartition
    (List.mem_map_of_mem batch) (by rw [key, tp]; exact clean)
  rw [← tp, ← key]
  exact credited.delivered sound (cfg_eq ▸ ClientConfig.small_of_valid valid) place batch acked
    encoded has

/-- The batch of the record below. -/
def loneBatch : EncodedTopicPartitionRecords :=
  ((@newEncodedTopicPartitionRecords Snappy.stored "t" 0
    [ensureRecordTimestamp { topic := "t" } (.unix 1)]).getD ⟨"t", 0, [], {}⟩)

/-- The primary request for a record fails and a hedge is acknowledged. -/
def hedgedRecord : List ProduceAction :=
  let acks : BrokerReply := .response { topics := [⟨"t", 0, [⟨0, 0⟩]⟩] }
  let entry : Promised RoutedEncodedTopicPartitionRecords Callback :=
    ⟨{ loneBatch with nodeID := 2 }, .wrapped 0⟩
  [[.produce none { topic := "t" } (.unix 1) [{ nodeID := 1 }]],
    List.replicate 4 (.buffer (.run 0 {})),
    [.buffer (.timerFlush 0), .flushBatch 1 fun _ => [{ nodeID := 2 }], .call 0 (.start {}),
      .primaryReturns 0 ⟨9, fun _ => some 7, .failed GoError.contextDeadlineExceeded, none⟩,
      .call 0 (.takePrimary false), .wave 0 [loneBatch] [⟨2, [loneBatch]⟩],
      .hedgeBuffer (.run 0 {}), .hedgeBuffer (.run 0 {}),
      .hedgeBuffer (.run 0 { bins := [(2, [entry])] }), .hedgeBuffer (.run 0 {}),
      .hedgeBuffer (.run 0 {}), .hedgeBuffer (.timerFlush 0),
      .hedgeFlush 1 ⟨9, fun _ => some 7, acks, none⟩],
    List.replicate 3 (.hedgeBuffer (.run 1 {})),
    [.legResult 0 0, .call 0 (.cascadeReturns ⟨[(⟨"t", 0⟩, ⟨0, 0⟩)], []⟩ false),
      .call 0 (.takeFallback false), .flushReturns 1, .buffer (.run 1 {}),
      .buffer (.run 1 {})]].flatten

theorem produce_success_was_acknowledged_hedged :
    letI := Snappy.stored
    ∃ s r, Machine.run ProducePath.step (ProducePath.init ⟨16000000, 3⟩) hedgedRecord = some s ∧
      s.Delivered ⟨"t", 0⟩ r := by
  let _ := Snappy.stored
  have state : (Machine.run ProducePath.step (ProducePath.init ⟨16000000, 3⟩) hedgedRecord).map
      (fun s => s.buffer.buffer.items.map fun it => (getTopicPartition it.item,
        it.item.records.length, it.completions.map fun d =>
          recordErrFromResult d.res (getTopicPartition it.item))) =
        some [(⟨"t", 0⟩, 1, [none])] := by decide +kernel
  obtain ⟨s, runs, items⟩ := Option.map_eq_some_iff.mp state
  obtain ⟨it, only, seen⟩ := List.map_eq_singleton_iff.mp items
  obtain ⟨tp, one, told⟩ : getTopicPartition it.item = ⟨"t", 0⟩ ∧ it.item.records.length = 1 ∧
      it.completions.map (fun d => recordErrFromResult d.res (getTopicPartition it.item)) = [none] := by
    simpa using seen
  obtain ⟨d, completed, ok⟩ := List.map_eq_singleton_iff.mp told
  obtain ⟨r, record⟩ := List.length_eq_one_iff.mp one
  have found : s.buffer.buffer.items[0]? = some it := by rw [only]; rfl
  have delivered := produce_success_was_acknowledged (by decide) (by decide +kernel) runs found
    (completed ▸ List.mem_singleton_self d) ok r (record ▸ List.mem_singleton_self r)
  exact ⟨s, r, runs, tp ▸ delivered⟩

/-- Along every run, whatever a request has for a partition is a batch of records that were
handed to `Produce` or `ProduceSync` for that partition. -/
theorem wire_only_carries_produced_records [Snappy] {cfg : ClientConfig}
    (valid : cfg.validateBatchMaxBytes = none) {actions : List ProduceAction} {s : ProducePath}
    (runs : Machine.run ProducePath.step (ProducePath.init cfg) actions = some s)
    {attempt : Attempt} (mem : attempt ∈ s.wire) {tp : TopicPartition} {bytes : Bytes}
    (sends : attempt.Sends tp bytes) :
    ∃ records, BatchOf records bytes ∧ ∀ r ∈ records, ∃ action ∈ actions,
      ∃ item ∈ action.added cfg, getTopicPartition item = tp ∧
        ∃ r' ∈ item.records, bareRecord r' = bareRecord r := by
  obtain ⟨sound, cfg_eq⟩ := ProducePath.sound_run valid runs
  obtain ⟨records, batch, known⟩ :=
    sound.wire_contents (cfg_eq ▸ ClientConfig.small_of_valid valid) mem sends
  refine ⟨records, batch, fun r inside => ?_⟩
  obtain ⟨item, listed, same, own⟩ := known r inside
  obtain ⟨action, taken, adds⟩ := List.mem_flatMap.mp listed
  exact ⟨action, taken, item, adds, same, own⟩

theorem wire_only_carries_produced_records_hedged :
    letI := Snappy.stored
    ∃ s attempt, Machine.run ProducePath.step (ProducePath.init ⟨16000000, 3⟩) hedgedRecord = some s ∧
      attempt ∈ s.wire ∧ attempt.Sends ⟨"t", 0⟩ loneBatch.encoded ∧
      ∃ records, BatchOf records loneBatch.encoded ∧ ∀ r ∈ records, ∃ action ∈ hedgedRecord,
        ∃ item ∈ action.added ⟨16000000, 3⟩, getTopicPartition item = ⟨"t", 0⟩ ∧
          ∃ r' ∈ item.records, bareRecord r' = bareRecord r := by
  let _ := Snappy.stored
  have state : (Machine.run ProducePath.step (ProducePath.init ⟨16000000, 3⟩) hedgedRecord).map
      (fun s => s.wire.map fun a => (a.target.nodeID, a.partitions, a.request.isOk)) =
        some [(1, [loneBatch], true), (2, [loneBatch], true)] := by decide +kernel
  obtain ⟨s, runs, attempts⟩ := Option.map_eq_some_iff.mp state
  have listed : (2, [loneBatch], true) ∈
      s.wire.map fun a => (a.target.nodeID, a.partitions, a.request.isOk) := by
    rw [attempts]
    exact List.mem_cons_of_mem _ List.mem_cons_self
  obtain ⟨attempt, mem, seen⟩ := List.mem_map.mp listed
  obtain ⟨parts, sent⟩ : attempt.partitions = [loneBatch] ∧ attempt.request.isOk = true := by
    simpa using (Prod.mk.inj seen).2
  have key : loneBatch.topicPartition = ⟨"t", 0⟩ := by decide +kernel
  have built : ∃ req stats, attempt.request = .ok (req, stats) := by
    cases request : attempt.request with
    | error e =>
        rw [request] at sent
        cases sent
    | ok result => exact ⟨result.1, result.2, rfl⟩
  have sends := Attempt.sends_of_mem (parts ▸ List.mem_singleton_self loneBatch)
    (by decide +kernel) built
  rw [key] at sends
  exact ⟨s, attempt, runs, mem, sends,
    wire_only_carries_produced_records (by decide) runs mem sends⟩

/-- Along every run, once a record's promise has fired by completion, and not by the end of
its context, nothing that the client has still to do refers to the record, and no flush that
has still to be encoded has it. -/
theorem completed_record_is_released [Snappy] {cfg : ClientConfig}
    (valid : cfg.validateBatchMaxBytes = none) {actions : List ProduceAction} {s : ProducePath}
    (runs : Machine.run ProducePath.step (ProducePath.init cfg) actions = some s)
    {i : Nat} {it : Item RoutedTopicPartitionRecords} {d : Delivery}
    (found : s.buffer.buffer.items[i]? = some it) (mem : d ∈ it.completions)
    (completion : d.cause ≠ .ctx) :
    s.buffer.Released i ∧ ∀ task candidates s', s.step (.flushBatch task candidates) = some s' →
      ∃ a f, s.buffer.flushAt task = some (a, f) ∧
        ∀ e ∈ f.entries, ¬ s.buffer.buffer.ReportsTo e.done (.wrapped i) := by
  have sound := (ProducePath.sound_run valid runs).1
  have released := sound.buffer.released found mem completion
  refine ⟨released, fun task candidates s' stepped => ?_⟩
  simp only [ProducePath.step, Option.bind_eq_bind, Option.bind_eq_some_iff] at stepped
  obtain ⟨flush, place, ⟨a, f⟩, there, -⟩ := stepped
  obtain ⟨agent, index, op, foundAgent, started⟩ := ProducePath.flushAt_eq_some there
  obtain ⟨entries, rest, here⟩ := ProducePath.flushOf_eq_some op
  have inside := List.mem_of_getElem? here
  obtain ⟨a', f', foundAgent', started', same⟩ := sound.buffer.origins.sound _
    (List.mem_flatten.mpr ⟨_, inside, List.mem_cons_self⟩)
  obtain rfl := Option.some.inj (foundAgent.symm.trans foundAgent')
  obtain rfl := Option.some.inj (started.symm.trans started')
  refine ⟨a, f, there, fun e entry => ?_⟩
  exact released.ops _ inside _ List.mem_cons_self e.done
    (List.mem_map.mpr ⟨e, same ▸ entry, rfl⟩)

/-- The hedged record is released once its promise has fired. -/
theorem completed_record_is_released_hedged :
    letI := Snappy.stored
    ∃ s, Machine.run ProducePath.step (ProducePath.init ⟨16000000, 3⟩) hedgedRecord = some s ∧
      s.buffer.Released 0 := by
  let _ := Snappy.stored
  have state : (Machine.run ProducePath.step (ProducePath.init ⟨16000000, 3⟩) hedgedRecord).map
      (fun s => s.buffer.buffer.items.map fun it => it.completions.map Delivery.cause) =
        some [[.flush 0 0]] := by decide +kernel
  obtain ⟨s, runs, items⟩ := Option.map_eq_some_iff.mp state
  obtain ⟨it, only, told⟩ := List.map_eq_singleton_iff.mp items
  obtain ⟨d, completed, cause⟩ := List.map_eq_singleton_iff.mp told
  have found : s.buffer.buffer.items[0]? = some it := by rw [only]; rfl
  have late : d.cause ≠ .ctx := by
    rw [cause]
    exact fun same => by cases same
  exact ⟨s, runs, (completed_record_is_released (by decide) runs found
    (completed ▸ List.mem_singleton_self d) late).1⟩

end Warpstream
