import Warpstream.Accumulator

set_option autoImplicit false

/- The accumulator over a whole sequence of legs: what its three maps and its response say at
every point, and that the order of the legs does not matter for what is left. -/
namespace Warpstream

namespace ProduceResultAccumulator

/-- The accumulator after a sequence of legs. -/
def accumulateAll (a : ProduceResultAccumulator) (legs : List LegResult) :
    ProduceResultAccumulator :=
  legs.foldl (fun a leg => a.accumulate leg.scoped) a

variable {requested : List TopicPartition} {legs done : List LegResult}
  {a : ProduceResultAccumulator}

theorem Ok.accumulateAll (ok : a.Ok requested done) (legs : List LegResult)
    (sent : ∀ leg ∈ legs, ∀ tp ∈ leg.own, tp ∈ requested) :
    (a.accumulateAll legs).Ok requested (done ++ legs) := by
  induction legs generalizing done a with
  | nil =>
      rw [List.append_nil]
      exact ok
  | cons leg rest ih =>
      have first := ok.accumulate leg (sent leg List.mem_cons_self)
      have others := ih first fun leg mem => sent leg (List.mem_cons_of_mem _ mem)
      rwa [List.append_assoc] at others

/-- What is pending after the legs: what none of them acknowledged. -/
theorem mem_pending_accumulateAll (legs : List LegResult) (tp : TopicPartition) :
    tp ∈ (a.accumulateAll legs).pending ↔ tp ∈ a.pending ∧ ∀ leg ∈ legs, ¬ leg.Acks tp := by
  induction legs generalizing a with
  | nil =>
      change tp ∈ a.pending ↔ _
      simp
  | cons leg rest ih =>
      obtain ⟨taken, kept⟩ := lookup_pending_accumulate (a := a) leg tp
      have step : tp ∈ (a.accumulate leg.scoped).pending ↔ tp ∈ a.pending ∧ ¬ leg.Acks tp := by
        by_cases acks : leg.Acks tp
        · simp [← AList.lookup_isSome, taken acks, acks]
        · simp [← AList.lookup_isSome, kept acks, acks]
      change tp ∈ ((a.accumulate leg.scoped).accumulateAll rest).pending ↔ _
      rw [ih, step, List.forall_mem_cons, and_assoc]

theorem Ok.mem_resolved (ok : a.Ok requested done) (tp : TopicPartition) :
    tp ∈ a.resolved ↔ tp ∈ requested ∧ tp ∉ a.pending := by
  rw [ok.covers tp]
  constructor
  · intro resolved
    exact ⟨Or.inr resolved, fun pending => ok.apart tp pending resolved⟩
  · rintro ⟨pending | resolved, left⟩
    · exact absurd pending left
    · exact resolved

section Failed

/-- A recorded failure is about a partition that is still pending. -/
def FailedPending (a : ProduceResultAccumulator) : Prop := ∀ tp ∈ a.failed, tp ∈ a.pending

theorem FailedPending.recordFailure (held : a.FailedPending) (owns : TopicPartition → Bool)
    (e : TopicPartition × Kmsg.ProduceResponseTopicPartition) :
    (a.recordFailure owns e).FailedPending := by
  unfold ProduceResultAccumulator.recordFailure
  split
  · rename_i kept
    intro tp mem
    rcases (AList.mem_insert _).mp mem with rfl | old
    · exact kept.2.2
    · exact held tp old
  · exact held

theorem FailedPending.resolve (held : a.FailedPending) (owns : TopicPartition → Bool)
    (e : TopicPartition × Kmsg.ProduceResponseTopicPartition) :
    (a.resolve owns e).FailedPending := by
  unfold ProduceResultAccumulator.resolve
  split
  · intro tp mem
    obtain ⟨other, old⟩ := AList.mem_erase.mp mem
    exact AList.mem_erase.mpr ⟨other, held tp old⟩
  · exact held

theorem FailedPending.resolveTopic (held : a.FailedPending) (owns : TopicPartition → Bool)
    (t : Kmsg.ProduceResponseTopic) : (a.resolveTopic owns t).FailedPending := by
  have folded : (t.entries.foldl (ProduceResultAccumulator.resolve owns) a).FailedPending :=
    List.foldlRecOn t.entries _ held fun b held e _ => held.resolve owns e
  unfold ProduceResultAccumulator.resolveTopic
  simp only
  split
  · exact folded
  · exact folded

theorem FailedPending.accumulate (held : a.FailedPending) (res : ScopedProduceResult) :
    (a.accumulate res).FailedPending := by
  unfold ProduceResultAccumulator.accumulate
  split
  · exact List.foldlRecOn _ _ held fun b held e _ => held.recordFailure res.owns e
  · split
    · exact held
    · exact List.foldlRecOn _ _ held fun b held t _ => held.resolveTopic res.owns t

theorem FailedPending.accumulateAll (held : a.FailedPending) (legs : List LegResult) :
    (a.accumulateAll legs).FailedPending :=
  List.foldlRecOn legs _ held fun _ held leg _ => held.accumulate leg.scoped

/-- Before the first leg no failure is recorded. -/
theorem Ok.failedPending_start (ok : a.Ok requested []) : a.FailedPending := by
  intro tp mem
  obtain ⟨e, found⟩ := Option.isSome_iff_exists.mp (AList.lookup_isSome.mpr mem)
  obtain ⟨-, -, leg, none, -⟩ := ok.failedOk tp e found
  cases none

end Failed

/-- The response has one entry for each requested partition. -/
theorem Ok.entries_keys_perm (ok : a.Ok requested done) (distinct : requested.Nodup)
    {orders : MapOrders} (ordered : a.Orders orders) :
    ((a.responseLocked orders).entries.map Prod.fst).Perm requested := by
  have keys : ((a.outcomes orders).map Prod.fst).Perm (a.resolved.keys ++ a.pending.keys) := by
    rw [outcomes, List.map_append, List.map_map]
    apply List.Perm.append
    · refine (ordered.1.map Prod.fst).trans (List.Perm.of_eq ?_)
      rw [List.map_map]
      rfl
    · change (orders.pending.map id).Perm _
      rw [List.map_id]
      exact ordered.2
  refine ((ok.entries_perm ordered).map Prod.fst).trans (keys.trans ?_)
  have apart : (a.resolved.keys ++ a.pending.keys).Nodup := by
    refine List.nodup_append.mpr ⟨a.resolved.nodupKeys, a.pending.nodupKeys, ?_⟩
    rintro tp resolved _ pending rfl
    exact ok.apart tp (AList.mem_keys.mpr pending) (AList.mem_keys.mpr resolved)
  refine (List.perm_ext_iff_of_nodup apart distinct).mpr fun tp => ?_
  rw [ok.covers, List.mem_append, ← AList.mem_keys, ← AList.mem_keys, or_comm]

/-- What the maps and the response of an accumulator for `requested` say about each other. -/
structure Consistent (requested : List TopicPartition) (a : ProduceResultAccumulator) : Prop where
  covers : ∀ tp, tp ∈ requested ↔ tp ∈ a.pending ∨ tp ∈ a.resolved
  apart : ∀ tp ∈ a.pending, tp ∉ a.resolved
  resolvedCode : ∀ tp e, a.resolved.lookup tp = some e → e.errorCode = 0
  failedPending : ∀ tp ∈ a.failed, tp ∈ a.pending
  failedCode : ∀ tp e, a.failed.lookup tp = some e → e.errorCode ≠ 0
  response : ∀ orders, a.Orders orders → ∃ resp, (a.result orders).resp = some resp ∧
    (resp.entries.map Prod.fst).Perm requested ∧
    ∀ e ∈ resp.entries, e.2.errorCode = 0 ↔ e.1 ∈ a.resolved

theorem Ok.consistent (ok : a.Ok requested done) (failed : a.FailedPending)
    (distinct : requested.Nodup) : Consistent requested a where
  covers := ok.covers
  apart := ok.apart
  resolvedCode tp e found := (ok.resolvedOk tp e found).2.1
  failedPending := failed
  failedCode tp e found := (ok.failedOk tp e found).2.1
  response orders ordered := by
    refine ⟨_, a.result_resp orders, ok.entries_keys_perm distinct ordered, fun e mem => ?_⟩
    rw [((ok.mem_response ordered e).mp mem).2]
    exact ok.outcome_code e.1

end ProduceResultAccumulator

/-- After any sequence of legs the accumulator is consistent, later legs only resolve more,
and the legs in another order leave the same partitions pending and resolved. -/
theorem accumulateAll_consistent {partitions : List EncodedTopicPartitionRecords}
    (distinct : (partitions.map EncodedTopicPartitionRecords.topicPartition).Nodup) :
    ∃ start, newProduceResultAccumulator partitions = .ok start ∧
      ∀ legs : List LegResult,
        (∀ leg ∈ legs, ∀ tp ∈ leg.own,
          tp ∈ partitions.map EncodedTopicPartitionRecords.topicPartition) →
        (start.accumulateAll legs).Consistent
            (partitions.map EncodedTopicPartitionRecords.topicPartition) ∧
          (∀ done rest, legs = done ++ rest → ∀ tp ∈ (start.accumulateAll done).resolved,
            tp ∈ (start.accumulateAll legs).resolved) ∧
          ∀ reordered : List LegResult, reordered.Perm legs → ∀ tp,
            (tp ∈ (start.accumulateAll reordered).pending ↔
              tp ∈ (start.accumulateAll legs).pending) ∧
            (tp ∈ (start.accumulateAll reordered).resolved ↔
              tp ∈ (start.accumulateAll legs).resolved) := by
  obtain ⟨start, new, ok⟩ :=
    ProduceResultAccumulator.exists_newProduceResultAccumulator distinct
  refine ⟨start, new, fun legs sent => ?_⟩
  have after := ok.accumulateAll legs sent
  refine ⟨after.consistent (ok.failedPending_start.accumulateAll legs) distinct, ?_, ?_⟩
  · rintro done rest rfl tp resolved
    have before := ok.accumulateAll done fun leg mem => sent leg (List.mem_append_left _ mem)
    rw [before.mem_resolved, ProduceResultAccumulator.mem_pending_accumulateAll] at resolved
    rw [after.mem_resolved, ProduceResultAccumulator.mem_pending_accumulateAll]
    refine ⟨resolved.1, fun ⟨pending, silent⟩ => resolved.2 ⟨pending, fun leg mem => ?_⟩⟩
    exact silent leg (List.mem_append_left _ mem)
  · intro reordered perm tp
    have other := ok.accumulateAll reordered fun leg mem => sent leg (perm.mem_iff.mp mem)
    have pending : tp ∈ (start.accumulateAll reordered).pending ↔
        tp ∈ (start.accumulateAll legs).pending := by
      simp only [ProduceResultAccumulator.mem_pending_accumulateAll, perm.mem_iff]
    refine ⟨pending, ?_⟩
    rw [other.mem_resolved, after.mem_resolved, pending]

/-- One leg acknowledges its partition, the other reports an error for both. -/
theorem accumulateAll_consistent_two :
    let partitions : List EncodedTopicPartitionRecords := [⟨"t", 0, [1], {}⟩, ⟨"t", 1, [2], {}⟩]
    let acked : LegResult :=
      ⟨[⟨"t", 0⟩], { resp := some { topics := [{ topic := "t", partitions := [⟨0, 0⟩] }] } }⟩
    let failed : LegResult :=
      ⟨[⟨"t", 0⟩, ⟨"t", 1⟩],
        { resp := some { topics := [{ topic := "t", partitions := [⟨0, 6⟩, ⟨1, 6⟩] }] } }⟩
    ∃ start, newProduceResultAccumulator partitions = .ok start ∧
      (start.accumulateAll [acked, failed]).Consistent
          (partitions.map EncodedTopicPartitionRecords.topicPartition) ∧
        ∀ tp, tp ∈ (start.accumulateAll [failed, acked]).resolved ↔
          tp ∈ (start.accumulateAll [acked, failed]).resolved := by
  intro partitions acked failed
  have distinct : (partitions.map EncodedTopicPartitionRecords.topicPartition).Nodup := by decide
  obtain ⟨start, new, all⟩ := accumulateAll_consistent distinct
  obtain ⟨consistent, -, reordered⟩ := all [acked, failed] (by decide)
  exact ⟨start, new, consistent, fun tp => (reordered [failed, acked] (.swap _ _ _) tp).2⟩

end Warpstream
