import Warpstream.ProduceResult

set_option autoImplicit false

/- `produceResultAccumulator`: the merged outcome of a cascade's legs. -/
namespace Warpstream

structure ProduceResultAccumulator where
  pending : GoMap TopicPartition EncodedTopicPartitionRecords := ∅
  resolved : GoMap TopicPartition Kmsg.ProduceResponseTopicPartition := ∅
  failed : GoMap TopicPartition Kmsg.ProduceResponseTopicPartition := ∅
  lastErr : Option ProduceResultErr := none
  aborted : Bool := false
  responseVersion : Int := 0
  responseThrottleMillis : Int := 0
  responseTopicIDs : GoMap String TopicID := ∅

/-- Seed one partition; a duplicate is an error. -/
def seedPending (a : ProduceResultAccumulator) (p : EncodedTopicPartitionRecords) :
    Except GoError ProduceResultAccumulator :=
  if p.topicPartition ∈ a.pending then
    .error { node := { text := "duplicate topic-partition in input: topic=" ++ p.topic.quote ++
      " partition=" ++ toString p.partition } }
  else .ok { a with pending := a.pending.insert p.topicPartition p }

def newProduceResultAccumulator (partitions : List EncodedTopicPartitionRecords) :
    Except GoError ProduceResultAccumulator :=
  partitions.foldlM seedPending {}

namespace ProduceResultAccumulator

/-- `remaining` may list the pending partitions in any order. -/
def Remaining (a : ProduceResultAccumulator) (order : List EncodedTopicPartitionRecords) : Prop :=
  order.Perm (a.pending.entries.map Sigma.snd)

instance (a : ProduceResultAccumulator) (order : List EncodedTopicPartitionRecords) :
    Decidable (a.Remaining order) :=
  inferInstanceAs (Decidable (order.Perm _))

/-- One entry of a failed response: the error of a partition the leg sent and that is
still pending. -/
def recordFailure (owns : TopicPartition → Bool) (a : ProduceResultAccumulator)
    (e : TopicPartition × Kmsg.ProduceResponseTopicPartition) : ProduceResultAccumulator :=
  if e.2.errorCode ≠ 0 ∧ owns e.1 = true ∧ e.1 ∈ a.pending then
    { a with failed := a.failed.insert e.1 e.2 }
  else a

/-- One entry of a successful response. -/
def resolve (owns : TopicPartition → Bool) (a : ProduceResultAccumulator)
    (e : TopicPartition × Kmsg.ProduceResponseTopicPartition) : ProduceResultAccumulator :=
  if owns e.1 then
    { a with
      resolved := a.resolved.insert e.1 e.2
      pending := a.pending.erase e.1
      failed := a.failed.erase e.1 }
  else a

def resolveTopic (owns : TopicPartition → Bool) (a : ProduceResultAccumulator)
    (t : Kmsg.ProduceResponseTopic) : ProduceResultAccumulator :=
  let a := t.entries.foldl (resolve owns) a
  let ownedTopic := t.entries.any fun e => owns e.1
  if ownedTopic ∧ t.topicID ≠ 0 ∧ t.topic ∉ a.responseTopicIDs then
    { a with responseTopicIDs := a.responseTopicIDs.insert t.topic t.topicID }
  else a

def accumulate (a : ProduceResultAccumulator) (res : ScopedProduceResult) :
    ProduceResultAccumulator :=
  match res.err with
  | some resErr =>
      let lastErr := getProduceResultErr resErr
      let a := { a with lastErr := some lastErr, aborted := a.aborted || !lastErr.retriable }
      ((res.raw.resp.map Kmsg.ProduceResponse.entries).getD []).foldl (recordFailure res.owns) a
  | none =>
      -- a scoped result without an error has a response
      match res.raw.resp with
      | none => a
      | some resp =>
          let a := { a with
            responseVersion := if a.responseVersion = 0 then resp.version else a.responseVersion
            responseThrottleMillis := max a.responseThrottleMillis resp.throttleMillis }
          resp.topics.foldl (resolveTopic res.owns) a

def terminalErr (a : ProduceResultAccumulator) : Bool × Option GoError :=
  if a.aborted then (true, a.lastErr.map ProduceResultErr.err) else (false, none)

def done (a : ProduceResultAccumulator) : Bool := a.pending.keys.isEmpty || a.aborted

def syntheticCode (a : ProduceResultAccumulator) : Int :=
  match a.lastErr with
  | some lastErr => if lastErr.code ≠ 0 then lastErr.code else Kerr.requestTimedOut.code
  | none => Kerr.requestTimedOut.code

/-- What the response says about a pending partition. -/
def pendingEntry (a : ProduceResultAccumulator) (tp : TopicPartition) :
    Kmsg.ProduceResponseTopicPartition :=
  (a.failed.lookup tp).getD ⟨tp.partition, a.syntheticCode⟩

/-- The orders in which `responseLocked` ranges over its two maps. -/
structure MapOrders where
  resolved : List (TopicPartition × Kmsg.ProduceResponseTopicPartition)
  pending : List TopicPartition

def Orders (a : ProduceResultAccumulator) (orders : MapOrders) : Prop :=
  orders.resolved.Perm (a.resolved.entries.map fun e => (e.1, e.2)) ∧
    orders.pending.Perm a.pending.keys

instance (a : ProduceResultAccumulator) (orders : MapOrders) : Decidable (a.Orders orders) :=
  inferInstanceAs (Decidable (_ ∧ _))

/-- The entries of the merged response in the order they are added to their topics. -/
def outcomes (a : ProduceResultAccumulator) (orders : MapOrders) :
    List (TopicPartition × Kmsg.ProduceResponseTopicPartition) :=
  orders.resolved ++ orders.pending.map fun tp => (tp, a.pendingEntry tp)

def responseLocked (a : ProduceResultAccumulator) (orders : MapOrders) : Kmsg.ProduceResponse :=
  { version := a.responseVersion
    throttleMillis := a.responseThrottleMillis
    topics := (FirstSeen.groupBy (fun e => e.1.topic) (a.outcomes orders)).map fun g =>
      { topic := g.1
        topicID := (a.responseTopicIDs.lookup g.1).getD 0
        partitions := g.2.map Prod.snd } }

def result (a : ProduceResultAccumulator) (orders : MapOrders) : ProduceResult :=
  let resp := a.responseLocked orders
  if a.pending.keys.isEmpty then { resp := some resp }
  else
    match a.lastErr with
    | some lastErr => { resp := some resp, err := some (GoError.errRecordTimeout.join lastErr.err) }
    | none => { resp := some resp, err := some GoError.errRecordTimeout }

end ProduceResultAccumulator

/-- A leg's outcome: the partitions it sent and what its flush returned. -/
structure LegResult where
  own : List TopicPartition
  res : ProduceResult
deriving DecidableEq

def LegResult.scoped (leg : LegResult) : ScopedProduceResult :=
  scopeProduceResultToPartitions leg.res leg.own

/-- A leg without an error in its partitions whose response has `tp` with code 0. -/
structure LegResult.Acks (leg : LegResult) (tp : TopicPartition) : Prop where
  accepted : leg.scoped.err = none
  own : tp ∈ leg.own
  entry : ∃ resp e, leg.res.resp = some resp ∧ (tp, e) ∈ resp.entries ∧ e.errorCode = 0

/-- A leg whose response has an error entry for `tp`. -/
def LegResult.Reports (leg : LegResult) (tp : TopicPartition)
    (e : Kmsg.ProduceResponseTopicPartition) : Prop :=
  ∃ resp, leg.res.resp = some resp ∧ (tp, e) ∈ resp.entries ∧ tp ∈ leg.own

namespace ProduceResultAccumulator

/-- What holds of an accumulator for `requested` that was fed `legs`. -/
structure Ok (requested : List TopicPartition) (legs : List LegResult)
    (a : ProduceResultAccumulator) : Prop where
  covers : ∀ tp, tp ∈ requested ↔ tp ∈ a.pending ∨ tp ∈ a.resolved
  apart : ∀ tp ∈ a.pending, tp ∉ a.resolved
  pendingKey : ∀ tp p, a.pending.lookup tp = some p → p.topicPartition = tp
  resolvedOk : ∀ tp e, a.resolved.lookup tp = some e →
    e.partition = tp.partition ∧ e.errorCode = 0 ∧ ∃ leg ∈ legs, leg.Acks tp
  failedOk : ∀ tp e, a.failed.lookup tp = some e →
    e.partition = tp.partition ∧ e.errorCode ≠ 0 ∧ ∃ leg ∈ legs, leg.Reports tp e
  lastErrOk : ∀ l, a.lastErr = some l →
    l = getProduceResultErr l.err ∧ ∃ leg ∈ legs, leg.scoped.err = some l.err

variable {requested : List TopicPartition} {legs : List LegResult} {a : ProduceResultAccumulator}

theorem Ok.more (ok : a.Ok requested legs) (leg : LegResult) : a.Ok requested (legs ++ [leg]) where
  covers := ok.covers
  apart := ok.apart
  pendingKey := ok.pendingKey
  resolvedOk tp e found := by
    obtain ⟨partition, code, leg, mem, acks⟩ := ok.resolvedOk tp e found
    exact ⟨partition, code, leg, List.mem_append_left _ mem, acks⟩
  failedOk tp e found := by
    obtain ⟨partition, code, leg, mem, reports⟩ := ok.failedOk tp e found
    exact ⟨partition, code, leg, List.mem_append_left _ mem, reports⟩
  lastErrOk l eq := by
    obtain ⟨same, leg, mem, err⟩ := ok.lastErrOk l eq
    exact ⟨same, leg, List.mem_append_left _ mem, err⟩

theorem partition_of_mem_entries {resp : Kmsg.ProduceResponse}
    {e : TopicPartition × Kmsg.ProduceResponseTopicPartition} (mem : e ∈ resp.entries) :
    e.2.partition = e.1.partition := by
  obtain ⟨t, -, inside⟩ := List.mem_flatMap.mp mem
  obtain ⟨p, -, rfl⟩ := List.mem_map.mp inside
  rfl

theorem Ok.recordFailure (ok : a.Ok requested legs) {owns : TopicPartition → Bool}
    {e : TopicPartition × Kmsg.ProduceResponseTopicPartition}
    (partition : e.2.partition = e.1.partition)
    (reported : owns e.1 = true → ∃ leg ∈ legs, leg.Reports e.1 e.2) :
    (a.recordFailure owns e).Ok requested legs := by
  unfold ProduceResultAccumulator.recordFailure
  split
  · rename_i kept
    refine { ok with failedOk := ?_ }
    intro tp entry found
    by_cases same : tp = e.1
    · subst same
      obtain rfl : e.2 = entry := by simpa using found
      exact ⟨partition, kept.1, reported kept.2.1⟩
    · rw [AList.lookup_insert_ne same] at found
      exact ok.failedOk tp entry found
  · exact ok

theorem Ok.resolve (ok : a.Ok requested legs) {owns : TopicPartition → Bool}
    {e : TopicPartition × Kmsg.ProduceResponseTopicPartition}
    (partition : e.2.partition = e.1.partition)
    (acked : owns e.1 = true → e.2.errorCode = 0 ∧ e.1 ∈ requested ∧ ∃ leg ∈ legs, leg.Acks e.1) :
    (a.resolve owns e).Ok requested legs := by
  unfold ProduceResultAccumulator.resolve
  split
  · rename_i owned
    obtain ⟨zero, wanted, acks⟩ := acked owned
    refine ⟨?_, ?_, ?_, ?_, ?_, ok.lastErrOk⟩
    · intro tp
      by_cases same : tp = e.1
      · subst same
        simp [wanted]
      · simp [ok.covers tp, same]
    · intro tp mem
      rw [AList.mem_erase] at mem
      rw [AList.mem_insert]
      exact fun found => found.elim mem.1 (ok.apart tp mem.2)
    · intro tp p found
      by_cases same : tp = e.1
      · subst same
        simp at found
      · rw [AList.lookup_erase_ne same] at found
        exact ok.pendingKey tp p found
    · intro tp entry found
      by_cases same : tp = e.1
      · subst same
        obtain rfl : e.2 = entry := by simpa using found
        exact ⟨partition, zero, acks⟩
      · rw [AList.lookup_insert_ne same] at found
        exact ok.resolvedOk tp entry found
    · intro tp entry found
      by_cases same : tp = e.1
      · subst same
        simp at found
      · rw [AList.lookup_erase_ne same] at found
        exact ok.failedOk tp entry found
  · exact ok

theorem Ok.resolveTopic (ok : a.Ok requested legs) {owns : TopicPartition → Bool}
    {t : Kmsg.ProduceResponseTopic}
    (acked : ∀ e ∈ t.entries, owns e.1 = true →
      e.2.errorCode = 0 ∧ e.1 ∈ requested ∧ ∃ leg ∈ legs, leg.Acks e.1) :
    (a.resolveTopic owns t).Ok requested legs := by
  have folded : (t.entries.foldl (ProduceResultAccumulator.resolve owns) a).Ok requested legs := by
    refine List.foldlRecOn t.entries _ ok fun b held e mem => held.resolve ?_ (acked e mem)
    obtain ⟨p, -, rfl⟩ := List.mem_map.mp mem
    rfl
  unfold ProduceResultAccumulator.resolveTopic
  simp only
  split
  · exact ⟨folded.covers, folded.apart, folded.pendingKey, folded.resolvedOk, folded.failedOk,
      folded.lastErrOk⟩
  · exact folded

/-- Folding in a leg that sent some of the requested partitions. -/
theorem Ok.accumulate (ok : a.Ok requested legs) (leg : LegResult)
    (sent : ∀ tp ∈ leg.own, tp ∈ requested) :
    (a.accumulate leg.scoped).Ok requested (legs ++ [leg]) := by
  have start := ok.more leg
  have here : leg ∈ legs ++ [leg] := by simp
  unfold ProduceResultAccumulator.accumulate
  cases err : leg.scoped.err with
  | some resErr =>
      simp only
      have noted : Ok requested (legs ++ [leg]) { a with
          lastErr := some (getProduceResultErr resErr)
          aborted := a.aborted || !(getProduceResultErr resErr).retriable } := by
        refine { start with lastErrOk := ?_ }
        intro l eq
        obtain rfl := Option.some.inj eq
        rw [getProduceResultErr_err]
        exact ⟨rfl, leg, here, err⟩
      refine List.foldlRecOn _ _ noted fun b held e mem => ?_
      have raw : leg.scoped.raw = leg.res := scope_raw _ _
      rw [raw] at mem
      cases present : leg.res.resp with
      | none => simp [present] at mem
      | some resp =>
          have inside : e ∈ resp.entries := by simpa [present] using mem
          refine held.recordFailure (partition_of_mem_entries inside) fun owned => ?_
          refine ⟨leg, here, resp, present, inside, ?_⟩
          simpa [scope_owns present inside, LegResult.scoped] using owned
  | none =>
      simp only
      obtain ⟨-, resp, present, zero⟩ := scope_err_eq_none.mp err
      have raw : leg.scoped.raw = leg.res := scope_raw _ _
      rw [raw, present]
      simp only
      have noted : Ok requested (legs ++ [leg]) { a with
          responseVersion := if a.responseVersion = 0 then resp.version else a.responseVersion
          responseThrottleMillis := max a.responseThrottleMillis resp.throttleMillis } :=
        ⟨start.covers, start.apart, start.pendingKey, start.resolvedOk, start.failedOk,
          start.lastErrOk⟩
      refine List.foldlRecOn _ _ noted fun b held t mem => held.resolveTopic fun e inside owned => ?_
      have entry : e ∈ resp.entries := List.mem_flatMap.mpr ⟨t, mem, inside⟩
      have own : e.1 ∈ leg.own := by
        simpa [scope_owns present entry, LegResult.scoped] using owned
      exact ⟨zero e entry own, sent e.1 own, leg, here, err, own, resp, e.2, present, entry,
        zero e entry own⟩

theorem ok_empty : Ok [] [] ({} : ProduceResultAccumulator) :=
  ⟨by simp, by simp, by simp, by simp, by simp, by simp⟩

theorem Ok.insertPending {requested : List TopicPartition} {a : ProduceResultAccumulator}
    (ok : a.Ok requested []) (p : EncodedTopicPartitionRecords)
    (fresh : p.topicPartition ∉ requested) :
    Ok (requested ++ [p.topicPartition]) []
      { a with pending := a.pending.insert p.topicPartition p } := by
  refine ⟨?_, ?_, ?_, ok.resolvedOk, ok.failedOk, ok.lastErrOk⟩
  · intro tp
    have here := ok.covers tp
    simp only [List.mem_append, List.mem_singleton, AList.mem_insert, here]
    tauto
  · intro tp mem
    rcases AList.mem_insert _ |>.mp mem with rfl | old
    · exact fun found => fresh ((ok.covers _).mpr (Or.inr found))
    · exact ok.apart tp old
  · intro tp q found
    by_cases same : tp = p.topicPartition
    · subst same
      obtain rfl : p = q := by simpa using found
      rfl
    · rw [AList.lookup_insert_ne same] at found
      exact ok.pendingKey tp q found

/-- Distinct partitions give an accumulator with all of them pending. -/
theorem exists_newProduceResultAccumulator {partitions : List EncodedTopicPartitionRecords}
    (distinct : (partitions.map EncodedTopicPartitionRecords.topicPartition).Nodup) :
    ∃ a, newProduceResultAccumulator partitions = .ok a ∧
      a.Ok (partitions.map EncodedTopicPartitionRecords.topicPartition) [] := by
  have fold (rest : List EncodedTopicPartitionRecords) (seen : List TopicPartition)
      (a : ProduceResultAccumulator) (ok : a.Ok seen [])
      (distinct : (seen ++ rest.map EncodedTopicPartitionRecords.topicPartition).Nodup) :
      ∃ b, rest.foldlM seedPending a = .ok b ∧
        b.Ok (seen ++ rest.map EncodedTopicPartitionRecords.topicPartition) [] := by
    induction rest generalizing seen a with
    | nil => exact ⟨a, rfl, by simpa using ok⟩
    | cons p rest ih =>
        have fresh : p.topicPartition ∉ seen := by
          intro mem
          exact (List.nodup_append.mp distinct).2.2 _ mem _ (by simp) rfl
        have absent : p.topicPartition ∉ a.pending :=
          fun mem => fresh ((ok.covers _).mpr (Or.inl mem))
        obtain ⟨b, folded, held⟩ := ih (seen ++ [p.topicPartition]) _ (ok.insertPending p fresh)
          (by simpa using distinct)
        have seeded : seedPending a p =
            .ok { a with pending := a.pending.insert p.topicPartition p } := by
          simp [seedPending, absent]
        refine ⟨b, ?_, by simpa using held⟩
        rw [List.foldlM_cons, seeded]
        exact folded
  simpa [newProduceResultAccumulator] using fold partitions [] {} ok_empty (by simpa using distinct)

/-- The remaining partitions are the pending keys. -/
theorem Ok.remaining_keys (ok : a.Ok requested legs) {order : List EncodedTopicPartitionRecords}
    (remaining : a.Remaining order) :
    (order.map EncodedTopicPartitionRecords.topicPartition).Perm a.pending.keys := by
  refine (remaining.map _).trans (List.Perm.of_eq ?_)
  rw [List.map_map]
  refine List.map_congr_left fun entry mem => ?_
  exact ok.pendingKey entry.1 entry.2 (AList.mem_lookup_iff.mpr mem)

theorem pending_foldl_recordFailure (owns : TopicPartition → Bool)
    (entries : List (TopicPartition × Kmsg.ProduceResponseTopicPartition)) :
    (entries.foldl (recordFailure owns) a).pending = a.pending := by
  induction entries generalizing a with
  | nil => rfl
  | cons e rest ih =>
      rw [List.foldl_cons, ih, recordFailure]
      split <;> rfl

theorem pending_resolveTopic (owns : TopicPartition → Bool) (t : Kmsg.ProduceResponseTopic) :
    (a.resolveTopic owns t).pending = (t.entries.foldl (resolve owns) a).pending := by
  unfold resolveTopic
  simp only
  split <;> rfl

/-- What is pending after the entries of a response: what none of them is owned for. -/
theorem lookup_pending_foldl_resolve (owns : TopicPartition → Bool)
    (entries : List (TopicPartition × Kmsg.ProduceResponseTopicPartition)) (tp : TopicPartition) :
    (entries.foldl (resolve owns) a).pending.lookup tp =
      if owns tp = true ∧ tp ∈ entries.map Prod.fst then none else a.pending.lookup tp := by
  induction entries generalizing a with
  | nil => simp
  | cons e rest ih =>
      rw [List.foldl_cons, ih, resolve]
      by_cases same : tp = e.1
      · subst same
        by_cases owned : owns e.1 = true
        · simp [owned]
        · simp [owned]
      · by_cases owned : owns e.1 = true
        · simp only [owned, ↓reduceIte, AList.lookup_erase_ne same, List.map_cons, List.mem_cons,
            same, false_or]
        · simp only [owned, Bool.false_eq_true, ↓reduceIte, List.map_cons, List.mem_cons, same,
            false_or]

theorem lookup_pending_foldl_resolveTopic (owns : TopicPartition → Bool)
    (topics : List Kmsg.ProduceResponseTopic) (tp : TopicPartition) :
    (topics.foldl (resolveTopic owns) a).pending.lookup tp =
      if owns tp = true ∧ tp ∈ (topics.flatMap Kmsg.ProduceResponseTopic.entries).map Prod.fst then
        none
      else a.pending.lookup tp := by
  induction topics generalizing a with
  | nil => simp
  | cons t rest ih =>
      rw [List.foldl_cons, ih, pending_resolveTopic, lookup_pending_foldl_resolve,
        List.flatMap_cons, List.map_append]
      by_cases owned : owns tp = true
      · by_cases here : tp ∈ t.entries.map Prod.fst
        · simp [owned, here]
        · simp only [owned, here, true_and, ↓reduceIte, List.mem_append, false_or]
      · simp [owned]

/-- A leg takes the partitions it acknowledges from the pending ones, and no others. -/
theorem lookup_pending_accumulate (leg : LegResult) (tp : TopicPartition) :
    (leg.Acks tp → (a.accumulate leg.scoped).pending.lookup tp = none) ∧
      (¬ leg.Acks tp → (a.accumulate leg.scoped).pending.lookup tp = a.pending.lookup tp) := by
  have raw : leg.scoped.raw = leg.res := scope_raw _ _
  unfold accumulate
  cases err : leg.scoped.err with
  | some resErr =>
      refine ⟨fun acks => (by cases err.symm.trans acks.accepted), fun _ => ?_⟩
      simp only [pending_foldl_recordFailure]
  | none =>
      obtain ⟨-, resp, present, zero⟩ := scope_err_eq_none.mp err
      rw [raw, present]
      simp only [lookup_pending_foldl_resolveTopic]
      have entry (e : Kmsg.ProduceResponseTopicPartition) (mem : (tp, e) ∈ resp.entries) :
          leg.scoped.owns tp = decide (tp ∈ leg.own) := scope_owns present mem
      constructor
      · rintro ⟨-, own, resp', e, present', mem, -⟩
        obtain rfl := Option.some.inj (present.symm.trans present')
        rw [entry e mem]
        exact if_pos ⟨decide_eq_true own, List.mem_map.mpr ⟨(tp, e), mem, rfl⟩⟩
      · intro silent
        refine if_neg fun ⟨owned, listed⟩ => silent ?_
        obtain ⟨⟨_, e⟩, mem, rfl⟩ := List.mem_map.mp listed
        rw [entry e mem] at owned
        have own := of_decide_eq_true owned
        exact ⟨err, own, resp, e, present, mem, zero _ mem own⟩

/-- Nothing becomes pending again. -/
theorem lookup_pending_of_accumulate (leg : LegResult) {tp : TopicPartition}
    {p : EncodedTopicPartitionRecords}
    (found : (a.accumulate leg.scoped).pending.lookup tp = some p) :
    a.pending.lookup tp = some p := by
  obtain ⟨taken, kept⟩ := lookup_pending_accumulate (a := a) leg tp
  by_cases acks : leg.Acks tp
  · cases (taken acks).symm.trans found
  · exact (kept acks).symm.trans found

/-- Only what the leg acknowledges becomes resolved. -/
theorem acks_of_resolved (leg : LegResult) {tp : TopicPartition}
    (now : tp ∈ (a.accumulate leg.scoped).resolved) (before : tp ∉ a.resolved) : leg.Acks tp := by
  have raw : leg.scoped.raw = leg.res := scope_raw _ _
  unfold accumulate at now
  cases err : leg.scoped.err with
  | some resErr =>
      simp only [err] at now
      have same (entries : List (TopicPartition × Kmsg.ProduceResponseTopicPartition))
          (b : ProduceResultAccumulator) :
          (entries.foldl (recordFailure leg.scoped.owns) b).resolved = b.resolved := by
        induction entries generalizing b with
        | nil => rfl
        | cons e rest ih =>
            rw [List.foldl_cons, ih, recordFailure]
            split <;> rfl
      rw [same] at now
      exact absurd now before
  | none =>
      obtain ⟨-, resp, present, zero⟩ := scope_err_eq_none.mp err
      simp only [err, raw, present] at now
      revert now
      refine List.foldlRecOn resp.topics (resolveTopic leg.scoped.owns)
        (motive := fun b => tp ∈ b.resolved → leg.Acks tp) ?_ ?_
      · exact fun now => absurd now before
      intro b held t topic
      have folded : tp ∈ (t.entries.foldl (resolve leg.scoped.owns) b).resolved → leg.Acks tp := by
        refine List.foldlRecOn t.entries (resolve leg.scoped.owns)
          (motive := fun b => tp ∈ b.resolved → leg.Acks tp) held ?_
        intro b held e inside now
        have entry : e ∈ resp.entries := List.mem_flatMap.mpr ⟨t, topic, inside⟩
        unfold resolve at now
        split at now
        · rename_i owned
          rcases AList.mem_insert _ |>.mp now with rfl | old
          · rw [LegResult.scoped, scope_owns present entry] at owned
            have own := of_decide_eq_true owned
            exact ⟨err, own, resp, e.2, present, entry, zero e entry own⟩
          · exact held old
        · exact held now
      intro now
      refine folded ?_
      unfold resolveTopic at now
      simp only at now
      split at now <;> exact now

theorem syntheticCode_ne_zero (a : ProduceResultAccumulator) : a.syntheticCode ≠ 0 := by
  unfold syntheticCode
  split
  · split
    · assumption
    · decide
  · decide

/-- The entry of the merged response for a requested partition. -/
def outcome (a : ProduceResultAccumulator) (tp : TopicPartition) :
    Kmsg.ProduceResponseTopicPartition :=
  (a.resolved.lookup tp).getD (a.pendingEntry tp)

theorem Ok.pendingEntry_ok (ok : a.Ok requested legs) (tp : TopicPartition) :
    (a.pendingEntry tp).partition = tp.partition ∧ (a.pendingEntry tp).errorCode ≠ 0 := by
  unfold pendingEntry
  cases found : a.failed.lookup tp with
  | none => exact ⟨rfl, a.syntheticCode_ne_zero⟩
  | some e =>
      obtain ⟨partition, nonzero, -⟩ := ok.failedOk tp e found
      exact ⟨partition, nonzero⟩

theorem Ok.mem_outcomes (ok : a.Ok requested legs) {orders : MapOrders} (ordered : a.Orders orders)
    (tp : TopicPartition) (e : Kmsg.ProduceResponseTopicPartition) :
    (tp, e) ∈ a.outcomes orders ↔ tp ∈ requested ∧ e = a.outcome tp := by
  unfold outcomes outcome
  rw [List.mem_append, ordered.1.mem_iff, List.mem_map, List.mem_map, ok.covers]
  constructor
  · rintro (⟨⟨k, v⟩, mem, eq⟩ | ⟨k, mem, eq⟩)
    · obtain ⟨rfl, rfl⟩ := Prod.mk.inj eq
      have found : a.resolved.lookup k = some v := AList.mem_lookup_iff.mpr mem
      exact ⟨Or.inr (AList.lookup_isSome.mp (by simp [found])), by simp [found]⟩
    · obtain ⟨rfl, rfl⟩ := Prod.mk.inj eq
      have pending : k ∈ a.pending := AList.mem_keys.mpr (ordered.2.mem_iff.mp mem)
      have unresolved := AList.lookup_eq_none.mpr (ok.apart k pending)
      exact ⟨Or.inl pending, by simp [unresolved]⟩
  · rintro ⟨pending | resolved, rfl⟩
    · have unresolved := AList.lookup_eq_none.mpr (ok.apart tp pending)
      exact Or.inr ⟨tp, ordered.2.mem_iff.mpr (AList.mem_keys.mp pending), by simp [unresolved]⟩
    · obtain ⟨v, found⟩ := Option.isSome_iff_exists.mp (AList.lookup_isSome.mpr resolved)
      exact Or.inl ⟨⟨tp, v⟩, AList.mem_lookup_iff.mp found, by simp [found]⟩

theorem Ok.outcome_partition (ok : a.Ok requested legs) (tp : TopicPartition) :
    (a.outcome tp).partition = tp.partition := by
  unfold outcome
  cases found : a.resolved.lookup tp with
  | none => exact (ok.pendingEntry_ok tp).1
  | some e => exact (ok.resolvedOk tp e found).1

/-- A requested partition has a zero code exactly when a leg acknowledged it. -/
theorem Ok.outcome_code (ok : a.Ok requested legs) (tp : TopicPartition) :
    (a.outcome tp).errorCode = 0 ↔ tp ∈ a.resolved := by
  unfold outcome
  cases found : a.resolved.lookup tp with
  | none =>
      have absent : tp ∉ a.resolved := AList.lookup_eq_none.mp found
      simpa [absent] using (ok.pendingEntry_ok tp).2
  | some e =>
      have present : tp ∈ a.resolved := AList.lookup_isSome.mp (by simp [found])
      simpa [present] using (ok.resolvedOk tp e found).2.1

/-- The response lists the outcomes, topic by topic. -/
theorem Ok.entries_responseLocked (ok : a.Ok requested legs) {orders : MapOrders}
    (ordered : a.Orders orders) :
    (a.responseLocked orders).entries =
      (FirstSeen.groupBy (fun e => e.1.topic) (a.outcomes orders)).flatMap Prod.snd := by
  have groups := FirstSeen.groups_groupBy (fun e => e.1.topic) (a.outcomes orders)
  unfold responseLocked Kmsg.ProduceResponse.entries
  rw [List.flatMap_map]
  apply List.flatMap_congr
  rintro ⟨topic, members⟩ group
  simp only [Kmsg.ProduceResponseTopic.entries, List.map_map]
  rw [List.map_congr_left (g := id), List.map_id]
  rintro ⟨tp, entry⟩ member
  rw [groups.members topic members group, List.mem_filter] at member
  have topicEq : tp.topic = topic := of_decide_eq_true member.2
  obtain ⟨-, rfl⟩ := (ok.mem_outcomes ordered tp entry).mp member.1
  simp only [Function.comp_apply, ok.outcome_partition, ← topicEq, id_eq]

theorem Ok.entries_perm (ok : a.Ok requested legs) {orders : MapOrders} (ordered : a.Orders orders) :
    (a.responseLocked orders).entries.Perm (a.outcomes orders) := by
  rw [ok.entries_responseLocked ordered]
  apply FirstSeen.flatMap_groupBy_perm

theorem Ok.mem_response (ok : a.Ok requested legs) {orders : MapOrders} (ordered : a.Orders orders)
    (e : TopicPartition × Kmsg.ProduceResponseTopicPartition) :
    e ∈ (a.responseLocked orders).entries ↔ e.1 ∈ requested ∧ e.2 = a.outcome e.1 := by
  rw [(ok.entries_perm ordered).mem_iff]
  exact ok.mem_outcomes ordered e.1 e.2

/-- The response has one outcome for each requested partition and nothing else. -/
theorem Ok.find_response (ok : a.Ok requested legs) {orders : MapOrders}
    (ordered : a.Orders orders) {tp : TopicPartition} (wanted : tp ∈ requested) :
    (a.responseLocked orders).entries.find? (fun e => e.1 = tp) = some (tp, a.outcome tp) := by
  have present : (tp, a.outcome tp) ∈ (a.responseLocked orders).entries :=
    (ok.mem_response ordered _).mpr ⟨wanted, rfl⟩
  cases found : (a.responseLocked orders).entries.find? (fun e => e.1 = tp) with
  | none =>
      have none := List.find?_eq_none.mp found _ present
      simp at none
  | some e =>
      have key : e.1 = tp := by simpa using List.find?_some found
      have value := ((ok.mem_response ordered e).mp (List.mem_of_find?_eq_some found)).2
      rw [← key, ← value]

theorem result_resp (a : ProduceResultAccumulator) (orders : MapOrders) :
    (a.result orders).resp = some (a.responseLocked orders) := by
  unfold result
  simp only
  split
  · rfl
  · split <;> rfl

/-- The records of a requested partition succeed exactly when it is resolved,
whatever error the result also carries. -/
theorem Ok.recordErr_eq_none (ok : a.Ok requested legs) {orders : MapOrders}
    (ordered : a.Orders orders) {res : ProduceResult}
    (present : res.resp = some (a.responseLocked orders)) {tp : TopicPartition}
    (wanted : tp ∈ requested) : recordErrFromResult res tp = none ↔ tp ∈ a.resolved := by
  rw [recordErrFromResult_eq_none present (ok.find_response ordered wanted), ok.outcome_code]

end ProduceResultAccumulator

end Warpstream
