import Warpstream.Accumulator

set_option autoImplicit false

/- What the accumulator sees of a leg: the error of its flush and the entries for the
partitions it sent. -/
namespace Warpstream

/-- The entries of the response for the partitions in `own`, in their order. -/
def ProduceResult.ownEntries (res : ProduceResult) (own : List TopicPartition) :
    List (TopicPartition × Kmsg.ProduceResponseTopicPartition) :=
  ((res.resp.map Kmsg.ProduceResponse.entries).getD []).filter fun e => e.1 ∈ own

/-- The scoped error is the flush's own one or the first failed entry of the leg. -/
theorem scope_err (res : ProduceResult) (own : List TopicPartition) :
    (scopeProduceResultToPartitions res own).err = res.err.or
      (if res.resp.isSome then
        ((res.ownEntries own).find? fun e => e.2.errorCode ≠ 0).bind
          fun e => Kerr.errorForCode e.2.errorCode
      else some GoError.errEmptyProduceResult) := by
  unfold scopeProduceResultToPartitions ProduceResult.ownEntries
  cases res.resp with
  | none => cases res.err <;> rfl
  | some resp =>
      simp only [Option.isSome_some, ↓reduceIte, Option.map_some, Option.getD_some,
        List.find?_filter, Bool.decide_and, Bool.decide_eq_true]

namespace ProduceResultAccumulator

/-- The same work is done and left; only the wire metadata of the responses may differ. -/
structure SameWork (a b : ProduceResultAccumulator) : Prop where
  pending : a.pending = b.pending
  resolved : a.resolved = b.resolved
  failed : a.failed = b.failed
  lastErr : a.lastErr = b.lastErr
  aborted : a.aborted = b.aborted

/-- The accumulator after a leg of which it sees the error and its own entries. -/
def absorb (a : ProduceResultAccumulator) (err : Option GoError)
    (entries : List (TopicPartition × Kmsg.ProduceResponseTopicPartition)) :
    ProduceResultAccumulator :=
  match err with
  | some resErr =>
      let lastErr := getProduceResultErr resErr
      entries.foldl (recordFailure fun _ => true)
        { a with lastErr := some lastErr, aborted := a.aborted || !lastErr.retriable }
  | none => entries.foldl (resolve fun _ => true) a

variable {a b : ProduceResultAccumulator}

theorem SameWork.symm (same : SameWork a b) : SameWork b a :=
  ⟨same.pending.symm, same.resolved.symm, same.failed.symm, same.lastErr.symm, same.aborted.symm⟩

theorem SameWork.trans {c : ProduceResultAccumulator} (left : SameWork a b)
    (right : SameWork b c) : SameWork a c :=
  ⟨left.pending.trans right.pending, left.resolved.trans right.resolved,
    left.failed.trans right.failed, left.lastErr.trans right.lastErr,
    left.aborted.trans right.aborted⟩

theorem SameWork.resolve (same : SameWork a b) (owns : TopicPartition → Bool)
    (e : TopicPartition × Kmsg.ProduceResponseTopicPartition) :
    SameWork (a.resolve owns e) (b.resolve owns e) := by
  unfold ProduceResultAccumulator.resolve
  split
  · constructor
    · exact congrArg (AList.erase e.1) same.pending
    · exact congrArg (AList.insert e.1 e.2) same.resolved
    · exact congrArg (AList.erase e.1) same.failed
    · exact same.lastErr
    · exact same.aborted
  · exact same

theorem SameWork.foldl_resolve (same : SameWork a b) (owns : TopicPartition → Bool)
    (entries : List (TopicPartition × Kmsg.ProduceResponseTopicPartition)) :
    SameWork (entries.foldl (ProduceResultAccumulator.resolve owns) a)
      (entries.foldl (ProduceResultAccumulator.resolve owns) b) := by
  induction entries generalizing a b with
  | nil => exact same
  | cons e rest ih => exact ih (same.resolve owns e)

/-- Going through the topics resolves what going through the entries does. -/
theorem SameWork.resolveTopics (same : SameWork a b) (owns : TopicPartition → Bool)
    (topics : List Kmsg.ProduceResponseTopic) :
    SameWork (topics.foldl (resolveTopic owns) a)
      ((topics.flatMap Kmsg.ProduceResponseTopic.entries).foldl
        (ProduceResultAccumulator.resolve owns) b) := by
  induction topics generalizing a b with
  | nil => exact same
  | cons t rest ih =>
      rw [List.foldl_cons, List.flatMap_cons, List.foldl_append]
      apply ih
      have entries := same.foldl_resolve owns t.entries
      unfold resolveTopic
      simp only
      split
      · exact ⟨entries.pending, entries.resolved, entries.failed, entries.lastErr, entries.aborted⟩
      · exact entries

theorem resolve_owns (owns : TopicPartition → Bool)
    (e : TopicPartition × Kmsg.ProduceResponseTopicPartition) :
    a.resolve owns e = if owns e.1 then a.resolve (fun _ => true) e else a := by
  unfold resolve
  split <;> rfl

theorem recordFailure_owns (owns : TopicPartition → Bool)
    (e : TopicPartition × Kmsg.ProduceResponseTopicPartition) :
    a.recordFailure owns e = if owns e.1 then a.recordFailure (fun _ => true) e else a := by
  unfold recordFailure
  cases owns e.1 <;> simp

/-- A fold that skips what the leg does not own is the fold over its own entries. -/
theorem foldl_own {step : (TopicPartition → Bool) → ProduceResultAccumulator →
      TopicPartition × Kmsg.ProduceResponseTopicPartition → ProduceResultAccumulator}
    (skips : ∀ (a : ProduceResultAccumulator) owns e,
      step owns a e = if owns e.1 then step (fun _ => true) a e else a)
    {res : ProduceResult} {resp : Kmsg.ProduceResponse} (present : res.resp = some resp)
    (own : List TopicPartition) :
    resp.entries.foldl (step (scopeProduceResultToPartitions res own).owns) a =
      (res.ownEntries own).foldl (step fun _ => true) a := by
  have entries : res.ownEntries own = resp.entries.filter fun e => e.1 ∈ own := by
    rw [ProduceResult.ownEntries, present, Option.map_some, Option.getD_some]
  rw [entries, List.foldl_filter]
  apply List.foldl_ext
  intro a e mem
  rw [skips, scope_owns present mem]

/-- Of a leg's result the accumulator sees only the error and the leg's own entries. -/
theorem accumulate_absorb (a : ProduceResultAccumulator) (res : ProduceResult)
    (own : List TopicPartition) :
    SameWork (a.accumulate (scopeProduceResultToPartitions res own))
      (a.absorb (scopeProduceResultToPartitions res own).err (res.ownEntries own)) := by
  unfold accumulate absorb
  rw [scope_raw]
  cases err : (scopeProduceResultToPartitions res own).err with
  | some resErr =>
      cases present : res.resp with
      | none =>
          rw [ProduceResult.ownEntries, present]
          exact ⟨rfl, rfl, rfl, rfl, rfl⟩
      | some resp =>
          simp only [Option.map_some, Option.getD_some]
          rw [foldl_own (fun a owns e => recordFailure_owns owns e) present]
          exact ⟨rfl, rfl, rfl, rfl, rfl⟩
  | none =>
      obtain ⟨-, resp, present, -⟩ := scope_err_eq_none.mp err
      simp only [present]
      rw [← foldl_own (fun a owns e => resolve_owns owns e) present]
      apply SameWork.resolveTopics
      exact ⟨rfl, rfl, rfl, rfl, rfl⟩

/-- Entries of a shared flush for partitions of other legs leave no trace. -/
theorem accumulate_ignores_foreign_entries (a : ProduceResultAccumulator)
    (own : List TopicPartition) (res res' : ProduceResult) (err : res.err = res'.err)
    (nilness : res.resp.isSome = res'.resp.isSome)
    (entries : res.ownEntries own = res'.ownEntries own) :
    SameWork (a.accumulate (scopeProduceResultToPartitions res own))
      (a.accumulate (scopeProduceResultToPartitions res' own)) := by
  have visible : (scopeProduceResultToPartitions res own).err =
      (scopeProduceResultToPartitions res' own).err := by
    rw [scope_err, scope_err, err, nilness, entries]
  have left := accumulate_absorb a res own
  have right := accumulate_absorb a res' own
  rw [visible, entries] at left
  exact left.trans right.symm

/-- The second flush also carries another call's partition, which failed. -/
theorem accumulate_ignores_foreign_entries_shared :
    let alone : ProduceResult := { resp := some { topics := [{ topic := "t", partitions := [⟨0, 0⟩] }] } }
    let shared : ProduceResult :=
      { resp := some { topics := [{ topic := "t", partitions := [⟨3, 10⟩, ⟨0, 0⟩] }] } }
    SameWork (accumulate {} (scopeProduceResultToPartitions alone [⟨"t", 0⟩]))
        (accumulate {} (scopeProduceResultToPartitions shared [⟨"t", 0⟩])) ∧
      (scopeProduceResultToPartitions alone [⟨"t", 0⟩]).allOwned = true ∧
      (scopeProduceResultToPartitions shared [⟨"t", 0⟩]).allOwned = false :=
  ⟨accumulate_ignores_foreign_entries {} _ _ _ rfl rfl (by decide), by decide, by decide⟩

end ProduceResultAccumulator

namespace Kmsg

/-- The same topic with its entries in another order. -/
structure ProduceResponseTopic.Reorders (t t' : ProduceResponseTopic) : Prop where
  topic : t'.topic = t.topic
  topicID : t'.topicID = t.topicID
  partitions : t'.partitions.Perm t.partitions

/-- The same response with its topics and their entries in another order. -/
structure ProduceResponse.Reorders (resp resp' : ProduceResponse) : Prop where
  version : resp'.version = resp.version
  throttleMillis : resp'.throttleMillis = resp.throttleMillis
  topics : ∃ topics, List.Forall₂ ProduceResponseTopic.Reorders resp.topics topics ∧
    resp'.topics.Perm topics

theorem ProduceResponseTopic.Reorders.refl (t : ProduceResponseTopic) : t.Reorders t :=
  ⟨rfl, rfl, .refl _⟩

theorem ProduceResponse.Reorders.entries {resp resp' : ProduceResponse}
    (reorders : resp.Reorders resp') : resp'.entries.Perm resp.entries := by
  obtain ⟨topics, each, permuted⟩ := reorders.topics
  apply (permuted.flatMap_right ProduceResponseTopic.entries).trans
  unfold ProduceResponse.entries
  generalize resp.topics = before at each
  clear permuted
  induction each with
  | nil => exact .refl _
  | cons same _ ih =>
      rw [List.flatMap_cons, List.flatMap_cons]
      apply List.Perm.append _ ih
      unfold ProduceResponseTopic.entries
      rw [same.topic]
      exact same.partitions.map _

/-- Any entry can be brought to the front. -/
theorem ProduceResponse.exists_reorders_first {resp : ProduceResponse}
    {e : TopicPartition × ProduceResponseTopicPartition} (mem : e ∈ resp.entries) :
    ∃ resp' rest, resp.Reorders resp' ∧ resp'.entries = e :: rest := by
  obtain ⟨t, inside, listed⟩ := List.mem_flatMap.mp mem
  obtain ⟨p, part, rfl⟩ := List.mem_map.mp listed
  obtain ⟨before, after, topics⟩ := List.append_of_mem inside
  obtain ⟨left, right, partitions⟩ := List.append_of_mem part
  have moved : t.Reorders { t with partitions := p :: (left ++ right) } := by
    refine ⟨rfl, rfl, ?_⟩
    rw [partitions]
    exact List.perm_middle.symm
  refine ⟨{ resp with topics := { t with partitions := p :: (left ++ right) } :: (before ++ after) },
    _, ⟨rfl, rfl, before ++ { t with partitions := p :: (left ++ right) } :: after, ?_, ?_⟩, rfl⟩
  · rw [topics]
    have same (ts : List ProduceResponseTopic) :
        List.Forall₂ ProduceResponseTopic.Reorders ts ts :=
      List.forall₂_same.mpr fun t _ => .refl t
    exact List.rel_append (same before) (.cons moved (same after))
  · exact List.perm_middle.symm

end Kmsg

/-- A code that stands for an error with the given retriable flag. -/
def ClassifiedAs (code : Int) (retriable : Bool) : Prop :=
  ∃ err, Kerr.errorForCode code = some err ∧ (getProduceResultErr err).retriable = retriable

theorem exists_classifiedAs {code : Int} (nonzero : code ≠ 0) : ∃ flag, ClassifiedAs code flag := by
  obtain ⟨ke, -, kept⟩ := Kerr.exists_errorForCode nonzero
  exact ⟨_, _, kept, rfl⟩

theorem ClassifiedAs.nonzero {code : Int} {flag : Bool} (classified : ClassifiedAs code flag) :
    code ≠ 0 := by
  rintro rfl
  obtain ⟨err, kept, -⟩ := classified
  cases kept

namespace ProduceResultAccumulator

variable {a : ProduceResultAccumulator} {own : List TopicPartition} {res : ProduceResult}

theorem aborted_foldl {step : ProduceResultAccumulator →
      TopicPartition × Kmsg.ProduceResponseTopicPartition → ProduceResultAccumulator}
    (keeps : ∀ a e, (step a e).aborted = a.aborted)
    (entries : List (TopicPartition × Kmsg.ProduceResponseTopicPartition)) :
    (entries.foldl step a).aborted = a.aborted := by
  induction entries generalizing a with
  | nil => rfl
  | cons e rest ih => rw [List.foldl_cons, ih, keeps]

/-- Only the classification of the scoped error decides. -/
theorem aborted_accumulate (a : ProduceResultAccumulator) (res : ProduceResult)
    (own : List TopicPartition) :
    (a.accumulate (scopeProduceResultToPartitions res own)).aborted =
      (a.aborted || ((scopeProduceResultToPartitions res own).err.map
        fun err => !(getProduceResultErr err).retriable).getD false) := by
  rw [(accumulate_absorb a res own).aborted]
  unfold absorb
  cases (scopeProduceResultToPartitions res own).err with
  | some err =>
      simp only [Option.map_some, Option.getD_some]
      apply aborted_foldl
      intro a e
      unfold recordFailure
      split <;> rfl
  | none =>
      simp only [Option.map_none, Option.getD_none, Bool.or_false]
      apply aborted_foldl
      intro a e
      unfold resolve
      split <;> rfl

theorem aborted_of_err {err : GoError} (failed : res.err = some err) :
    (a.accumulate (scopeProduceResultToPartitions res own)).aborted =
      (a.aborted || !(getProduceResultErr err).retriable) := by
  rw [aborted_accumulate, scope_err, failed]
  rfl

/-- Without a transport error the first failed entry of the leg decides. -/
theorem aborted_of_first {resp : Kmsg.ProduceResponse} (noErr : res.err = none)
    (present : res.resp = some resp) {e : TopicPartition × Kmsg.ProduceResponseTopicPartition}
    (first : (res.ownEntries own).find? (fun e => e.2.errorCode ≠ 0) = some e) {flag : Bool}
    (classified : ClassifiedAs e.2.errorCode flag) :
    (a.accumulate (scopeProduceResultToPartitions res own)).aborted = (a.aborted || !flag) := by
  obtain ⟨err, kept, rfl⟩ := classified
  rw [aborted_accumulate, scope_err, noErr, present, first]
  simp only [Option.isSome_some, ↓reduceIte, Option.bind_some, kept, Option.none_or,
    Option.map_some, Option.getD_some]

/-- The abort rule of the documentation: the order of the response plays no part, and the
cascade stops exactly for a final transport error or a final code of an own partition. -/
structure AbortsAsDocumented (a : ProduceResultAccumulator) (own : List TopicPartition)
    (res : ProduceResult) : Prop where
  orderFree : ∀ resp resp', res.resp = some resp → resp.Reorders resp' →
    (a.accumulate (scopeProduceResultToPartitions { res with resp := some resp' } own)).aborted =
      (a.accumulate (scopeProduceResultToPartitions res own)).aborted
  stops : (a.accumulate (scopeProduceResultToPartitions res own)).aborted = true ↔
    a.aborted = true ∨
      (∃ err, res.err = some err ∧ (getProduceResultErr err).retriable = false) ∨
      res.err = none ∧ ∃ e ∈ res.ownEntries own, ClassifiedAs e.2.errorCode false

theorem AbortsAsDocumented.of_aborted (already : a.aborted = true) :
    AbortsAsDocumented a own res where
  orderFree _ _ _ _ := by rw [aborted_accumulate, aborted_accumulate, already]; rfl
  stops := by simp [aborted_accumulate, already]

theorem AbortsAsDocumented.of_err {err : GoError} (failed : res.err = some err) :
    AbortsAsDocumented a own res where
  orderFree _ resp' _ _ := by
    have reordered : ({ res with resp := some resp' } : ProduceResult).err = some err := failed
    rw [aborted_of_err reordered, aborted_of_err failed]
  stops := by simp [aborted_of_err failed, failed]

/-- All failed entries of the leg are retriable, or none is. -/
def OneClass (res : ProduceResult) (own : List TopicPartition) : Prop :=
  ∀ e ∈ res.ownEntries own, ∀ e' ∈ res.ownEntries own,
    ClassifiedAs e.2.errorCode true → ¬ ClassifiedAs e'.2.errorCode false

theorem mem_ownEntries {resp : Kmsg.ProduceResponse} (present : res.resp = some resp)
    {e : TopicPartition × Kmsg.ProduceResponseTopicPartition} :
    e ∈ res.ownEntries own ↔ e ∈ resp.entries ∧ e.1 ∈ own := by
  rw [ProduceResult.ownEntries, present]
  simp

/-- In a response of one class every failed entry decides the same. -/
theorem OneClass.aborted {resp : Kmsg.ProduceResponse} (one : OneClass res own)
    (noErr : res.err = none) (present : res.resp = some resp)
    {e : TopicPartition × Kmsg.ProduceResponseTopicPartition} (mem : e ∈ res.ownEntries own)
    {flag : Bool} (classified : ClassifiedAs e.2.errorCode flag) :
    (a.accumulate (scopeProduceResultToPartitions res own)).aborted = (a.aborted || !flag) := by
  cases first : (res.ownEntries own).find? (fun e => e.2.errorCode ≠ 0) with
  | none =>
      have zero := List.find?_eq_none.mp first e mem
      simp [classified.nonzero] at zero
  | some e' =>
      have inside := List.mem_of_find?_eq_some first
      have nonzero : e'.2.errorCode ≠ 0 := by simpa using List.find?_some first
      obtain ⟨flag', classified'⟩ := exists_classifiedAs nonzero
      rw [aborted_of_first noErr present first classified']
      cases flag with
      | true =>
          cases flag' with
          | true => rfl
          | false => exact absurd classified' (one e mem e' inside classified)
      | false =>
          cases flag' with
          | true => exact absurd classified (one e' inside e mem classified')
          | false => rfl

theorem OneClass.abortsAsDocumented {resp : Kmsg.ProduceResponse} (one : OneClass res own)
    (noErr : res.err = none) (present : res.resp = some resp)
    (failed : (scopeProduceResultToPartitions res own).err ≠ none) :
    AbortsAsDocumented a own res := by
  have some : ∃ e ∈ res.ownEntries own, e.2.errorCode ≠ 0 := by
    by_contra zero
    apply failed
    apply scope_err_eq_none.mpr
    refine ⟨noErr, resp, present, ?_⟩
    intro e mem inside
    by_contra nonzero
    exact zero ⟨e, (mem_ownEntries present).mpr ⟨mem, inside⟩, nonzero⟩
  obtain ⟨e, mem, nonzero⟩ := some
  obtain ⟨flag, classified⟩ := exists_classifiedAs nonzero
  have decided := one.aborted (a := a) noErr present mem classified
  constructor
  · intro resp₁ resp' present₁ reorders
    obtain rfl := Option.some.inj (present.symm.trans present₁)
    have entries (e : TopicPartition × Kmsg.ProduceResponseTopicPartition) :
        e ∈ ProduceResult.ownEntries { res with resp := some resp' } own ↔
          e ∈ res.ownEntries own := by
      have reordered : ({ res with resp := some resp' } : ProduceResult).resp = some resp' := rfl
      rw [mem_ownEntries reordered, mem_ownEntries present, reorders.entries.mem_iff]
    have one' : OneClass { res with resp := some resp' } own :=
      fun e₁ mem₁ e₂ mem₂ => one e₁ ((entries e₁).mp mem₁) e₂ ((entries e₂).mp mem₂)
    rw [one'.aborted noErr rfl ((entries e).mpr mem) classified, decided]
  · rw [decided]
    simp only [noErr, reduceCtorEq, false_and, exists_false, true_and, false_or, Bool.or_eq_true,
      Bool.not_eq_eq_eq_not, Bool.not_true]
    apply or_congr_right
    constructor
    · rintro rfl
      exact ⟨e, mem, classified⟩
    · rintro ⟨e', mem', final⟩
      cases flag with
      | true => exact absurd final (one e mem e' mem' classified)
      | false => rfl

/-- Bringing an own failed entry to the front lets it decide. -/
theorem exists_reorders_aborted {resp : Kmsg.ProduceResponse} (noErr : res.err = none)
    (present : res.resp = some resp) {e : TopicPartition × Kmsg.ProduceResponseTopicPartition}
    (mem : e ∈ res.ownEntries own) {flag : Bool} (classified : ClassifiedAs e.2.errorCode flag) :
    ∃ resp', resp.Reorders resp' ∧
      (a.accumulate (scopeProduceResultToPartitions { res with resp := some resp' } own)).aborted =
        (a.aborted || !flag) := by
  obtain ⟨listed, inside⟩ := (mem_ownEntries present).mp mem
  obtain ⟨resp', rest, reorders, front⟩ := Kmsg.ProduceResponse.exists_reorders_first listed
  refine ⟨resp', reorders, ?_⟩
  have reordered : ({ res with resp := some resp' } : ProduceResult).err = none := noErr
  apply aborted_of_first reordered rfl _ classified
  rw [ProduceResult.ownEntries, Option.map_some, Option.getD_some, front]
  simp [inside, classified.nonzero]

/-- The abort rule holds exactly for legs without a transport error whose own failures are
all of one class, and wherever nothing is left to decide. -/
theorem abortsAsDocumented_iff_oneClass (a : ProduceResultAccumulator) (own : List TopicPartition)
    (res : ProduceResult) (failed : (scopeProduceResultToPartitions res own).err ≠ none) :
    AbortsAsDocumented a own res ↔
      a.aborted = true ∨ res.err ≠ none ∨ res.resp ≠ none ∧ OneClass res own := by
  constructor
  · intro documented
    by_contra open'
    obtain ⟨running, noErr, mixed⟩ : a.aborted = false ∧ res.err = none ∧
        (res.resp ≠ none → ¬ OneClass res own) := by
      simpa [not_or] using open'
    cases present : res.resp with
    | none =>
        -- an empty result is final, yet has neither an error nor an entry
        have empty : (scopeProduceResultToPartitions res own).err =
            some GoError.errEmptyProduceResult := by
          rw [scope_err, noErr, present]
          rfl
        have stops := documented.stops
        rw [aborted_accumulate, empty, running] at stops
        rcases stops.mp rfl with already | ⟨err, some, -⟩ | ⟨-, e, mem, -⟩
        · cases already
        · cases noErr.symm.trans some
        · rw [ProduceResult.ownEntries, present] at mem
          cases mem
    | some resp =>
        have both := mixed (by simp [present])
        simp only [OneClass, not_forall, not_not] at both
        obtain ⟨e, mem, e', mem', retriable, final⟩ := both
        obtain ⟨resp₁, reorders₁, first⟩ :=
          exists_reorders_aborted (a := a) noErr present mem retriable
        obtain ⟨resp₂, reorders₂, second⟩ :=
          exists_reorders_aborted (a := a) noErr present mem' final
        have same₁ := documented.orderFree resp resp₁ present reorders₁
        have same₂ := documented.orderFree resp resp₂ present reorders₂
        rw [first, running] at same₁
        rw [second, running, ← same₁] at same₂
        cases same₂
  · rintro (already | transport | ⟨answered, one⟩)
    · exact .of_aborted already
    · obtain ⟨err, some⟩ := Option.ne_none_iff_exists'.mp transport
      exact .of_err some
    · by_cases noErr : res.err = none
      · obtain ⟨resp, present⟩ := Option.ne_none_iff_exists'.mp answered
        exact one.abortsAsDocumented noErr present failed
      · obtain ⟨err, some⟩ := Option.ne_none_iff_exists'.mp noErr
        exact .of_err some

/-- A leg that sent two partitions, answered with the given codes in this order. -/
def twoCodes (first second : Kmsg.ProduceResponseTopicPartition) : ProduceResult :=
  { resp := some { topics := [{ topic := "t", partitions := [first, second] }] } }

theorem abortsAsDocumented_iff_oneClass_final :
    AbortsAsDocumented {} [⟨"t", 0⟩, ⟨"t", 1⟩] (twoCodes ⟨0, 10⟩ ⟨1, 10⟩) ∧
      (accumulate {} (scopeProduceResultToPartitions (twoCodes ⟨0, 10⟩ ⟨1, 10⟩)
        [⟨"t", 0⟩, ⟨"t", 1⟩])).aborted = true := by
  refine ⟨(abortsAsDocumented_iff_oneClass {} _ _ (by decide)).mpr (Or.inr (Or.inr ⟨by decide, ?_⟩)),
    by decide⟩
  have code : ∀ e ∈ (twoCodes ⟨0, 10⟩ ⟨1, 10⟩).ownEntries [⟨"t", 0⟩, ⟨"t", 1⟩],
      e.2.errorCode = 10 := by decide
  intro e mem e' mem' retriable
  rw [code e mem] at retriable
  obtain ⟨err, kept, flag⟩ := retriable
  obtain rfl := Option.some.inj kept
  cases flag

/-- A request timeout before a message that is too large does not stop the cascade, the same
two codes the other way round do. -/
theorem mixed_codes_abort_by_order :
    Kmsg.ProduceResponse.Reorders
        { topics := [{ topic := "t", partitions := [⟨0, 7⟩, ⟨1, 10⟩] }] }
        { topics := [{ topic := "t", partitions := [⟨1, 10⟩, ⟨0, 7⟩] }] } ∧
      ClassifiedAs 10 false ∧
      (accumulate {} (scopeProduceResultToPartitions (twoCodes ⟨0, 7⟩ ⟨1, 10⟩)
        [⟨"t", 0⟩, ⟨"t", 1⟩])).aborted = false ∧
      (accumulate {} (scopeProduceResultToPartitions (twoCodes ⟨1, 10⟩ ⟨0, 7⟩)
        [⟨"t", 0⟩, ⟨"t", 1⟩])).aborted = true := by
  refine ⟨⟨rfl, rfl, [{ topic := "t", partitions := [⟨1, 10⟩, ⟨0, 7⟩] }], ?_, .refl _⟩,
    ⟨_, rfl, rfl⟩, by decide, by decide⟩
  exact .cons ⟨rfl, rfl, List.Perm.swap _ _ _⟩ .nil

end ProduceResultAccumulator

end Warpstream
