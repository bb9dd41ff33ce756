import Mathlib.Data.List.AList
import Warpstream.EncodedTopicPartition
import Warpstream.GoErrors

set_option autoImplicit false

/- Produce responses and results: what a request came back with, seen as a whole, for
one leg's partitions, and for one record's partition. -/
namespace Warpstream

/-- A Go map. Code that ranges over one is given the order as an argument. -/
abbrev GoMap (κ ν : Type) := AList fun _ : κ => ν

/-- `[16]byte`. -/
abbrev TopicID := BitVec 128

namespace Kmsg

structure ProduceResponseTopicPartition where
  partition : Int
  errorCode : Int
deriving DecidableEq

structure ProduceResponseTopic where
  topic : String
  topicID : TopicID := 0
  partitions : List ProduceResponseTopicPartition := []
deriving DecidableEq

structure ProduceResponse where
  version : Int := 0
  throttleMillis : Int := 0
  topics : List ProduceResponseTopic := []
deriving DecidableEq

/-- The entries of a topic with the topic-partition each is about. -/
def ProduceResponseTopic.entries (t : ProduceResponseTopic) :
    List (TopicPartition × ProduceResponseTopicPartition) :=
  t.partitions.map fun p => (⟨t.topic, p.partition⟩, p)

/-- All entries of a response in the order in which the nested loops visit them. -/
def ProduceResponse.entries (r : ProduceResponse) :
    List (TopicPartition × ProduceResponseTopicPartition) :=
  r.topics.flatMap ProduceResponseTopic.entries

end Kmsg

structure ProduceResult where
  resp : Option Kmsg.ProduceResponse := none
  err : Option GoError := none
deriving DecidableEq

/-- The first non-zero code, as an error. -/
def parseProduceResponse (resp : Kmsg.ProduceResponse) : Option GoError :=
  (resp.entries.find? fun e => e.2.errorCode ≠ 0).bind fun e => Kerr.errorForCode e.2.errorCode

def partitionErrorFromResp (resp : Kmsg.ProduceResponse) (tp : TopicPartition) :
    Option Kerr.Error :=
  (resp.entries.find? fun e => e.1 = tp).bind fun e => Kerr.typedErrorForCode e.2.errorCode

def recordErrFromResult (res : ProduceResult) (tp : TopicPartition) : Option GoError :=
  match res.resp with
  | none => res.err
  | some resp =>
      (partitionErrorFromResp resp tp).map fun ke =>
        if ke.retriable then GoError.join GoError.errRecordTimeout (GoError.ofKerr ke)
        else GoError.ofKerr ke

namespace ProduceResult

def error (r : ProduceResult) : Option GoError :=
  match r.err, r.resp with
  | some err, _ => some err
  | none, none => some GoError.errEmptyProduceResult
  | none, some resp => parseProduceResponse resp

def succeeded (r : ProduceResult) : Bool := r.error.isNone

end ProduceResult

/-- A flush's result as seen by one leg that sent the partitions `own`. -/
structure ScopedProduceResult where
  raw : ProduceResult
  own : List TopicPartition
  err : Option GoError
  allOwned : Bool
deriving DecidableEq

def scopeProduceResultToPartitions (res : ProduceResult) (own : List TopicPartition) :
    ScopedProduceResult :=
  match res.resp with
  | none => ⟨res, own, some (res.err.getD GoError.errEmptyProduceResult), false⟩
  | some resp =>
      let firstOwnErr := (resp.entries.find? fun e => e.1 ∈ own ∧ e.2.errorCode ≠ 0).bind
        fun e => Kerr.errorForCode e.2.errorCode
      ⟨res, own, res.err.or firstOwnErr, resp.entries.all fun e => e.1 ∈ own⟩

def ScopedProduceResult.owns (r : ScopedProduceResult) (tp : TopicPartition) : Bool :=
  r.allOwned || tp ∈ r.own

/-- `selectProduceResult`. -/
def selectProduceResult (primary fallback : ProduceResult) : ProduceResult :=
  if primary.succeeded then primary
  else
    match fallback.err with
    | none => fallback
    | some fallbackErr =>
        match primary.err with
        | some primaryErr => { resp := fallback.resp, err := some (primaryErr.join fallbackErr) }
        | none => if fallback.resp.isSome then fallback else primary

def firstMissingProducePartition (resp : Option Kmsg.ProduceResponse)
    (requested : List EncodedTopicPartitionRecords) : Option TopicPartition :=
  let seen := (resp.map fun r => r.entries.map Prod.fst).getD []
  (requested.map EncodedTopicPartitionRecords.topicPartition).find? fun tp => tp ∉ seen

def withCoverageCheck (res : ProduceResult) (requested : List EncodedTopicPartitionRecords) :
    ProduceResult :=
  if res.err.isSome then res
  else if (firstMissingProducePartition res.resp requested).isSome then
    { res with err := some GoError.errIncompleteProduceResponse }
  else res

theorem parseProduceResponse_eq_none {resp : Kmsg.ProduceResponse} :
    parseProduceResponse resp = none ↔ ∀ e ∈ resp.entries, e.2.errorCode = 0 := by
  unfold parseProduceResponse
  cases found : resp.entries.find? fun e => e.2.errorCode ≠ 0 with
  | none => simpa [List.find?_eq_none] using found
  | some e =>
      have nonzero : e.2.errorCode ≠ 0 := by simpa using List.find?_some found
      obtain ⟨ke, -, eq⟩ := Kerr.exists_errorForCode nonzero
      simp only [Option.bind_some, eq, reduceCtorEq, false_iff, not_forall]
      exact ⟨e, List.mem_of_find?_eq_some found, nonzero⟩

theorem ProduceResult.succeeded_iff {r : ProduceResult} :
    r.succeeded = true ↔
      r.err = none ∧ ∃ resp, r.resp = some resp ∧ ∀ e ∈ resp.entries, e.2.errorCode = 0 := by
  unfold succeeded error
  cases r.err with
  | some err => simp
  | none =>
      cases r.resp with
      | none => simp
      | some resp => simp [parseProduceResponse_eq_none]

/-- The selection succeeds exactly when one of the two results does. -/
theorem selectProduceResult_succeeded (primary fallback : ProduceResult) :
    (selectProduceResult primary fallback).succeeded = (primary.succeeded || fallback.succeeded) := by
  have failed (r : ProduceResult) (e : GoError) (err : r.err = some e) : r.succeeded = false := by
    simp [ProduceResult.succeeded, ProduceResult.error, err]
  unfold selectProduceResult
  by_cases won : primary.succeeded = true
  · simp [won]
  · have lost : primary.succeeded = false := by simpa using won
    simp only [won, Bool.false_eq_true, ↓reduceIte, Bool.false_or]
    cases err : fallback.err with
    | none => rfl
    | some e =>
        rw [failed fallback e err]
        simp only
        cases primaryErr : primary.err with
        | some pe => rfl
        | none =>
            simp only
            split
            · exact failed fallback e err
            · exact lost

theorem withCoverageCheck_succeeded {res : ProduceResult}
    {requested : List EncodedTopicPartitionRecords}
    (ok : (withCoverageCheck res requested).succeeded = true) :
    withCoverageCheck res requested = res ∧ ∃ resp, res.resp = some resp ∧
      (∀ e ∈ resp.entries, e.2.errorCode = 0) ∧
      ∀ p ∈ requested, p.topicPartition ∈ resp.entries.map Prod.fst := by
  have clean := (ProduceResult.succeeded_iff.mp ok).1
  have same : withCoverageCheck res requested = res := by
    unfold withCoverageCheck at clean ⊢
    split at clean
    · rename_i failed
      rw [clean] at failed
      cases failed
    · split at clean
      · cases clean
      · rename_i noErr covered
        simp [noErr, covered]
  refine ⟨same, ?_⟩
  rw [same] at ok
  obtain ⟨noErr, resp, present, zero⟩ := ProduceResult.succeeded_iff.mp ok
  refine ⟨resp, present, zero, ?_⟩
  have covered : firstMissingProducePartition res.resp requested = none := by
    by_contra missing
    have some := Option.ne_none_iff_isSome.mp missing
    rw [withCoverageCheck, noErr] at same
    simp only [Option.isSome_none, Bool.false_eq_true, ↓reduceIte, some] at same
    rw [← same] at noErr
    cases noErr
  unfold firstMissingProducePartition at covered
  rw [present] at covered
  intro p mem
  have seen := List.find?_eq_none.mp covered p.topicPartition (List.mem_map_of_mem mem)
  simpa using seen

/-- With a response, a partition's records fail exactly when its first entry has a
non-zero code. -/
theorem recordErrFromResult_eq_none {res : ProduceResult} {resp : Kmsg.ProduceResponse}
    (present : res.resp = some resp) {tp : TopicPartition} {e : Kmsg.ProduceResponseTopicPartition}
    (found : resp.entries.find? (fun e => e.1 = tp) = some (tp, e)) :
    recordErrFromResult res tp = none ↔ e.errorCode = 0 := by
  unfold recordErrFromResult partitionErrorFromResp
  rw [present]
  simp only [found, Option.bind_some, Option.map_eq_none_iff]
  constructor
  · intro none
    by_contra nonzero
    obtain ⟨ke, eq, -⟩ := Kerr.exists_errorForCode nonzero
    rw [eq] at none
    cases none
  · intro zero
    simp [Kerr.typedErrorForCode, zero]

theorem scope_err_eq_none {res : ProduceResult} {own : List TopicPartition} :
    (scopeProduceResultToPartitions res own).err = none ↔
      res.err = none ∧ ∃ resp, res.resp = some resp ∧
        ∀ e ∈ resp.entries, e.1 ∈ own → e.2.errorCode = 0 := by
  unfold scopeProduceResultToPartitions
  cases res.resp with
  | none => simp
  | some resp =>
      simp only [Option.or_eq_none_iff, Option.some.injEq, exists_eq_left']
      refine and_congr_right fun _ => ?_
      cases found : resp.entries.find? fun e => e.1 ∈ own ∧ e.2.errorCode ≠ 0 with
      | none =>
          have all := List.find?_eq_none.mp found
          simp only [decide_eq_true_eq, not_and, Decidable.not_not] at all
          simpa using all
      | some e =>
          have hit := List.find?_some found
          simp only [decide_eq_true_eq] at hit
          obtain ⟨ke, -, eq⟩ := Kerr.exists_errorForCode hit.2
          simp only [Option.bind_some, eq, reduceCtorEq, false_iff]
          intro all
          exact hit.2 (all e (List.mem_of_find?_eq_some found) hit.1)

@[simp] theorem scope_raw (res : ProduceResult) (own : List TopicPartition) :
    (scopeProduceResultToPartitions res own).raw = res := by
  unfold scopeProduceResultToPartitions
  split <;> rfl

/-- A scoped result owns an entry of its response exactly when the leg sent it. -/
theorem scope_owns {res : ProduceResult} {own : List TopicPartition} {resp : Kmsg.ProduceResponse}
    (present : res.resp = some resp) {e : TopicPartition × Kmsg.ProduceResponseTopicPartition}
    (mem : e ∈ resp.entries) :
    (scopeProduceResultToPartitions res own).owns e.1 = decide (e.1 ∈ own) := by
  unfold scopeProduceResultToPartitions ScopedProduceResult.owns
  rw [present]
  simp only
  by_cases inside : e.1 ∈ own
  · simp [inside]
  · have notAll : (resp.entries.all fun e => decide (e.1 ∈ own)) = false := by
      rw [List.all_eq_false]
      exact ⟨e, mem, by simpa using inside⟩
    simp [notAll, inside]

end Warpstream
