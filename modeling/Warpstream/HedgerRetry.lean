import Warpstream.HedgerProgress

set_option autoImplicit false

/- What a caller sees when the retries of a call are exhausted. The response keeps only a
Kafka code of each error, so the code has to say whether the error was retriable. -/
namespace Warpstream

/-- Everything a leg reported about its partitions is classified retriable. -/
structure LegResult.Retriable (leg : LegResult) : Prop where
  err : ∀ err, leg.scoped.err = some err → (getProduceResultErr err).retriable = true
  codes : ∀ tp e, leg.Reports tp e → e.errorCode ≠ 0 → ∃ err,
    Kerr.errorForCode e.errorCode = some err ∧ (getProduceResultErr err).retriable = true

/-- No error of a leg takes the transport branch. -/
def LegResult.KeepsCode (leg : LegResult) : Prop :=
  ∀ err, leg.scoped.err = some err → isTransportErr err = false

/-- A code that stands for a retriable error. -/
def RetriableCode (code : Int) : Prop :=
  ∃ e : Kerr.Error, Kerr.typedErrorForCode code = some e ∧ e.retriable = true

theorem retriableCode_of_errorForCode {code : Int} {err : GoError}
    (kept : Kerr.errorForCode code = some err) (retriable : (getProduceResultErr err).retriable = true) :
    RetriableCode code := by
  obtain ⟨e, typed, rfl⟩ := Option.map_eq_some_iff.mp kept
  exact ⟨e, typed, (getProduceResultErr_ofKerr e).1.symm.trans retriable⟩

theorem retriableCode_getProduceResultErr {err : GoError}
    (retriable : (getProduceResultErr err).retriable = true) (kept : isTransportErr err = false) :
    RetriableCode (getProduceResultErr err).code := by
  obtain ⟨e, code, agrees⟩ := getProduceResultErr_code err (not_canceled_of_retriable retriable)
  rw [code]
  exact ⟨e, Kerr.typedErrorForCode_code e, (agrees.mpr kept).trans retriable⟩

namespace ProduceResultAccumulator

variable {requested : List TopicPartition} {legs : List LegResult} {a : ProduceResultAccumulator}

theorem Ok.retriable_syntheticCode (ok : a.Ok requested legs)
    (retriable : ∀ leg ∈ legs, leg.Retriable) (keeps : ∀ leg ∈ legs, leg.KeepsCode) :
    RetriableCode a.syntheticCode := by
  have timeout : RetriableCode Kerr.requestTimedOut.code := ⟨Kerr.requestTimedOut, rfl, rfl⟩
  unfold syntheticCode
  split
  · rename_i lastErr found
    obtain ⟨same, leg, mem, reported⟩ := ok.lastErrOk lastErr found
    split
    · rw [same]
      exact retriableCode_getProduceResultErr ((retriable leg mem).err _ reported)
        (keeps leg mem _ reported)
    · exact timeout
  · exact timeout

/-- The code a pending partition ends with is retriable. -/
theorem Ok.retriable_outcome (ok : a.Ok requested legs)
    (retriable : ∀ leg ∈ legs, leg.Retriable) (keeps : ∀ leg ∈ legs, leg.KeepsCode)
    {tp : TopicPartition} (unresolved : tp ∉ a.resolved) :
    RetriableCode (a.outcome tp).errorCode := by
  have none : a.resolved.lookup tp = none := AList.lookup_eq_none.mpr unresolved
  simp only [outcome, none, Option.getD_none, pendingEntry]
  cases failed : a.failed.lookup tp with
  | none => exact ok.retriable_syntheticCode retriable keeps
  | some e =>
      obtain ⟨-, nonzero, leg, mem, reports⟩ := ok.failedOk tp e failed
      obtain ⟨err, kept, flag⟩ := (retriable leg mem).codes tp e reports nonzero
      exact retriableCode_of_errorForCode kept flag

end ProduceResultAccumulator

theorem errorsIs_join_left (left right : GoError) {target : Sentinel}
    (found : left.errorsIs target = true) : (left.join right).errorsIs target = true := by
  obtain ⟨node, mem, is⟩ := List.any_eq_true.mp found
  refine List.any_eq_true.mpr ⟨node, ?_, is⟩
  exact List.mem_cons_of_mem _ (List.mem_append_left _ mem)

/-- A retriable code is surfaced as a timeout of the record. -/
theorem recordErrFromResult_timeout {res : ProduceResult} {resp : Kmsg.ProduceResponse}
    (present : res.resp = some resp) {tp : TopicPartition} {e : Kmsg.ProduceResponseTopicPartition}
    (found : resp.entries.find? (fun e => e.1 = tp) = some (tp, e))
    (retriable : RetriableCode e.errorCode) :
    ∃ err, recordErrFromResult res tp = some err ∧ err.errorsIs .errRecordTimeout = true := by
  obtain ⟨ke, typed, flag⟩ := retriable
  refine ⟨GoError.errRecordTimeout.join (GoError.ofKerr ke), ?_, errorsIs_join_left _ _ rfl⟩
  simp [recordErrFromResult, present, partitionErrorFromResp, found, typed, flag]

theorem exists_find_entry {resp : Kmsg.ProduceResponse} {tp : TopicPartition}
    (present : tp ∈ resp.entries.map Prod.fst) :
    ∃ e, resp.entries.find? (fun e => e.1 = tp) = some (tp, e) := by
  obtain ⟨⟨key, e⟩, mem, rfl⟩ := List.mem_map.mp present
  have some : (resp.entries.find? fun e => e.1 = key).isSome :=
    List.find?_isSome.mpr ⟨(key, e), mem, by simp⟩
  obtain ⟨⟨key', e'⟩, found⟩ := Option.isSome_iff_exists.mp some
  obtain rfl : key' = key := by simpa using List.find?_some found
  exact ⟨e', found⟩

namespace HedgerCall

/-- Every leg result that the call read has the property. -/
def EveryLeg (c : HedgerCall) (P : LegResult → Prop) : Prop :=
  ∀ cascade, c.cascade = some cascade → ∀ leg ∈ cascade.received, P leg

theorem Inv.timeout_or_none {c : HedgerCall} (inv : c.Inv) {res : ProduceResult}
    (returned : c.phase = .returned res) (retriable : c.EveryLeg LegResult.Retriable)
    (keeps : c.EveryLeg LegResult.KeepsCode) {tp : TopicPartition} (wanted : tp ∈ c.cfg.requested) :
    recordErrFromResult res tp = none ∨
      ∃ err, recordErrFromResult res tp = some err ∧ err.errorsIs .errRecordTimeout = true := by
  have known := inv.phase
  simp only [PhaseOk, returned] at known
  rcases known with ⟨empty, -⟩ | ⟨⟨⟨raw, -, rfl⟩, success⟩ |
    ⟨cascade, orders, ran, -, ordered, present⟩, -⟩
  · simp [HedgeConfig.requested, cfg, unrouteEncodedTopicPartitionRecords, empty] at wanted
  · obtain ⟨eq, resp, present, zero, covered⟩ := withCoverageCheck_succeeded success
    rw [eq]
    obtain ⟨p, mem, rfl⟩ := List.mem_map.mp wanted
    obtain ⟨e, found⟩ := exists_find_entry (covered p mem)
    refine Or.inl ((recordErrFromResult_eq_none present found).mpr ?_)
    exact zero _ (List.mem_of_find?_eq_some found)
  · have ok := (inv.core.cascade cascade ran).acc
    by_cases resolved : tp ∈ cascade.acc.resolved
    · exact Or.inl ((ok.recordErr_eq_none ordered present wanted).mpr resolved)
    · have code := ok.retriable_outcome (retriable cascade ran) (keeps cascade ran) resolved
      exact Or.inr (recordErrFromResult_timeout present (ok.find_response ordered wanted) code)

end HedgerCall

/-- Outside the transport branch a code says whether the error was retriable, and in every
call whose legs report retriable errors of other branches a partition that ends unresolved
is reported as timed out. -/
theorem retriable_survives_code_iff_not_transport (err : GoError) (maxHedgeAgents : Nat)
    (primaryID : Int) (candidates : TopicPartition → List Agent)
    (routed : List RoutedEncodedTopicPartitionRecords) :
    (err.errorsIs .contextCanceled = false →
      ∃ kept, Kerr.errorForCode (getProduceResultErr err).code = some kept ∧
        ((getProduceResultErr kept).retriable = (getProduceResultErr err).retriable ↔
          isTransportErr err = false)) ∧
    ((routed.map fun p => p.topicPartition).Nodup → (∀ p ∈ routed, p.nodeID = primaryID) →
      ∀ actions c res,
        Machine.run HedgerCall.step { maxHedgeAgents, primaryID, candidates, routed } actions =
            some c →
          c.phase = .returned res → c.EveryLeg LegResult.Retriable →
            c.EveryLeg LegResult.KeepsCode →
              ∀ p ∈ routed, recordErrFromResult res p.topicPartition = none ∨
                ∃ err, recordErrFromResult res p.topicPartition = some err ∧
                  err.errorsIs .errRecordTimeout = true) := by
  constructor
  · intro notCanceled
    obtain ⟨e, code, agrees⟩ := getProduceResultErr_code err notCanceled
    refine ⟨GoError.ofKerr e, ?_, ?_⟩
    · rw [code, Kerr.errorForCode_code]
    · rw [(getProduceResultErr_ofKerr e).1]
      exact agrees
  · intro distinct node actions c res runs returned retriable keeps p mem
    obtain ⟨inv, same⟩ := HedgerCall.inv_run distinct node runs
    refine inv.timeout_or_none returned retriable keeps ?_
    rw [HedgeConfig.requested, HedgerCall.cfg, same, unrouteEncodedTopicPartitionRecords,
      List.map_map]
    exact List.mem_map_of_mem mem

/-- A broker that closed the connection. -/
def connectionClosed : GoError := GoError.wireError { node := { text := "EOF", is := [.ioEOF] } }

/-- The primary fails with `err`, so does the only other agent, and the budget is used up. -/
def bothAgentsFail (err : GoError) : List CallAction :=
  let p := onlyPartition.toEncodedTopicPartitionRecords
  [.start {}, .primaryReturns { err := some err }, .takePrimary false,
    .cascade (.wave [p] [⟨2, [p]⟩]), .cascade (.legResult 0 { err := some err }),
    .cascade (.wave [p] []), .cascadeReturns ⟨[], [⟨"t", 0⟩]⟩ false, .takeFallback false]

def twoAgentCall : HedgerCall :=
  { maxHedgeAgents := 2
    primaryID := 1
    candidates := fun _ => [⟨2, .healthy⟩]
    routed := [onlyPartition] }

theorem everyLeg_of_received {c : HedgerCall} {leg : LegResult} {P : LegResult → Prop}
    (ran : c.cascade.map Cascade.received = some [leg]) (holds : P leg) : c.EveryLeg P := by
  intro cascade found other mem
  simp only [found, Option.map_some, Option.some.injEq] at ran
  rw [ran, List.mem_singleton] at mem
  exact mem ▸ holds

/-- A leg that failed as a whole. -/
theorem retriable_of_err {own : List TopicPartition} {err : GoError}
    (retriable : (getProduceResultErr err).retriable = true) :
    LegResult.Retriable ⟨own, { err := some err }⟩ where
  err found reported := by
    obtain rfl : err = found := Option.some.inj reported
    exact retriable
  codes tp e reports := by
    obtain ⟨resp, present, -⟩ := reports
    cases present

theorem retriable_survives_code_iff_not_transport_deadline :
    (∃ kept, Kerr.errorForCode (getProduceResultErr GoError.contextDeadlineExceeded).code = some kept ∧
      ((getProduceResultErr kept).retriable =
          (getProduceResultErr GoError.contextDeadlineExceeded).retriable ↔
        isTransportErr GoError.contextDeadlineExceeded = false)) ∧
    ∃ c res, Machine.run HedgerCall.step twoAgentCall
        (bothAgentsFail GoError.contextDeadlineExceeded) = some c ∧
      c.phase = .returned res ∧ (recordErrFromResult res ⟨"t", 0⟩ = none ∨
        ∃ err, recordErrFromResult res ⟨"t", 0⟩ = some err ∧
          err.errorsIs .errRecordTimeout = true) := by
  obtain ⟨code, call⟩ := retriable_survives_code_iff_not_transport GoError.contextDeadlineExceeded
    2 1 (fun _ => [⟨2, .healthy⟩]) [onlyPartition]
  refine ⟨code rfl, _, _, rfl, rfl, ?_⟩
  refine call (by simp) (by simp [onlyPartition]) (bothAgentsFail GoError.contextDeadlineExceeded)
    _ _ rfl rfl (everyLeg_of_received rfl (retriable_of_err rfl)) (everyLeg_of_received rfl ?_)
    onlyPartition (by simp)
  intro found reported
  obtain rfl : GoError.contextDeadlineExceeded = found := Option.some.inj reported
  rfl

theorem connectionClosed_loses_retriable :
    connectionClosed.errorsIs .contextCanceled = false ∧
      (getProduceResultErr connectionClosed).retriable = true ∧
      (∃ kept, Kerr.errorForCode (getProduceResultErr connectionClosed).code = some kept ∧
        (getProduceResultErr kept).retriable = false) ∧
      ∃ c res err, Machine.run HedgerCall.step twoAgentCall (bothAgentsFail connectionClosed) =
          some c ∧
        c.primaryRaw = some { err := some connectionClosed } ∧ c.EveryLeg LegResult.Retriable ∧
        c.phase = .returned res ∧ recordErrFromResult res ⟨"t", 0⟩ = some err ∧
        err.errorsIs .errRecordTimeout = false := by
  refine ⟨rfl, rfl, ⟨_, rfl, rfl⟩, ?_⟩
  refine ⟨_, _, _, rfl, rfl, ?_, rfl, rfl, rfl⟩
  exact everyLeg_of_received rfl (retriable_of_err rfl)

end Warpstream
