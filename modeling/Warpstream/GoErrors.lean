import Mathlib.Data.List.Basic

set_option autoImplicit false

/- Error values and their classification: the Kafka error table of `kerr`, the broker
errors `kgo` retries, and `getProduceResultErr`. -/
namespace Warpstream

namespace Kerr

/-- The codes of `code2err` other than 0. -/
def Known (code : Int) : Prop := code = -1 ∨ (1 ≤ code ∧ code ≤ 133)

instance (code : Int) : Decidable (Known code) := inferInstanceAs (Decidable (_ ∨ _))

/-- `*kerr.Error`: only the values of the package's table exist. -/
structure Error where
  code : Int
  known : Known code
deriving DecidableEq

/-- The codes whose table entry is marked retriable. -/
def retriableCodes : List Int :=
  [2, 3, 5, 6, 7, 8, 9, 13, 14, 15, 16, 19, 20, 41, 56, 70, 71, 72, 74, 75, 78, 80, 83, 84, 88, 89,
    100, 103, 106, 133]

def Error.retriable (e : Error) : Bool := e.code ∈ retriableCodes

def unknownServerError : Error := ⟨-1, by decide⟩
def requestTimedOut : Error := ⟨7, by decide⟩
def brokerNotAvailable : Error := ⟨8, by decide⟩
def messageTooLarge : Error := ⟨10, by decide⟩
def networkException : Error := ⟨13, by decide⟩

/-- `kerr.TypedErrorForCode`: `none` is nil. -/
def typedErrorForCode (code : Int) : Option Error :=
  if code = 0 then none
  else if known : Known code then some ⟨code, known⟩
  else some unknownServerError

end Kerr

/-- The error variables that `errors.Is` is asked about. -/
inductive Sentinel where
  | contextCanceled
  | contextDeadlineExceeded
  | errClientClosed
  | errRecordTimeout
  | netErrClosed
  | ioEOF
  | ioErrUnexpectedEOF
  | errChosenBrokerDead
  | errCorrelationIDMismatch
  | errEmptyProduceResult
  | errIncompleteProduceResponse
  | errBufferClosed
deriving DecidableEq

/-- The error types that `errors.As` is asked about. `tls` stands for the eight types
that `isTLSErr` looks for. -/
inductive ErrType where
  | kerr (e : Kerr.Error)
  | wireError
  | netOpError (op : String) (timeout : Bool)
  | osSyscallError
  | errFirstReadEOF (retry : Bool)
  | errProducerIDLoadFail
  | errUnknownController
  | errUnknownCoordinator
  | tls
  | other
deriving DecidableEq

/-- One error of a chain: its type, its text, the variables it `Is`, and its
`Temporary()` if it has that method. -/
structure ErrNode where
  type : ErrType := .other
  text : String := ""
  is : List Sentinel := []
  temporary : Option Bool := none
deriving DecidableEq

/-- An error with the errors it wraps, in the order in which `errors.Is` and
`errors.As` visit them. `errors.Unwrap` reaches the first `unwraps` of `wrapped`
one by one and then stops: at a leaf, or at an error that wraps several. -/
structure GoError where
  node : ErrNode
  wrapped : List ErrNode := []
  unwraps : Nat := 0
deriving DecidableEq

namespace GoError

def nodes (e : GoError) : List ErrNode := e.node :: e.wrapped

def errorsIs (e : GoError) (target : Sentinel) : Bool := e.nodes.any fun n => target ∈ n.is

/-- `errors.As` for the types that `f` recognises: the first match. -/
def errorsAs {α : Type} (e : GoError) (f : ErrType → Option α) : Option α :=
  e.nodes.findSome? fun n => f n.type

/-- The texts of the chain of `errors.Unwrap`. -/
def unwrapTexts (e : GoError) : List String := (e.nodes.take (e.unwraps + 1)).map ErrNode.text

/-- An error that wraps one other. -/
def wrap (node : ErrNode) (inner : GoError) : GoError :=
  { node := node, wrapped := inner.nodes, unwraps := inner.unwraps + 1 }

/-- `fmt.Errorf("%w: %w", left, right)`. -/
def join (left right : GoError) : GoError :=
  { node := { text := left.node.text ++ ": " ++ right.node.text }
    wrapped := left.nodes ++ right.nodes }

def ofKerr (e : Kerr.Error) : GoError := { node := { type := .kerr e } }

def contextCanceled : GoError := { node := { text := "context canceled", is := [.contextCanceled] } }

def contextDeadlineExceeded : GoError :=
  { node :=
      { text := "context deadline exceeded"
        is := [.contextDeadlineExceeded]
        temporary := some true } }

def errRecordTimeout : GoError :=
  { node :=
      { text := "records have timed out before they were able to be produced"
        is := [.errRecordTimeout] } }

def errBufferClosed : GoError :=
  { node := { text := "record buffer is closed", is := [.errBufferClosed] } }

def errEmptyProduceResult : GoError :=
  { node :=
      { text := "empty ProduceResult: both resp and err are nil", is := [.errEmptyProduceResult] } }

def errIncompleteProduceResponse : GoError :=
  { node :=
      { text := "produce response omits requested partitions"
        is := [.errIncompleteProduceResponse] } }

/-- `&wireError{err: inner}`. -/
def wireError (inner : GoError) : GoError :=
  wrap { type := .wireError, text := inner.node.text } inner

end GoError

/-- `errors.Is` on an error that may be nil. -/
def errIs (err : Option GoError) (target : Sentinel) : Bool :=
  (err.map fun e => e.errorsIs target).getD false

namespace Kerr

def asError : ErrType → Option Error
  | .kerr e => some e
  | _ => none

def errorForCode (code : Int) : Option GoError := (typedErrorForCode code).map GoError.ofKerr

def isRetriable (err : GoError) : Bool := ((err.errorsAs asError).map Error.retriable).getD false

end Kerr

def asNetOpError : ErrType → Option (String × Bool)
  | .netOpError op timeout => some (op, timeout)
  | _ => none

def asErrFirstReadEOF : ErrType → Option Bool
  | .errFirstReadEOF retry => some retry
  | _ => none

/-- `errors.As` for a type without fields that matter. -/
def asType (type : ErrType) (found : ErrType) : Option Unit := if found = type then some () else none

/-- `isNonTimeoutDialErr`, and `isDialNonTimeoutErr` of franz-go. -/
def isNonTimeoutDialErr (err : GoError) : Bool :=
  match err.errorsAs asNetOpError with
  | some (op, timeout) => op = "dial" && !timeout
  | none => false

def isTLSErr (err : GoError) : Bool := (err.errorsAs (asType .tls)).isSome

def isUnknownBrokerErr (err : GoError) : Bool := err.unwrapTexts.contains "unknown broker"

namespace Kgo

def isRetryableBrokerErr (err : GoError) : Bool :=
  if (err.errorsAs (asType .osSyscallError)).isSome then !isNonTimeoutDialErr err
  else if err.errorsIs .netErrClosed || err.errorsIs .ioEOF || err.errorsIs .ioErrUnexpectedEOF then
    -- an EOF on the very first read is not retried
    err.errorsAs asErrFirstReadEOF != some false
  else if (err.errorsAs (asType .errProducerIDLoadFail)).isSome then true
  else if err.errorsIs .errChosenBrokerDead then true
  else if err.errorsIs .errCorrelationIDMismatch then true
  else if (err.errorsAs (asType .errUnknownController)).isSome then true
  else if (err.errorsAs (asType .errUnknownCoordinator)).isSome then true
  else (err.nodes.findSome? ErrNode.temporary).getD false

end Kgo

structure ProduceResultErr where
  err : GoError
  reason : String
  retriable : Bool
  code : Int
deriving DecidableEq

def getProduceResultErr (err : GoError) : ProduceResultErr :=
  if err.errorsIs .contextCanceled then ⟨err, "canceled", false, Kerr.requestTimedOut.code⟩
  else if err.errorsIs .contextDeadlineExceeded then
    ⟨err, "timeout", true, Kerr.requestTimedOut.code⟩
  else if Kerr.isRetriable err then
    let code := ((err.errorsAs Kerr.asError).map Kerr.Error.code).getD Kerr.unknownServerError.code
    ⟨err, "kafka_retriable_error", true, code⟩
  else if Kgo.isRetryableBrokerErr err then
    ⟨err, "transport", true, Kerr.unknownServerError.code⟩
  else
    match err.errorsAs Kerr.asError with
    | some kerrErr => ⟨err, "kafka_non_retriable_error", false, kerrErr.code⟩
    | none =>
        if (err.errorsAs (asType .wireError)).isSome then
          if err.errorsIs .errClientClosed then
            ⟨err, "client_closed", false, Kerr.unknownServerError.code⟩
          else if isTLSErr err then ⟨err, "tls", false, Kerr.unknownServerError.code⟩
          else if isUnknownBrokerErr err then
            ⟨err, "unknown_broker", true, Kerr.brokerNotAvailable.code⟩
          else if isNonTimeoutDialErr err then ⟨err, "dial", true, Kerr.networkException.code⟩
          else ⟨err, "wire_other", true, Kerr.networkException.code⟩
        else ⟨err, "unknown", false, Kerr.unknownServerError.code⟩

namespace Kerr

theorem typedErrorForCode_code (e : Error) : typedErrorForCode e.code = some e := by
  have nonzero : e.code ≠ 0 := by
    have known := e.known
    unfold Known at known
    omega
  unfold typedErrorForCode
  simp only [nonzero, ↓reduceIte, e.known, ↓reduceDIte]

theorem errorForCode_code (e : Error) : errorForCode e.code = some (GoError.ofKerr e) := by
  rw [errorForCode, typedErrorForCode_code, Option.map_some]

theorem exists_errorForCode {code : Int} (nonzero : code ≠ 0) :
    ∃ e, typedErrorForCode code = some e ∧ errorForCode code = some (GoError.ofKerr e) := by
  by_cases known : Known code
  · exact ⟨⟨code, known⟩, by simp [typedErrorForCode, nonzero, known],
      by simp [errorForCode, typedErrorForCode, nonzero, known]⟩
  · exact ⟨unknownServerError, by simp [typedErrorForCode, nonzero, known],
      by simp [errorForCode, typedErrorForCode, nonzero, known]⟩

theorem isRetriable_ofKerr (e : Error) : isRetriable (GoError.ofKerr e) = e.retriable := rfl

end Kerr

@[simp] theorem getProduceResultErr_err (err : GoError) : (getProduceResultErr err).err = err := by
  unfold getProduceResultErr
  repeat' split
  all_goals rfl

/-- A bare Kafka error is classified by its table entry. -/
theorem getProduceResultErr_ofKerr (e : Kerr.Error) :
    (getProduceResultErr (GoError.ofKerr e)).retriable = e.retriable ∧
      (getProduceResultErr (GoError.ofKerr e)).code = e.code := by
  have canceled : (GoError.ofKerr e).errorsIs .contextCanceled = false := rfl
  have timeout : (GoError.ofKerr e).errorsIs .contextDeadlineExceeded = false := rfl
  have broker : Kgo.isRetryableBrokerErr (GoError.ofKerr e) = false := rfl
  have found : (GoError.ofKerr e).errorsAs Kerr.asError = some e := rfl
  cases retriable : e.retriable with
  | true =>
      simp [getProduceResultErr, canceled, timeout, Kerr.isRetriable_ofKerr, retriable, found]
  | false =>
      simp [getProduceResultErr, canceled, timeout, Kerr.isRetriable_ofKerr, retriable, broker, found]

/-- The errors of the transport branch: retried by `kgo`, but neither a context error nor
a retriable Kafka error. -/
def isTransportErr (err : GoError) : Bool :=
  !err.errorsIs .contextCanceled && !err.errorsIs .contextDeadlineExceeded &&
    !Kerr.isRetriable err && Kgo.isRetryableBrokerErr err

/-- The code of a classification is that of a table entry, and outside the transport
branch the entry is retriable exactly when the error is. A cancellation is the one
other exception: it is final but keeps a retriable code. -/
theorem getProduceResultErr_code (err : GoError) (notCanceled : err.errorsIs .contextCanceled = false) :
    ∃ e : Kerr.Error, (getProduceResultErr err).code = e.code ∧
      (e.retriable = (getProduceResultErr err).retriable ↔ isTransportErr err = false) := by
  unfold getProduceResultErr isTransportErr
  simp only [notCanceled, Bool.false_eq_true, ↓reduceIte]
  split
  · rename_i deadline
    exact ⟨Kerr.requestTimedOut, rfl, by simp [deadline]; rfl⟩
  · rename_i noDeadline
    split
    · rename_i retriable
      cases found : err.errorsAs Kerr.asError with
      | none => simp [Kerr.isRetriable, found] at retriable
      | some e =>
          have flag : e.retriable = true := by simpa [Kerr.isRetriable, found] using retriable
          exact ⟨e, rfl, by simp [flag, retriable]⟩
    · rename_i final
      split
      · rename_i broker
        refine ⟨Kerr.unknownServerError, rfl, ?_⟩
        simp only [noDeadline, final, broker]
        decide
      · rename_i noBroker
        simp only [noBroker, Bool.and_false, iff_true]
        split
        · rename_i e found
          exact ⟨e, rfl, by simpa [Kerr.isRetriable, found] using final⟩
        · split
          · split
            · exact ⟨Kerr.unknownServerError, rfl, rfl⟩
            · split
              · exact ⟨Kerr.unknownServerError, rfl, rfl⟩
              · split
                · exact ⟨Kerr.brokerNotAvailable, rfl, rfl⟩
                · split
                  · exact ⟨Kerr.networkException, rfl, rfl⟩
                  · exact ⟨Kerr.networkException, rfl, rfl⟩
          · exact ⟨Kerr.unknownServerError, rfl, rfl⟩

/-- An error that is classified retriable is no cancellation. -/
theorem not_canceled_of_retriable {err : GoError}
    (retriable : (getProduceResultErr err).retriable = true) :
    err.errorsIs .contextCanceled = false := by
  unfold getProduceResultErr at retriable
  split at retriable
  · cases retriable
  · rename_i live
    simpa using live

end Warpstream
