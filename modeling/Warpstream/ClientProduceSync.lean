import Warpstream.Lib.Machine
import Warpstream.RouteRecords

set_option autoImplicit false

/- `WarpstreamClient.ProduceSync`: the checks and the routing before dispatch, the completions
of the partition groups in any order, and the deferred functions on the way out. -/
namespace Warpstream

/-- `kgo.ProduceResult`. -/
structure RecordResult where
  record : Option RecordPtr := none
  err : Option GoError := none

/-- A call: its records and what it finds. The buffered hooks may write to a record: `heap`
holds the records as these hooks leave them, except that the contexts are seeded first. -/
structure ProduceSyncCall where
  records : List RecordPtr
  heap : RecordHeap
  ctx : Context
  now : Time
  batchMaxBytes : Int
  hasProduceHooks : Bool
  candidatesWithRoute : TopicPartition → List Agent × RouteOutcome

/-- A completion callback that runs: the records it has not written yet. -/
structure Completion where
  tp : TopicPartition
  records : List RecordPtr
  err : Option GoError

/-- `counter` holds the values of the wait group so far, `outstanding` the groups whose
completion the buffer still owes, and `delivered` the results it has completed groups with. -/
structure ProduceSync where
  heap : RecordHeap
  results : List RecordResult := []
  counter : List Int := []
  outstanding : List RoutedGroup := []
  writing : List Completion := []
  delivered : List (TopicPartition × ProduceResult) := []
  firedBuffered : List RecordPtr := []
  firedUnbuffered : List (RecordPtr × Option GoError) := []
  returned : Bool := false

inductive ProduceSyncAction where
  /-- the buffer completes a group -/
  | done (i : Nat) (res : ProduceResult)
  /-- a completion writes its next record -/
  | write (j : Nat)
  /-- `wg.Wait` returns -/
  | wake

def errRecordTooLarge (r : Kgo.Record) : GoError :=
  let inner := GoError.ofKerr Kerr.messageTooLarge
  GoError.wrap
    { text := inner.node.text ++ " (uncompressed_bytes=" ++
        toString (singleRecordBatchEstimateBytes r) ++ ")" } inner

namespace ProduceSyncCall

variable (call : ProduceSyncCall)

/-- The contexts are seeded in input order. -/
def seeded : RecordHeap :=
  call.records.foldl (fun heap r => Function.update heap r (ensureRecordContext (heap r) call.ctx))
    call.heap

def tooLarge (r : RecordPtr) : Bool :=
  call.batchMaxBytes < singleRecordBatchEstimateBytes (call.seeded r)

/-- `okRecords` with `okIndices`. -/
def okRecords : List (RecordPtr × Nat) := call.records.zipIdx.filter fun ri => ¬ call.tooLarge ri.1

/-- The last input index of each pointer. -/
def indexOf : GoMap RecordPtr Nat := Inserts.insertAll ∅ call.okRecords

/-- A missing key reads as zero. -/
def slot (r : RecordPtr) : Nat := (call.indexOf.lookup r).getD 0

/-- The timestamps of the records of the groups. -/
def stamped (heap : RecordHeap) (groups : List RoutedGroup) : RecordHeap :=
  (groups.flatMap (·.records)).foldl
    (fun heap r => Function.update heap r (ensureRecordTimestamp (heap r) call.now)) heap

end ProduceSyncCall

namespace ProduceSync

variable (call : ProduceSyncCall)

/-- `wg.Done`. -/
def wgDone (counter : List Int) : List Int := counter ++ [counter.getLast?.getD 0 - 1]

def writeOne (err : Option GoError) (s : ProduceSync) (r : RecordPtr) : ProduceSync :=
  { s with
    results := s.results.set (call.slot r) ⟨some r, err⟩
    counter := wgDone s.counter }

def write (s : ProduceSync) (recs : List RecordPtr) (err : Option GoError) : ProduceSync :=
  recs.foldl (writeOne call err) s

/-- An accepted position takes the outcome in its record's slot. -/
def copyOne (results : List RecordResult) (ri : RecordPtr × Nat) : List RecordResult :=
  if ri.2 ≠ call.slot ri.1 then results.set ri.2 ((results[call.slot ri.1]?).getD {})
  else results

/-- The deferred copy to the other positions of a repeated pointer. -/
def copyRepeated (results : List RecordResult) : List RecordResult :=
  if call.indexOf.keys.length < call.okRecords.length then
    call.okRecords.foldl (copyOne call) results
  else results

/-- The deferred hooks. -/
def fireUnbuffered (s : ProduceSync) : ProduceSync :=
  if call.hasProduceHooks then
    { s with
      firedUnbuffered := call.records.zipIdx.map fun ri =>
        (ri.1, ((s.results[ri.2]?).bind (·.err))) }
  else s

/-- A return after the copy was deferred: it runs before the hooks. -/
def leave (s : ProduceSync) : ProduceSync :=
  { fireUnbuffered call { s with results := copyRepeated call s.results } with returned := true }

/-- The call after the size check. -/
def sized : ProduceSync :=
  { heap := call.seeded
    firedBuffered := if call.hasProduceHooks then call.records else []
    results := call.records.map fun r =>
      if call.tooLarge r then ⟨some r, some (errRecordTooLarge (call.seeded r))⟩ else {} }

/-- The call up to `wg.Wait`, or to one of the early returns. -/
def start : ProduceSync :=
  if call.records = [] then { heap := call.heap, returned := true }
  else if call.okRecords = [] then { fireUnbuffered call (sized call) with returned := true }
  else
    let s := { sized call with counter := [(call.okRecords.length : Int)] }
    let routing := routeRecords call.candidatesWithRoute call.seeded (call.okRecords.map Prod.fst)
    let s := routing.rejected.foldl (fun s g => write call s g.records (some g.found.1)) s
    if routing.groups = [] then leave call s
    else
      { s with
        heap := call.stamped s.heap routing.groups
        outstanding := routing.groups }

/-- The completion of the group at `i`, from `perPartitionDone`. -/
def complete (s : ProduceSync) (i : Nat) (g : RoutedGroup) (res : ProduceResult) : ProduceSync :=
  { s with
    outstanding := s.outstanding.eraseIdx i
    writing := s.writing ++ [⟨g.tp, g.records, recordErrFromResult res g.tp⟩]
    delivered := s.delivered ++ [(g.tp, res)] }

def step (s : ProduceSync) : ProduceSyncAction → Option ProduceSync
  | .done i res =>
      if s.returned then none else (s.outstanding[i]?).map fun g => complete s i g res
  | .write j =>
      match s.writing[j]? with
      | some ⟨tp, r :: rest, err⟩ =>
          some { writeOne call err s r with writing := s.writing.set j ⟨tp, rest, err⟩ }
      | _ => none
  | .wake =>
      if s.returned = false ∧ s.counter.getLast? = some 0 then some (leave call s) else none

end ProduceSync

end Warpstream
