import Warpstream.Kmsg

set_option autoImplicit false

/- Records as the caller hands them in, and the wire-size estimates the buffers
and the per-record gate work with. -/
namespace Warpstream

open Kbin

/-- `time.Time` without its monotonic part: unix seconds and nanoseconds. -/
structure Time where
  sec : Int
  nsec : Nat
  nsec_lt : nsec < 1000000000
deriving DecidableEq

namespace Time

def zero : Time := ⟨-62135596800, 0, by decide⟩

/-- `time.Unix(sec, 0)`. -/
def unix (sec : Int) : Time := ⟨sec, 0, by decide⟩

def isZero (t : Time) : Bool := t.sec = -62135596800 ∧ t.nsec = 0

/-- Milliseconds since the epoch, in int64 arithmetic. -/
def unixMilli (t : Time) : Int := int64 (t.sec * 1000 + t.nsec / 1000000)

def ofUnixMilli (msec : Int) : Time :=
  ⟨msec / 1000, (msec % 1000).toNat * 1000000, by omega⟩

/-- `t.Truncate(time.Millisecond)`. -/
def truncateMilli (t : Time) : Time :=
  ⟨t.sec, t.nsec - t.nsec % 1000000, by have := t.nsec_lt; omega⟩

/-- Nanoseconds since the epoch, in int64 arithmetic. -/
def unixNano (t : Time) : Int := int64 (t.sec * 1000000000 + t.nsec)

/-- `t.Sub(u)`: the difference in nanoseconds, held within the range of a duration. -/
def sub (t u : Time) : Int :=
  max (-2 ^ 63) (min (2 ^ 63 - 1) ((t.sec - u.sec) * 1000000000 + (t.nsec - u.nsec)))

/-- The nanoseconds from `u` to `t`. -/
def since (t u : Time) : Int := (t.sec - u.sec) * 1000000000 + (t.nsec - u.nsec)

theorem unixMilli_range (t : Time) : -2 ^ 63 ≤ t.unixMilli ∧ t.unixMilli < 2 ^ 63 := int64_range _

theorem unixMilli_ofUnixMilli (msec : Int) (lower : -2 ^ 63 ≤ msec) (upper : msec < 2 ^ 63) :
    (ofUnixMilli msec).unixMilli = msec := by
  have whole : msec / 1000 * 1000 + ((msec % 1000).toNat * 1000000 : Nat) / 1000000 = msec := by
    push_cast
    omega
  unfold unixMilli ofUnixMilli
  simp only
  rw [whole]
  exact int64_eq lower upper

end Time

/-- A `context.Context`. It is cancelable exactly when `Done()` is not nil. -/
structure Context where
  id : Nat
  cancelable : Bool
deriving DecidableEq

structure TopicPartition where
  topic : String
  partition : Int
deriving DecidableEq

namespace Kgo

structure RecordHeader where
  key : Bytes
  value : Option Bytes
deriving DecidableEq

/-- The fields of `kgo.Record` that the produce path reads or writes. -/
structure Record where
  key : Option Bytes := none
  value : Option Bytes := none
  headers : List RecordHeader := []
  timestamp : Time := Time.zero
  topic : String := ""
  partition : Int := 0
  context : Option Context := none
deriving DecidableEq

end Kgo

def ensureRecordTimestamp (record : Kgo.Record) (now : Time) : Kgo.Record :=
  if record.timestamp.isZero then { record with timestamp := now.truncateMilli } else record

def ensureRecordContext (record : Kgo.Record) (ctx : Context) : Kgo.Record :=
  if record.context = none then { record with context := some ctx } else record

def batchFixedFieldsAfterLength : Nat := 49

def crcOffset : Nat := 17

def recordBatchHeaderBytes : Nat := 4 + 8 + 4 + batchFixedFieldsAfterLength

def batchMaxBytesCeiling : Int := 2 ^ 30

def headerEstimateBytes (h : Kgo.RecordHeader) : Nat :=
  varintLen (int32 h.key.length) + h.key.length +
    (varintLen (int32 (fieldLen h.value)) + fieldLen h.value)

def headersEstimateBytes (headers : List Kgo.RecordHeader) : Nat :=
  (headers.map headerEstimateBytes).sum

/-- The body of a record at the given deltas, everything after its length prefix. -/
def recordBodyBytes (r : Kgo.Record) (offsetDelta tsDelta : Int) : Nat :=
  1 + varlongLen tsDelta + varintLen offsetDelta +
    (varintLen (int32 (fieldLen r.key)) + fieldLen r.key) +
    (varintLen (int32 (fieldLen r.value)) + fieldLen r.value) +
    varintLen (int32 r.headers.length) + headersEstimateBytes r.headers

def recordEstimateBytes (r : Kgo.Record) (offsetDelta tsDelta : Int) : Nat :=
  varintLen (int32 (recordBodyBytes r offsetDelta tsDelta)) + recordBodyBytes r offsetDelta tsDelta

def singleRecordBatchEstimateBytes (r : Kgo.Record) : Nat :=
  recordBatchHeaderBytes + recordEstimateBytes r 0 0

/-- The records of one batch at offsets `i, i + 1, ...` and deltas from `firstTS`. -/
def recordsEstimateBytes (firstTS : Int) : Nat → List Kgo.Record → Nat
  | _, [] => 0
  | i, r :: rest =>
      recordEstimateBytes r (int32 i) (int64 (r.timestamp.unixMilli - firstTS)) +
        recordsEstimateBytes firstTS (i + 1) rest

def multiRecordBatchEstimateBytes : List Kgo.Record → Nat
  | [] => 0
  | first :: rest =>
      recordBatchHeaderBytes +
        recordsEstimateBytes first.timestamp.unixMilli 0 (first :: rest)

@[simp] theorem recordsEstimateBytes_nil (firstTS : Int) (i : Nat) :
    recordsEstimateBytes firstTS i [] = 0 := rfl

theorem recordsEstimateBytes_cons (firstTS : Int) (i : Nat) (r : Kgo.Record)
    (rest : List Kgo.Record) :
    recordsEstimateBytes firstTS i (r :: rest) =
      recordEstimateBytes r (int32 i) (int64 (r.timestamp.unixMilli - firstTS)) +
        recordsEstimateBytes firstTS (i + 1) rest := rfl

theorem multiRecordBatchEstimateBytes_cons (first : Kgo.Record) (rest : List Kgo.Record) :
    multiRecordBatchEstimateBytes (first :: rest) = recordBatchHeaderBytes +
      recordsEstimateBytes first.timestamp.unixMilli 0 (first :: rest) := rfl

theorem recordsEstimateBytes_append (firstTS : Int) (i : Nat) (left right : List Kgo.Record) :
    recordsEstimateBytes firstTS i (left ++ right) =
      recordsEstimateBytes firstTS i left + recordsEstimateBytes firstTS (i + left.length) right := by
  induction left generalizing i with
  | nil => simp [recordsEstimateBytes]
  | cons r rest ih =>
      simp only [List.cons_append, recordsEstimateBytes_cons, ih, List.length_cons]
      rw [show i + 1 + rest.length = i + (rest.length + 1) by omega]
      omega

/-- A lone record is sized at offset and delta zero, whatever its timestamp. -/
theorem multiRecordBatchEstimateBytes_singleton (r : Kgo.Record) :
    multiRecordBatchEstimateBytes [r] = singleRecordBatchEstimateBytes r := by
  have delta : int64 (r.timestamp.unixMilli - r.timestamp.unixMilli) = 0 := by
    rw [Int.sub_self]
    decide
  have offset : int32 ((0 : Nat) : Int) = 0 := by decide
  rw [multiRecordBatchEstimateBytes_cons, recordsEstimateBytes_cons, recordsEstimateBytes_nil,
    delta, offset, Nat.add_zero]
  rfl

theorem recordEstimateBytes_pos (r : Kgo.Record) (offsetDelta tsDelta : Int) :
    7 ≤ recordEstimateBytes r offsetDelta tsDelta := by
  have length := Kmsg.varintLen_pos (int32 (recordBodyBytes r offsetDelta tsDelta))
  have delta := Kmsg.varlongLen_pos tsDelta
  have offset := Kmsg.varintLen_pos offsetDelta
  have key := Kmsg.varintLen_pos (int32 (fieldLen r.key))
  have value := Kmsg.varintLen_pos (int32 (fieldLen r.value))
  have headers := Kmsg.varintLen_pos (int32 r.headers.length)
  have body : 6 ≤ recordBodyBytes r offsetDelta tsDelta := by
    unfold recordBodyBytes
    omega
  unfold recordEstimateBytes
  omega

end Warpstream
