import Warpstream.Lib.Machine
import Warpstream.RoutedBatch

set_option autoImplicit false

/- `AgentBuffer`: the state under its mutex and the locked part of every method.
A method returns `none` where `mergeWith` panics. -/
namespace Warpstream

open RoutedBatch

/-- One flush goroutine: the entries it reports to and the wire items it sends. -/
structure Flush (W D : Type) where
  entries : List (Promised W D)
  wire : List W
deriving DecidableEq

/-- `flushes` are the flush goroutines started so far, in dispatch order. -/
structure AgentBuffer (W D : Type) where
  nodeID : Int
  batchMaxBytes : Nat
  nextProduceItems : List (Promised W D) := []
  nextProduceRecords : Nat := 0
  nextProduceWireBytes : Nat := 0
  nextProduceFlushTimer : Bool := false
  closed : Bool := false
  flushes : List (Flush W D) := []
deriving DecidableEq

namespace AgentBuffer

variable {W D : Type} [RoutedBatch W]

/-- The state once the pending items have been handed to a flush goroutine. -/
def flushed (a : AgentBuffer W D) (wire : List W) : AgentBuffer W D :=
  { a with
    nextProduceFlushTimer := false
    nextProduceItems := []
    nextProduceRecords := 0
    nextProduceWireBytes := 0
    flushes := a.flushes ++ [⟨a.nextProduceItems, wire⟩] }

def startFlushLocked (a : AgentBuffer W D) : Option (AgentBuffer W D) :=
  if a.nextProduceRecords = 0 then some a
  else (mergePromisedRoutedBatchByTopicPartition a.nextProduceItems).map a.flushed

/-- The append of `addToNextProduceLocked`. -/
def appendNextProduce (a : AgentBuffer W D) (p : Promised W D) : AgentBuffer W D :=
  { a with
    nextProduceItems := a.nextProduceItems ++ [p]
    nextProduceRecords := a.nextProduceRecords + recordCount p.item
    nextProduceWireBytes := a.nextProduceWireBytes + uncompressedWireBytes p.item }

/-- The next item no longer fits beside what is pending. -/
def overflows (a : AgentBuffer W D) (item : W) : Prop :=
  0 < a.nextProduceRecords ∧
    a.batchMaxBytes < a.nextProduceWireBytes + uncompressedWireBytes item

instance (a : AgentBuffer W D) (item : W) : Decidable (a.overflows item) :=
  inferInstanceAs (Decidable (_ ∧ _))

def addToNextProduceLocked (a : AgentBuffer W D) (p : Promised W D) : Option (AgentBuffer W D) :=
  if a.overflows p.item then a.startFlushLocked.map fun a => a.appendNextProduce p
  else some (a.appendNextProduce p)

def maybeStartNextFlushTimerLocked (a : AgentBuffer W D) : AgentBuffer W D :=
  if 0 < a.nextProduceRecords ∧ a.nextProduceFlushTimer = false then
    { a with nextProduceFlushTimer := true }
  else a

/-- The chunks of `items`. The chunks of the `i`th item share `fanIn i` when there is
more than one. -/
def splitAll (batchMaxBytes : Nat) (fanIn : Nat → D) : List (Promised W D) → List (Promised W D)
  | [] => []
  | p :: rest =>
      splitPromisedRoutedBatchByBatchMaxBytes p batchMaxBytes (fanIn 0) ++
        splitAll batchMaxBytes (fun i => fanIn (i + 1)) rest

/-- The new buffer, and the callbacks to run with `errBufferClosed` once the mutex
is free. -/
def addChunks (a : AgentBuffer W D) (chunks : List (Promised W D)) :
    Option (AgentBuffer W D × List D) :=
  if a.closed then some (a, chunks.map Promised.done)
  else do
    let a ← chunks.foldlM addToNextProduceLocked a
    some (a.maybeStartNextFlushTimerLocked, [])

def multiAdd (a : AgentBuffer W D) (items : List (Promised W D)) (fanIn : Nat → D) :
    Option (AgentBuffer W D × List D) :=
  if (items.map fun p => recordCount p.item).sum = 0 then some (a, [])
  else a.addChunks (splitAll a.batchMaxBytes fanIn items)

def add (a : AgentBuffer W D) (p : Promised W D) (fanIn : Nat → D) :
    Option (AgentBuffer W D × List D) :=
  if recordCount p.item = 0 then some (a, [])
  else if a.batchMaxBytes < uncompressedWireBytes p.item then a.multiAdd [p] fanIn
  else a.addChunks [p]

/-- `timerFlush`, run by a timer that fired now or, if it fired before it was
stopped, at any later time. -/
def timerFlush (a : AgentBuffer W D) : Option (AgentBuffer W D) := a.startFlushLocked

/-- The locked part of `Close`. -/
def close (a : AgentBuffer W D) : Option (AgentBuffer W D) :=
  if a.closed then some a else startFlushLocked { a with closed := true }

/-- Everything the buffer ever took, in the order it was taken. -/
def entries (a : AgentBuffer W D) : List (Promised W D) :=
  a.flushes.flatMap Flush.entries ++ a.nextProduceItems

/-- The locked methods only flush what is pending, append one item that fits, and
set the timer and the closed flag. `added` are the items appended on the way. -/
inductive Moves (a : AgentBuffer W D) : List (Promised W D) → AgentBuffer W D → Prop
  | refl : Moves a [] a
  | flush {added : List (Promised W D)} {b : AgentBuffer W D} {wire : List W}
      (before : Moves a added b) (pending : b.nextProduceRecords ≠ 0)
      (merged : mergePromisedRoutedBatchByTopicPartition b.nextProduceItems = some wire) :
      Moves a added (b.flushed wire)
  | append {added : List (Promised W D)} {b : AgentBuffer W D} (p : Promised W D)
      (before : Moves a added b) (room : ¬ b.overflows p.item) :
      Moves a (added ++ [p]) (b.appendNextProduce p)
  | flags {added : List (Promised W D)} {b : AgentBuffer W D} (timer closed : Bool)
      (before : Moves a added b) :
      Moves a added { b with nextProduceFlushTimer := timer, closed := closed }

/-- An induction rule for facts about the state alone. -/
theorem Moves.invariant (Inv : AgentBuffer W D → Prop) (Allowed : Promised W D → Prop)
    {a b : AgentBuffer W D} {added : List (Promised W D)} (moves : Moves a added b) (start : Inv a)
    (allowed : ∀ p ∈ added, Allowed p)
    (flush : ∀ (b : AgentBuffer W D) (wire : List W), Inv b → b.nextProduceRecords ≠ 0 →
      mergePromisedRoutedBatchByTopicPartition b.nextProduceItems = some wire →
      Inv (b.flushed wire))
    (append : ∀ (b : AgentBuffer W D) (p : Promised W D), Inv b → Allowed p →
      ¬ b.overflows p.item → Inv (b.appendNextProduce p))
    (flags : ∀ (b : AgentBuffer W D) (timer closed : Bool), Inv b →
      Inv { b with nextProduceFlushTimer := timer, closed := closed }) : Inv b := by
  induction moves with
  | refl => exact start
  | flush _ pending merged ih => exact flush _ _ (ih allowed) pending merged
  | append p _ room ih =>
      exact append _ p (ih fun q mem => allowed q (List.mem_append_left _ mem))
        (allowed p (by simp)) room
  | flags timer closed _ ih => exact flags _ timer closed (ih allowed)

/-- What was pending or appended is now in a flush started on the way, or pending. -/
theorem Moves.started {a b : AgentBuffer W D} {added : List (Promised W D)}
    (moves : Moves a added b) : ∃ new, b.flushes = a.flushes ++ new ∧
      new.flatMap Flush.entries ++ b.nextProduceItems = a.nextProduceItems ++ added := by
  induction moves with
  | refl => exact ⟨[], by simp⟩
  | @flush _ b wire _ _ _ ih =>
      obtain ⟨new, flushes, items⟩ := ih
      refine ⟨new ++ [⟨b.nextProduceItems, wire⟩], ?_, ?_⟩
      · rw [← List.append_assoc, ← flushes]
        rfl
      · rw [← items]
        simp [flushed]
  | append p _ _ ih =>
      obtain ⟨new, flushes, items⟩ := ih
      refine ⟨new, flushes, ?_⟩
      rw [← List.append_assoc, ← items]
      simp [appendNextProduce]
  | flags timer closed _ ih => exact ih

theorem Moves.entries {a b : AgentBuffer W D} {added : List (Promised W D)}
    (moves : Moves a added b) : b.entries = a.entries ++ added := by
  obtain ⟨new, flushes, items⟩ := moves.started
  rw [AgentBuffer.entries, AgentBuffer.entries, flushes, List.flatMap_append, List.append_assoc,
    items, List.append_assoc]

theorem Moves.flushes_length {a b : AgentBuffer W D} {added : List (Promised W D)}
    (moves : Moves a added b) : a.flushes.length ≤ b.flushes.length := by
  obtain ⟨new, flushes, -⟩ := moves.started
  rw [flushes, List.length_append]
  omega

theorem Moves.config {a b : AgentBuffer W D} {added : List (Promised W D)}
    (moves : Moves a added b) : b.nodeID = a.nodeID ∧ b.batchMaxBytes = a.batchMaxBytes := by
  induction moves with
  | refl => exact ⟨rfl, rfl⟩
  | flush _ _ _ ih => exact ih
  | append p _ _ ih => exact ih
  | flags timer closed _ ih => exact ih

theorem Moves.trans {a b c : AgentBuffer W D} {first second : List (Promised W D)}
    (earlier : Moves a first b) (later : Moves b second c) : Moves a (first ++ second) c := by
  induction later with
  | refl => simpa using earlier
  | flush _ pending merged ih => exact ih.flush pending merged
  | append p _ room ih =>
      rw [← List.append_assoc]
      exact ih.append p room
  | flags timer closed _ ih => exact ih.flags timer closed

theorem startFlushLocked_moves {a b : AgentBuffer W D} (started : a.startFlushLocked = some b) :
    Moves a [] b ∧ b.nextProduceRecords = 0 ∧ b.closed = a.closed := by
  unfold startFlushLocked at started
  split at started
  · rename_i idle
    obtain rfl : a = b := Option.some.inj started
    exact ⟨.refl, idle, rfl⟩
  · rename_i pending
    obtain ⟨wire, merged, rfl⟩ := Option.map_eq_some_iff.mp started
    exact ⟨.flush .refl pending merged, rfl, rfl⟩

theorem addToNextProduceLocked_moves {a b : AgentBuffer W D} {p : Promised W D}
    (added : a.addToNextProduceLocked p = some b) : Moves a [p] b ∧ b.closed = a.closed := by
  unfold addToNextProduceLocked at added
  split at added
  · simp only [Option.map_eq_some_iff] at added
    obtain ⟨mid, started, rfl⟩ := added
    obtain ⟨moves, idle, same⟩ := startFlushLocked_moves started
    exact ⟨moves.append p fun full => absurd full.1 (by omega), same⟩
  · rename_i room
    obtain rfl := Option.some.inj added
    exact ⟨Moves.refl.append p room, rfl⟩

theorem foldlM_addToNextProduceLocked_moves {a b : AgentBuffer W D} {chunks : List (Promised W D)}
    (added : chunks.foldlM addToNextProduceLocked a = some b) :
    Moves a chunks b ∧ b.closed = a.closed := by
  induction chunks generalizing a with
  | nil =>
      obtain rfl : a = b := Option.some.inj added
      exact ⟨.refl, rfl⟩
  | cons p rest ih =>
      simp only [List.foldlM_cons, Option.bind_eq_bind, Option.bind_eq_some_iff] at added
      obtain ⟨mid, first, later⟩ := added
      obtain ⟨here, same⟩ := addToNextProduceLocked_moves first
      obtain ⟨there, still⟩ := ih later
      exact ⟨here.trans there, still.trans same⟩

omit [RoutedBatch W] in
theorem maybeStartNextFlushTimerLocked_eq (a : AgentBuffer W D) :
    a.maybeStartNextFlushTimerLocked = { a with
      nextProduceFlushTimer := a.nextProduceFlushTimer || decide (0 < a.nextProduceRecords) } := by
  unfold maybeStartNextFlushTimerLocked
  split
  · rename_i start
    simp [start.1]
  · rename_i skip
    have same : (a.nextProduceFlushTimer || decide (0 < a.nextProduceRecords)) =
        a.nextProduceFlushTimer := by
      cases armed : a.nextProduceFlushTimer with
      | true => rfl
      | false => simpa [armed] using skip
    rw [same]

/-- Chunks are either all taken, in order, or all refused by a closed buffer. -/
theorem addChunks_cases {a b : AgentBuffer W D} {chunks : List (Promised W D)} {refused : List D}
    (added : a.addChunks chunks = some (b, refused)) :
    (a.closed = true ∧ b = a ∧ refused = chunks.map Promised.done) ∨
      (a.closed = false ∧ b.closed = false ∧ refused = [] ∧ Moves a chunks b) := by
  unfold addChunks at added
  split at added
  · rename_i closed
    obtain ⟨rfl, rfl⟩ := Prod.mk.inj (Option.some.inj added)
    exact Or.inl ⟨closed, rfl, rfl⟩
  · rename_i isOpen
    simp only [Option.bind_eq_bind, Option.bind_eq_some_iff] at added
    obtain ⟨mid, folded, eq⟩ := added
    obtain ⟨rfl, rfl⟩ := Prod.mk.inj (Option.some.inj eq)
    obtain ⟨moves, same⟩ := foldlM_addToNextProduceLocked_moves folded
    rw [maybeStartNextFlushTimerLocked_eq]
    refine Or.inr ⟨by simpa using isOpen, by simpa [same] using isOpen, rfl, ?_⟩
    exact moves.flags _ mid.closed

theorem addChunks_config {a b : AgentBuffer W D} {chunks : List (Promised W D)} {refused : List D}
    (added : a.addChunks chunks = some (b, refused)) :
    b.nodeID = a.nodeID ∧ b.batchMaxBytes = a.batchMaxBytes := by
  rcases addChunks_cases added with ⟨-, rfl, -⟩ | ⟨-, -, -, moves⟩
  · exact ⟨rfl, rfl⟩
  · exact moves.config

theorem multiAdd_config {a b : AgentBuffer W D} {items : List (Promised W D)} {fanIn : Nat → D}
    {refused : List D} (added : a.multiAdd items fanIn = some (b, refused)) :
    b.nodeID = a.nodeID ∧ b.batchMaxBytes = a.batchMaxBytes := by
  unfold multiAdd at added
  split at added
  · rw [← (Prod.mk.inj (Option.some.inj added)).1]
    exact ⟨rfl, rfl⟩
  · exact addChunks_config added

theorem add_config {a b : AgentBuffer W D} {p : Promised W D} {fanIn : Nat → D}
    {refused : List D} (added : a.add p fanIn = some (b, refused)) :
    b.nodeID = a.nodeID ∧ b.batchMaxBytes = a.batchMaxBytes := by
  unfold add at added
  split at added
  · rw [← (Prod.mk.inj (Option.some.inj added)).1]
    exact ⟨rfl, rfl⟩
  · split at added
    · exact multiAdd_config added
    · exact addChunks_config added

theorem close_cases {a b : AgentBuffer W D} (closing : a.close = some b) :
    (a.closed = true ∧ b = a) ∨
      (a.closed = false ∧ b.closed = true ∧ b.nextProduceRecords = 0 ∧ Moves a [] b) := by
  unfold close at closing
  split at closing
  · rename_i closed
    exact Or.inl ⟨closed, (Option.some.inj closing).symm⟩
  · rename_i isOpen
    obtain ⟨moves, idle, same⟩ := startFlushLocked_moves closing
    have marked : Moves a [] { a with closed := true } := Moves.refl.flags _ true
    exact Or.inr ⟨by simpa using isOpen, same, idle, by simpa using marked.trans moves⟩

theorem close_moves {a b : AgentBuffer W D} (closing : a.close = some b) : Moves a [] b := by
  rcases close_cases closing with ⟨-, rfl⟩ | ⟨-, -, -, moves⟩
  · exact .refl
  · exact moves

/-- The counters are the sums over the pending items, and every flush carried
something. -/
structure Sums (a : AgentBuffer W D) : Prop where
  records : a.nextProduceRecords = (a.nextProduceItems.map fun p => recordCount p.item).sum
  bytes : a.nextProduceWireBytes = (a.nextProduceItems.map fun p => uncompressedWireBytes p.item).sum
  merged : ∀ f ∈ a.flushes, f.entries ≠ [] ∧
    mergePromisedRoutedBatchByTopicPartition f.entries = some f.wire

theorem Moves.sums {a b : AgentBuffer W D} {added : List (Promised W D)} (moves : Moves a added b)
    (start : Sums a) : Sums b := by
  refine moves.invariant Sums (fun _ => True) start (fun _ _ => trivial) ?_ ?_ ?_
  · intro b wire sums pending merged
    refine ⟨rfl, rfl, ?_⟩
    intro f mem
    rcases List.mem_append.mp mem with old | new
    · exact sums.merged f old
    · obtain rfl := List.mem_singleton.mp new
      refine ⟨?_, merged⟩
      rintro (empty : b.nextProduceItems = [])
      exact pending (by rw [sums.records, empty]; rfl)
  · intro b p sums _ _
    refine ⟨?_, ?_, sums.merged⟩
    · simp [appendNextProduce, sums.records]
    · simp [appendNextProduce, sums.bytes]
  · intro b timer closed sums
    exact ⟨sums.records, sums.bytes, sums.merged⟩

end AgentBuffer

end Warpstream
