import Warpstream.AgentBuffer
import Warpstream.RoutedTopicPartition

set_option autoImplicit false

/- One `AgentBuffer` under concurrent callers, timers, flush goroutines and `Close`:
what it accepts is what it flushes, once and in order. -/
namespace Warpstream

open RoutedBatch LawfulRoutedBatch

/-- The atomic steps of a program that uses one buffer. `callFlush i` is the `i`th
flush goroutine calling the flush function and `finishFlush i` its end;
`closeReturn` ends the `Close` call that closed the buffer. -/
inductive AgentAction (W : Type) where
  | add (item : W)
  | multiAdd (items : List W)
  | timerFlush
  | close
  | callFlush (i : Nat)
  | finishFlush (i : Nat)
  | closeReturn
deriving DecidableEq

/-- The items an action offers to the buffer. -/
def AgentAction.items {W : Type} : AgentAction W → List W
  | .add item => [item]
  | .multiAdd items => items
  | _ => []

/-- `accepted` are the items taken so far in lock order; `called` and `finished` the
flush goroutines that have called flush and that have ended. -/
structure AgentRun (W : Type) where
  buffer : AgentBuffer W Unit
  accepted : List W := []
  called : List Nat := []
  finished : List Nat := []
  closeWaits : Bool := false
  closeReturned : Bool := false
deriving DecidableEq

namespace AgentRun

variable {W : Type}

def init (nodeID : Int) (batchMaxBytes : Nat) : AgentRun W :=
  { buffer := { nodeID := nodeID, batchMaxBytes := batchMaxBytes } }

/-- A buffer that is open takes all the items of a call. -/
def accept (st : AgentRun W) (items : List W) (buffer : AgentBuffer W Unit) : AgentRun W :=
  { st with
    buffer := buffer
    accepted := if st.buffer.closed then st.accepted else st.accepted ++ items }

def step [RoutedBatch W] (st : AgentRun W) : AgentAction W → Option (AgentRun W)
  | .add item => do
      let (buffer, _) ← st.buffer.add ⟨item, ()⟩ fun _ => ()
      some (st.accept [item] buffer)
  | .multiAdd items => do
      let (buffer, _) ← st.buffer.multiAdd (items.map fun item => ⟨item, ()⟩) fun _ => ()
      some (st.accept items buffer)
  | .timerFlush => st.buffer.timerFlush.map fun buffer => { st with buffer := buffer }
  | .close =>
      st.buffer.close.map fun buffer =>
        { st with buffer := buffer, closeWaits := st.closeWaits || !st.buffer.closed }
  | .callFlush i =>
      if i < st.buffer.flushes.length ∧ i ∉ st.called then
        some { st with called := st.called ++ [i] }
      else none
  | .finishFlush i =>
      if i ∈ st.called ∧ i ∉ st.finished then some { st with finished := st.finished ++ [i] }
      else none
  | .closeReturn =>
      if st.closeWaits = true ∧ ∀ i < st.buffer.flushes.length, i ∈ st.finished then
        some { st with closeReturned := true }
      else none

end AgentRun

/-- What `ClusterBuffer` promises of an item it hands to the buffer of `nodeID`. -/
structure Addable {W R : Type} [RoutedBatch W] [LawfulRoutedBatch W R] (nodeID : Int) (item : W) :
    Prop where
  node : getNodeID item = nodeID
  nonempty : records item ≠ []

section lawful

variable {W R : Type} [RoutedBatch W] [LawfulRoutedBatch W R]

theorem Addable.recordCount_pos {nodeID : Int} {item : W} (addable : Addable nodeID item) :
    0 < recordCount item := by
  rw [recordCount_eq]
  exact List.length_pos_iff.mpr addable.nonempty

namespace AgentBuffer

variable {D : Type}

theorem addable_split {nodeID : Int} {p : Promised W D} (addable : Addable nodeID p.item)
    (max : Nat) (fanIn : D) :
    ∀ c ∈ splitPromisedRoutedBatchByBatchMaxBytes p max fanIn, Addable nodeID c.item := by
  intro c mem
  unfold splitPromisedRoutedBatchByBatchMaxBytes at mem
  simp only at mem
  split at mem
  · rwa [List.mem_singleton.mp mem]
  · obtain ⟨chunk, inside, rfl⟩ := List.mem_map.mp mem
    exact ⟨(split_routing p.item max chunk inside).2.trans addable.node,
      split_nonempty p.item max addable.nonempty chunk inside⟩

theorem addable_splitAll {nodeID : Int} {items : List (Promised W D)} (max : Nat)
    (fanIn : Nat → D) (addable : ∀ p ∈ items, Addable nodeID p.item) :
    ∀ c ∈ splitAll max fanIn items, Addable nodeID c.item := by
  induction items generalizing fanIn with
  | nil => simp [splitAll]
  | cons p rest ih =>
      intro c mem
      rcases List.mem_append.mp mem with here | later
      · exact addable_split (addable p (by simp)) max (fanIn 0) c here
      · exact ih _ (fun q inside => addable q (List.mem_cons_of_mem _ inside)) c later

theorem partitionRecords_splitAll (tp : TopicPartition) (max : Nat) (fanIn : Nat → D)
    (items : List (Promised W D)) :
    partitionRecords tp (unpromise (splitAll max fanIn items)) =
      partitionRecords tp (unpromise items) := by
  induction items generalizing fanIn with
  | nil => rfl
  | cons p rest ih =>
      have first := partitionRecords_split tp p max (fanIn 0)
      have chunks : unpromise (splitAll max fanIn (p :: rest)) =
          unpromise (splitPromisedRoutedBatchByBatchMaxBytes p max (fanIn 0)) ++
            unpromise (splitAll max (fun i => fanIn (i + 1)) rest) := by
        simp [unpromise, splitAll]
      have whole : unpromise (p :: rest) = [p.item] ++ unpromise rest := rfl
      rw [chunks, whole, partitionRecords_append, partitionRecords_append, first, ih]

/-- What holds of a buffer that was offered addable items only. -/
structure Ok (a : AgentBuffer W D) : Prop where
  sums : Sums a
  addable : ∀ p ∈ a.entries, Addable a.nodeID p.item

theorem Ok.pending {a : AgentBuffer W D} (ok : a.Ok) :
    ∀ p ∈ a.nextProduceItems, Addable a.nodeID p.item :=
  fun p mem => ok.addable p (List.mem_append_right _ mem)

theorem Ok.moves {a b : AgentBuffer W D} {added : List (Promised W D)} (ok : a.Ok)
    (moves : Moves a added b) (addable : ∀ p ∈ added, Addable a.nodeID p.item) : b.Ok := by
  refine ⟨moves.sums ok.sums, ?_⟩
  rw [moves.entries, moves.config.1]
  intro p mem
  rcases List.mem_append.mp mem with old | new
  · exact ok.addable p old
  · exact addable p new

theorem Ok.pending_eq_nil {a : AgentBuffer W D} (ok : a.Ok) (idle : a.nextProduceRecords = 0) :
    a.nextProduceItems = [] := by
  rw [List.eq_nil_iff_forall_not_mem]
  intro p mem
  have counted := ok.sums.records
  rw [idle] at counted
  have positive := (ok.pending p mem).recordCount_pos
  have none := List.sum_eq_zero_iff.mp counted.symm _
    (List.mem_map_of_mem (f := fun p => recordCount p.item) mem)
  omega

theorem Ok.startFlushLocked_isSome {a : AgentBuffer W D} (ok : a.Ok) :
    ∃ b, a.startFlushLocked = some b := by
  unfold startFlushLocked
  split
  · exact ⟨a, rfl⟩
  · obtain ⟨wire, merged, -⟩ := mergePromised_spec fun p mem => (ok.pending p mem).node
    exact ⟨_, by rw [merged]; rfl⟩

theorem Ok.foldlM_isSome {a : AgentBuffer W D} (ok : a.Ok) {chunks : List (Promised W D)}
    (addable : ∀ p ∈ chunks, Addable a.nodeID p.item) :
    ∃ b, chunks.foldlM addToNextProduceLocked a = some b := by
  induction chunks generalizing a with
  | nil => exact ⟨a, rfl⟩
  | cons p rest ih =>
      have first : ∃ mid, a.addToNextProduceLocked p = some mid := by
        unfold addToNextProduceLocked
        split
        · obtain ⟨b, started⟩ := ok.startFlushLocked_isSome
          exact ⟨_, by rw [started]; rfl⟩
        · exact ⟨_, rfl⟩
      obtain ⟨mid, added⟩ := first
      have moves := (addToNextProduceLocked_moves added).1
      have here : ∀ q ∈ [p], Addable a.nodeID q.item := by
        simpa using addable p (by simp)
      have later : ∀ q ∈ rest, Addable mid.nodeID q.item := by
        rw [moves.config.1]
        exact fun q mem => addable q (List.mem_cons_of_mem _ mem)
      obtain ⟨b, rest⟩ := ih (ok.moves moves here) later
      exact ⟨b, by rw [List.foldlM_cons, added]; exact rest⟩

theorem Ok.addChunks_isSome {a : AgentBuffer W D} (ok : a.Ok) {chunks : List (Promised W D)}
    (addable : ∀ p ∈ chunks, Addable a.nodeID p.item) : ∃ r, a.addChunks chunks = some r := by
  unfold addChunks
  split
  · exact ⟨_, rfl⟩
  · obtain ⟨b, folded⟩ := ok.foldlM_isSome addable
    exact ⟨_, by rw [folded]; rfl⟩

/-- `Add` and `MultiAdd` both come down to adding chunks of the same records. -/
theorem exists_chunks_multiAdd (a : AgentBuffer W D) (items : List (Promised W D))
    (fanIn : Nat → D) (addable : ∀ p ∈ items, Addable a.nodeID p.item) :
    ∃ chunks, a.multiAdd items fanIn = (if items = [] then some (a, []) else a.addChunks chunks) ∧
      (∀ c ∈ chunks, Addable a.nodeID c.item) ∧
      ∀ tp, partitionRecords tp (unpromise chunks) = partitionRecords tp (unpromise items) := by
  refine ⟨splitAll a.batchMaxBytes fanIn items, ?_, addable_splitAll _ _ addable,
    fun tp => partitionRecords_splitAll tp _ _ items⟩
  unfold multiAdd
  cases items with
  | nil => rfl
  | cons p rest =>
      have positive := (addable p (by simp)).recordCount_pos
      have some : ¬ ((p :: rest).map fun p => recordCount p.item).sum = 0 := by
        simp only [List.map_cons, List.sum_cons]
        omega
      simp only [some, ↓reduceIte, reduceCtorEq]

theorem exists_chunks_add (a : AgentBuffer W D) (p : Promised W D) (fanIn : Nat → D)
    (addable : Addable a.nodeID p.item) :
    ∃ chunks, a.add p fanIn = a.addChunks chunks ∧ (∀ c ∈ chunks, Addable a.nodeID c.item) ∧
      ∀ tp, partitionRecords tp (unpromise chunks) = partitionRecords tp (unpromise [p]) := by
  have positive := addable.recordCount_pos
  have some : ¬ recordCount p.item = 0 := by omega
  unfold add
  simp only [some, ↓reduceIte]
  split
  · obtain ⟨chunks, eq, each, all⟩ := exists_chunks_multiAdd a [p] fanIn (by simpa using addable)
    exact ⟨chunks, by simpa using eq, each, all⟩
  · exact ⟨[p], rfl, by simpa using addable, fun _ => rfl⟩

/-- The records flushed and pending for a topic-partition, in order, are those of the
entries taken. -/
theorem Ok.partitionRecords_flushed {a : AgentBuffer W D} (ok : a.Ok) (tp : TopicPartition) :
    partitionRecords tp (a.flushes.flatMap Flush.wire) ++
        partitionRecords tp (unpromise a.nextProduceItems) =
      partitionRecords tp (unpromise a.entries) := by
  have each : ∀ f ∈ a.flushes,
      partitionRecords tp f.wire = partitionRecords tp (unpromise f.entries) := by
    intro f mem
    have node : ∀ p ∈ f.entries, getNodeID p.item = a.nodeID := fun p inside =>
      (ok.addable p (List.mem_append_left _ (List.mem_flatMap.mpr ⟨f, mem, inside⟩))).node
    obtain ⟨wire, merged, -, -, -, same⟩ := mergePromised_spec node
    obtain rfl : wire = f.wire := Option.some.inj (merged.symm.trans (ok.sums.merged f mem).2)
    exact same tp
  have taken : unpromise a.entries =
      a.flushes.flatMap (fun f => unpromise f.entries) ++ unpromise a.nextProduceItems := by
    simp [unpromise, entries, List.map_flatMap]
  rw [taken, partitionRecords_append, partitionRecords_flatMap, partitionRecords_flatMap]
  congr 1
  rw [List.flatMap_def, List.flatMap_def, List.map_congr_left each]

end AgentBuffer

namespace AgentRun

/-- What every step of a program over one buffer keeps. -/
structure Inv (nodeID : Int) (st : AgentRun W) : Prop where
  node : st.buffer.nodeID = nodeID
  ok : st.buffer.Ok
  conserved : ∀ tp, partitionRecords tp (unpromise st.buffer.entries) =
    partitionRecords tp st.accepted
  calledOnce : st.called.Nodup
  calledReal : ∀ i ∈ st.called, i < st.buffer.flushes.length
  finishedCalled : ∀ i ∈ st.finished, i ∈ st.called
  closedIdle : st.buffer.closed = true → st.buffer.nextProduceRecords = 0
  waitsClosed : st.closeWaits = true → st.buffer.closed = true
  returned : st.closeReturned = true → st.buffer.closed = true ∧
    ∀ i < st.buffer.flushes.length, i ∈ st.called

theorem inv_init (nodeID : Int) (batchMaxBytes : Nat) :
    Inv nodeID (init nodeID batchMaxBytes : AgentRun W) where
  node := rfl
  ok := ⟨⟨rfl, rfl, by simp [init]⟩, by simp [init, AgentBuffer.entries]⟩
  conserved _ := rfl
  calledOnce := List.nodup_nil
  calledReal := by simp [init]
  finishedCalled := by simp [init]
  closedIdle _ := rfl
  waitsClosed := by simp [init]
  returned := by simp [init]

/-- A move of an open buffer keeps the invariant when the program accepts the records
it adds. -/
theorem Inv.moved {nodeID : Int} {st : AgentRun W} (inv : Inv nodeID st)
    (accepted : List W) {b : AgentBuffer W Unit} {added : List (Promised W Unit)}
    (moves : st.buffer.Moves added b) (wasOpen : st.buffer.closed = false)
    (addable : ∀ p ∈ added, Addable nodeID p.item)
    (same : ∀ tp, partitionRecords tp st.accepted ++ partitionRecords tp (unpromise added) =
      partitionRecords tp accepted)
    (idle : b.closed = true → b.nextProduceRecords = 0)
    (waits : Bool) (waitsClosed : waits = true → b.closed = true) :
    Inv nodeID { st with buffer := b, accepted := accepted, closeWaits := waits } where
  node := moves.config.1.trans inv.node
  ok := inv.ok.moves moves (by rwa [inv.node])
  conserved tp := by
    have split : unpromise b.entries = unpromise st.buffer.entries ++ unpromise added := by
      rw [moves.entries, unpromise, List.map_append]
      rfl
    rw [split, partitionRecords_append, inv.conserved, same]
  calledOnce := inv.calledOnce
  calledReal i mem := Nat.lt_of_lt_of_le (inv.calledReal i mem) moves.flushes_length
  finishedCalled := inv.finishedCalled
  closedIdle := idle
  waitsClosed := waitsClosed
  returned done := by
    have closed := (inv.returned done).1
    rw [wasOpen] at closed
    cases closed

theorem Inv.addChunks {nodeID : Int} {st : AgentRun W} (inv : Inv nodeID st) {items : List W}
    {chunks : List (Promised W Unit)} {b : AgentBuffer W Unit} {refused : List Unit}
    (added : st.buffer.addChunks chunks = some (b, refused))
    (addable : ∀ p ∈ chunks, Addable nodeID p.item)
    (same : ∀ tp, partitionRecords tp (unpromise chunks) = partitionRecords tp items) :
    Inv nodeID (st.accept items b) := by
  rcases AgentBuffer.addChunks_cases added with ⟨closed, rfl, -⟩ | ⟨wasOpen, stillOpen, -, moves⟩
  · have unchanged : st.accept items st.buffer = st := by simp [accept, closed]
    rwa [unchanged]
  · have idle : b.closed = true → b.nextProduceRecords = 0 := by simp [stillOpen]
    have waits : st.closeWaits = true → b.closed = true := by
      intro waiting
      have closed := inv.waitsClosed waiting
      rw [wasOpen] at closed
      cases closed
    have next := inv.moved (st.accepted ++ items) moves wasOpen addable
      (fun tp => by rw [partitionRecords_append, same]) idle st.closeWaits waits
    simpa [accept, wasOpen] using next

theorem inv_step {nodeID : Int} (st : AgentRun W) (action : AgentAction W) (st' : AgentRun W)
    (inv : Inv nodeID st) (addable : ∀ item ∈ action.items, Addable nodeID item)
    (stepped : st.step action = some st') : Inv nodeID st' := by
  cases action with
  | add item =>
      have here : Addable st.buffer.nodeID item := inv.node ▸ addable item (by simp [AgentAction.items])
      obtain ⟨chunks, eq, each, all⟩ :=
        AgentBuffer.exists_chunks_add st.buffer ⟨item, ()⟩ (fun _ => ()) here
      simp only [step, eq, Option.bind_eq_bind, Option.bind_eq_some_iff] at stepped
      obtain ⟨⟨b, refused⟩, added, eq⟩ := stepped
      obtain rfl := Option.some.inj eq
      exact inv.addChunks added (inv.node ▸ each) all
  | multiAdd items =>
      have here : ∀ p ∈ items.map (fun item => (⟨item, ()⟩ : Promised W Unit)),
          Addable st.buffer.nodeID p.item := by
        intro p mem
        obtain ⟨item, inside, rfl⟩ := List.mem_map.mp mem
        exact inv.node ▸ addable item inside
      obtain ⟨chunks, eq, each, all⟩ :=
        AgentBuffer.exists_chunks_multiAdd st.buffer _ (fun _ => ()) here
      have unpromised : unpromise (items.map fun item => (⟨item, ()⟩ : Promised W Unit)) = items := by
        rw [unpromise, List.map_map]
        exact List.map_id _
      rw [unpromised] at all
      simp only [step, eq, Option.bind_eq_bind, Option.bind_eq_some_iff] at stepped
      obtain ⟨⟨b, refused⟩, added, eq⟩ := stepped
      obtain rfl := Option.some.inj eq
      split at added
      · rename_i none
        obtain ⟨rfl, -⟩ := Prod.mk.inj (Option.some.inj added)
        have unchanged : st.accept items st.buffer = st := by
          simp [accept, List.map_eq_nil_iff.mp none]
        rwa [unchanged]
      · exact inv.addChunks added (inv.node ▸ each) all
  | timerFlush =>
      obtain ⟨b, started, rfl⟩ := Option.map_eq_some_iff.mp stepped
      obtain ⟨moves, idle, same⟩ := AgentBuffer.startFlushLocked_moves started
      by_cases closed : st.buffer.closed = true
      · have unchanged : b = st.buffer := by
          rw [AgentBuffer.timerFlush, AgentBuffer.startFlushLocked, inv.closedIdle closed] at started
          exact (Option.some.inj started).symm
        rw [unchanged]
        exact inv
      · have wasOpen : st.buffer.closed = false := by simpa using closed
        have next := inv.moved st.accepted moves wasOpen (by simp)
          (fun tp => by simp [unpromise, partitionRecords]) (fun _ => idle) st.closeWaits
          (fun waiting => absurd (inv.waitsClosed waiting) closed)
        exact next
  | close =>
      obtain ⟨b, closing, rfl⟩ := Option.map_eq_some_iff.mp stepped
      rcases AgentBuffer.close_cases closing with ⟨closed, rfl⟩ | ⟨wasOpen, closed, idle, moves⟩
      · simpa [closed] using inv
      · exact inv.moved st.accepted moves wasOpen (by simp)
          (fun tp => by simp [unpromise, partitionRecords]) (fun _ => idle) _ (fun _ => closed)
  | callFlush i =>
      simp only [step] at stepped
      split at stepped
      · rename_i enabled
        obtain rfl := Option.some.inj stepped
        refine { inv with calledOnce := ?_, calledReal := ?_, finishedCalled := ?_, returned := ?_ }
        · exact List.nodup_append.mpr ⟨inv.calledOnce, by simp, by
            rintro x mem y new rfl
            exact enabled.2 (List.mem_singleton.mp new ▸ mem)⟩
        · intro j mem
          rcases List.mem_append.mp mem with old | new
          · exact inv.calledReal j old
          · exact List.mem_singleton.mp new ▸ enabled.1
        · exact fun j mem => List.mem_append_left _ (inv.finishedCalled j mem)
        · intro done
          obtain ⟨closed, all⟩ := inv.returned done
          exact ⟨closed, fun j small => List.mem_append_left _ (all j small)⟩
      · cases stepped
  | finishFlush i =>
      simp only [step] at stepped
      split at stepped
      · rename_i enabled
        obtain rfl := Option.some.inj stepped
        refine { inv with finishedCalled := ?_ }
        intro j mem
        rcases List.mem_append.mp mem with old | new
        · exact inv.finishedCalled j old
        · exact List.mem_singleton.mp new ▸ enabled.1
      · cases stepped
  | closeReturn =>
      simp only [step] at stepped
      split at stepped
      · rename_i enabled
        obtain rfl := Option.some.inj stepped
        refine { inv with returned := fun _ => ⟨inv.waitsClosed enabled.1, ?_⟩ }
        exact fun j small => inv.finishedCalled j (enabled.2 j small)
      · cases stepped

theorem inv_run {nodeID : Int} {batchMaxBytes : Nat} {actions : List (AgentAction W)}
    {st : AgentRun W} (addable : ∀ action ∈ actions, ∀ item ∈ action.items, Addable nodeID item)
    (runs : Machine.run step (init nodeID batchMaxBytes) actions = some st) : Inv nodeID st :=
  Machine.invariant_run_of_mem (fun action => ∀ item ∈ action.items, Addable nodeID item)
    (Inv nodeID) inv_step (inv_init nodeID batchMaxBytes) addable runs

/-- Nothing a caller, a timer or `Close` does to the buffer panics. -/
theorem Inv.isSome {nodeID : Int} {st : AgentRun W} (inv : Inv nodeID st) {action : AgentAction W}
    (addable : ∀ item ∈ action.items, Addable nodeID item)
    (locked : ∀ i, action ≠ .callFlush i ∧ action ≠ .finishFlush i ∧ action ≠ .closeReturn) :
    (st.step action).isSome := by
  cases action with
  | add item =>
      have here : Addable st.buffer.nodeID item := inv.node ▸ addable item (by simp [AgentAction.items])
      obtain ⟨chunks, eq, each, -⟩ :=
        AgentBuffer.exists_chunks_add st.buffer ⟨item, ()⟩ (fun _ => ()) here
      obtain ⟨r, added⟩ := inv.ok.addChunks_isSome each
      simp [step, eq, added]
  | multiAdd items =>
      have here : ∀ p ∈ items.map (fun item => (⟨item, ()⟩ : Promised W Unit)),
          Addable st.buffer.nodeID p.item := by
        intro p mem
        obtain ⟨item, inside, rfl⟩ := List.mem_map.mp mem
        exact inv.node ▸ addable item inside
      obtain ⟨chunks, eq, each, -⟩ :=
        AgentBuffer.exists_chunks_multiAdd st.buffer _ (fun _ => ()) here
      obtain ⟨r, added⟩ := inv.ok.addChunks_isSome each
      rw [added] at eq
      simp only [step, eq]
      split <;> rfl
  | timerFlush =>
      obtain ⟨b, started⟩ := inv.ok.startFlushLocked_isSome
      simp [step, AgentBuffer.timerFlush, started]
  | close =>
      have marked : AgentBuffer.Ok { st.buffer with closed := true } :=
        inv.ok.moves (AgentBuffer.Moves.refl.flags _ true) (by simp)
      obtain ⟨b, started⟩ := marked.startFlushLocked_isSome
      simp only [step, AgentBuffer.close]
      split <;> simp [started]
  | callFlush i => exact absurd rfl (locked i).1
  | finishFlush i => exact absurd rfl (locked i).2.1
  | closeReturn => exact absurd rfl (locked 0).2.2

end AgentRun

end lawful

/-- Whatever callers, timers, flush goroutines and `Close` do, the buffer of an agent
flushes each accepted record once, per partition in the order it was accepted, and
all of them by the time `Close` returns. -/
theorem agentBuffer_flushes_accepted_in_order {nodeID : Int} {batchMaxBytes : Nat}
    {actions : List (AgentAction RoutedTopicPartitionRecords)}
    {st : AgentRun RoutedTopicPartitionRecords}
    (items : ∀ action ∈ actions, ∀ item ∈ action.items, Addable nodeID item)
    (runs : Machine.run AgentRun.step (AgentRun.init nodeID batchMaxBytes) actions = some st) :
    (∀ f ∈ st.buffer.flushes, f.wire ≠ [] ∧ (∀ w ∈ f.wire, w.records ≠ []) ∧
      (f.wire.map getTopicPartition).Nodup) ∧
    (∀ tp, partitionRecords tp (st.buffer.flushes.flatMap Flush.wire) ++
        partitionRecords tp (unpromise st.buffer.nextProduceItems) =
      partitionRecords tp st.accepted) ∧
    st.called.Nodup ∧ (∀ i ∈ st.called, i < st.buffer.flushes.length) ∧
    (st.closeReturned = true → (∀ i < st.buffer.flushes.length, i ∈ st.called) ∧
      ∀ tp, partitionRecords tp (st.buffer.flushes.flatMap Flush.wire) =
        partitionRecords tp st.accepted) ∧
    (∀ action : AgentAction RoutedTopicPartitionRecords,
      (∀ item ∈ action.items, Addable nodeID item) →
      (∀ i, action ≠ .callFlush i ∧ action ≠ .finishFlush i ∧ action ≠ .closeReturn) →
      (st.step action).isSome) := by
  have inv := AgentRun.inv_run items runs
  have conserved := fun tp => (inv.ok.partitionRecords_flushed tp).trans (inv.conserved tp)
  refine ⟨?_, conserved, inv.calledOnce, inv.calledReal, ?_, fun _ => inv.isSome⟩
  · intro f mem
    have taken : ∀ p ∈ f.entries, p ∈ st.buffer.entries := fun p inside =>
      List.mem_append_left _ (List.mem_flatMap.mpr ⟨f, mem, inside⟩)
    obtain ⟨some, merged⟩ := inv.ok.sums.merged f mem
    obtain ⟨wire, eq, distinct, nonempty, each, -⟩ :=
      mergePromised_spec fun p inside => (inv.ok.addable p (taken p inside)).node
    obtain rfl : wire = f.wire := Option.some.inj (eq.symm.trans merged)
    exact ⟨nonempty some, each fun p inside => (inv.ok.addable p (taken p inside)).nonempty,
      distinct⟩
  · intro done
    obtain ⟨closed, all⟩ := inv.returned done
    refine ⟨all, fun tp => ?_⟩
    have empty := inv.ok.pending_eq_nil (inv.closedIdle closed)
    have law := conserved tp
    rw [empty] at law
    simpa [unpromise, partitionRecords] using law

/-- A record whose value repeats one byte. -/
def valued (size : Nat) (byte : UInt8) : Kgo.Record := { value := some (List.replicate size byte) }

/-- At 180 bytes two small items of one partition are flushed as one batch when the larger
item comes, which is split, and the timer flushes its rest beside a third small one. -/
def splitThenTimer : List (AgentAction RoutedTopicPartitionRecords) :=
  [.add ⟨"t", 0, [valued 1 1], 1, .healthy⟩, .add ⟨"t", 0, [valued 1 2], 1, .healthy⟩,
    .multiAdd [⟨"t", 1, [valued 30 3, valued 30 4, valued 30 5, valued 30 6], 1, .healthy⟩,
      ⟨"t", 0, [valued 1 7], 1, .healthy⟩],
    .callFlush 0, .timerFlush, .callFlush 2, .callFlush 1, .finishFlush 2, .close, .finishFlush 0,
    .finishFlush 1, .closeReturn]

theorem agentBuffer_flushes_accepted_in_order_split :
    ∃ st : AgentRun RoutedTopicPartitionRecords,
      Machine.run AgentRun.step (AgentRun.init 1 180) splitThenTimer = some st ∧
      (st.buffer.flushes.map fun f => f.wire.map fun w => (w.partition, w.records.length)) =
        [[(0, 2)], [(1, 3)], [(1, 1), (0, 1)]] ∧
      partitionRecords ⟨"t", 0⟩ (st.buffer.flushes.flatMap Flush.wire) =
        [valued 1 1, valued 1 2, valued 1 7] ∧
      partitionRecords ⟨"t", 1⟩ (st.buffer.flushes.flatMap Flush.wire) =
        [valued 30 3, valued 30 4, valued 30 5, valued 30 6] := by
  have state : (Machine.run AgentRun.step (AgentRun.init 1 180) splitThenTimer).map (fun st =>
      (st.closeReturned,
        st.buffer.flushes.map fun f => f.wire.map fun w => (w.partition, w.records.length),
        st.accepted)) =
      some (true, [[(0, 2)], [(1, 3)], [(1, 1), (0, 1)]],
        splitThenTimer.flatMap AgentAction.items) := by
    decide
  obtain ⟨st, runs, eq⟩ := Option.map_eq_some_iff.mp state
  obtain ⟨returned, eq⟩ := Prod.mk.inj eq
  obtain ⟨wires, accepted⟩ := Prod.mk.inj eq
  have addable : ∀ action ∈ splitThenTimer, ∀ item ∈ action.items, Addable 1 item := by
    intro action mem item inside
    have taken := List.mem_flatMap_of_mem mem inside
    have each : ∀ item ∈ splitThenTimer.flatMap AgentAction.items,
        item.nodeID = 1 ∧ item.records ≠ [] := by
      decide
    exact ⟨(each item taken).1, (each item taken).2⟩
  have flushed := agentBuffer_flushes_accepted_in_order addable runs
  have all := (flushed.2.2.2.2.1 returned).2
  refine ⟨st, runs, wires, ?_, ?_⟩ <;> rw [all, accepted] <;> rfl

end Warpstream
