import Warpstream.AgentBuffer
import Warpstream.RoutedTopicPartition

set_option autoImplicit false

/- `AgentBuffer` with the timers it makes. A timer that has fired runs `timerFlush` later, when
it gets the mutex, and by then it may have been stopped and replaced. Forgetting the timers
gives back the operations of `AgentBuffer`. -/
namespace Warpstream

open RoutedBatch

namespace AgentBuffer

variable {W D : Type} [RoutedBatch W]

/-- What the fields for the pending produce say about each other. -/
structure Shape (a : AgentBuffer W D) : Prop where
  records : a.nextProduceRecords = (a.nextProduceItems.map fun p => recordCount p.item).sum
  bytes : a.nextProduceWireBytes = (a.nextProduceItems.map fun p => uncompressedWireBytes p.item).sum
  nonempty : ∀ p ∈ a.nextProduceItems, 0 < recordCount p.item
  cap : a.nextProduceWireBytes ≤ a.batchMaxBytes ∨ a.nextProduceItems.length = 1

theorem Shape.pending_iff {a : AgentBuffer W D} (shape : a.Shape) :
    a.nextProduceItems ≠ [] ↔ a.nextProduceRecords ≠ 0 := by
  rw [shape.records]
  cases items : a.nextProduceItems with
  | nil => simp
  | cons p rest =>
      have first := shape.nonempty p (by rw [items]; exact List.mem_cons_self)
      simp only [List.map_cons, List.sum_cons, ne_eq, reduceCtorEq, not_false_eq_true, true_iff]
      omega

theorem Shape.moves {a b : AgentBuffer W D} {added : List (Promised W D)} (shape : a.Shape)
    (moves : Moves a added b) (some : ∀ p ∈ added, 0 < recordCount p.item) : b.Shape := by
  refine moves.invariant Shape (fun p => 0 < recordCount p.item) shape some ?_ ?_ ?_
  · intro b wire shape pending merged
    refine ⟨rfl, rfl, fun p mem => absurd mem List.not_mem_nil, Or.inl ?_⟩
    apply Nat.zero_le
  · intro b p shape some room
    constructor
    · simp [appendNextProduce, shape.records]
    · simp [appendNextProduce, shape.bytes]
    · intro q mem
      rcases List.mem_append.mp mem with old | new
      · exact shape.nonempty q old
      · rwa [List.mem_singleton.mp new]
    · change b.nextProduceWireBytes + uncompressedWireBytes p.item ≤ b.batchMaxBytes ∨
        (b.nextProduceItems ++ [p]).length = 1
      by_cases idle : b.nextProduceRecords = 0
      · have empty : b.nextProduceItems = [] := by
          by_contra pending
          exact shape.pending_iff.mp pending idle
        right
        rw [empty]
        rfl
      · left
        unfold overflows at room
        omega
  · intro b timer closed shape
    exact ⟨shape.records, shape.bytes, shape.nonempty, shape.cap⟩

end AgentBuffer

/-- A timer made by `time.AfterFunc`: its callback starts, waits for the mutex and runs, unless
the timer is stopped before it fires. -/
inductive LingerTimer where
  | waiting
  | fired
  | stopped
  | ran
deriving DecidableEq

/-- `Stop`: too late for a timer that has fired. -/
def LingerTimer.stop : LingerTimer → LingerTimer
  | .waiting => .stopped
  | timer => timer

/-- A buffer with every timer it has made. `nextProduceFlushTimer` is the index of one. -/
structure TimedBuffer (W D : Type) where
  buffer : AgentBuffer W D
  nextProduceFlushTimer : Option Nat := none
  timers : List LingerTimer := []

namespace TimedBuffer

variable {W D : Type} [RoutedBatch W]

def startFlushLocked (t : TimedBuffer W D) : Option (TimedBuffer W D) :=
  if t.buffer.nextProduceRecords = 0 then some t
  else do
    let buffer ← t.buffer.startFlushLocked
    some
      { buffer := buffer
        nextProduceFlushTimer := none
        timers :=
          match t.nextProduceFlushTimer with
          | some i => t.timers.modify i LingerTimer.stop
          | none => t.timers }

def appendNextProduce (t : TimedBuffer W D) (p : Promised W D) : TimedBuffer W D :=
  { t with buffer := t.buffer.appendNextProduce p }

def addToNextProduceLocked (t : TimedBuffer W D) (p : Promised W D) : Option (TimedBuffer W D) :=
  if t.buffer.overflows p.item then t.startFlushLocked.map fun t => t.appendNextProduce p
  else some (t.appendNextProduce p)

def maybeStartNextFlushTimerLocked (t : TimedBuffer W D) : TimedBuffer W D :=
  if 0 < t.buffer.nextProduceRecords ∧ t.nextProduceFlushTimer = none then
    { buffer := { t.buffer with nextProduceFlushTimer := true }
      nextProduceFlushTimer := some t.timers.length
      timers := t.timers ++ [.waiting] }
  else t

def addChunks (t : TimedBuffer W D) (chunks : List (Promised W D)) :
    Option (TimedBuffer W D × List D) :=
  if t.buffer.closed then some (t, chunks.map Promised.done)
  else do
    let t ← chunks.foldlM addToNextProduceLocked t
    some (t.maybeStartNextFlushTimerLocked, [])

def multiAdd (t : TimedBuffer W D) (items : List (Promised W D)) (fanIn : Nat → D) :
    Option (TimedBuffer W D × List D) :=
  if (items.map fun p => recordCount p.item).sum = 0 then some (t, [])
  else t.addChunks (AgentBuffer.splitAll t.buffer.batchMaxBytes fanIn items)

def add (t : TimedBuffer W D) (p : Promised W D) (fanIn : Nat → D) :
    Option (TimedBuffer W D × List D) :=
  if recordCount p.item = 0 then some (t, [])
  else if t.buffer.batchMaxBytes < uncompressedWireBytes p.item then t.multiAdd [p] fanIn
  else t.addChunks [p]

/-- The linger of a timer is over. -/
def fire (t : TimedBuffer W D) (i : Nat) : Option (TimedBuffer W D) :=
  if t.timers[i]? = some .waiting then some { t with timers := t.timers.set i .fired } else none

/-- The callback of a timer that has fired, stale or not. -/
def timerFlush (t : TimedBuffer W D) (i : Nat) : Option (TimedBuffer W D) :=
  if t.timers[i]? = some .fired then
    startFlushLocked { t with timers := t.timers.set i .ran }
  else none

def close (t : TimedBuffer W D) : Option (TimedBuffer W D) :=
  if t.buffer.closed then some t
  else startFlushLocked { t with buffer := { t.buffer with closed := true } }

/-- What happens to the buffer, in any order. -/
inductive Action (W D : Type) where
  | add (p : Promised W D) (fanIn : Nat → D)
  | multiAdd (items : List (Promised W D)) (fanIn : Nat → D)
  | fire (i : Nat)
  | timerFlush (i : Nat)
  | close

def step (t : TimedBuffer W D) : Action W D → Option (TimedBuffer W D)
  | .add p fanIn => (t.add p fanIn).map Prod.fst
  | .multiAdd items fanIn => (t.multiAdd items fanIn).map Prod.fst
  | .fire i => t.fire i
  | .timerFlush i => t.timerFlush i
  | .close => t.close

/-- Every item of a `MultiAdd` has a record. -/
def Action.Filled : Action W D → Prop
  | .multiAdd items _ => ∀ p ∈ items, 0 < recordCount p.item
  | _ => True

def init (nodeID : Int) (batchMaxBytes : Nat) : TimedBuffer W D :=
  { buffer := { nodeID := nodeID, batchMaxBytes := batchMaxBytes } }

/-- A timer of the buffer that is set, and whose callback is still to come. -/
def Armed (t : TimedBuffer W D) : Prop :=
  ∃ i, t.nextProduceFlushTimer = some i ∧
    (t.timers[i]? = some .waiting ∨ t.timers[i]? = some .fired)

/-- What holds of the timers inside a critical section. -/
structure Timers (t : TimedBuffer W D) : Prop where
  linked : t.buffer.nextProduceFlushTimer = t.nextProduceFlushTimer.isSome
  pending : t.nextProduceFlushTimer ≠ none → t.buffer.nextProduceRecords ≠ 0
  waiting : ∀ i, t.timers[i]? = some .waiting → t.nextProduceFlushTimer = some i

/-- The callback of the current timer has not run. -/
def Current (t : TimedBuffer W D) : Prop := t.nextProduceFlushTimer ≠ none → t.Armed

variable {t t' : TimedBuffer W D}

section StartFlush

omit [RoutedBatch W] in
/-- Once the current timer is stopped no timer waits. -/
theorem Timers.stop (timers : t.Timers) {i : Nat} (current : t.nextProduceFlushTimer = some i)
    (j : Nat) : (t.timers.modify i LingerTimer.stop)[j]? ≠ some .waiting := by
  intro waits
  rw [List.getElem?_modify] at waits
  by_cases same : i = j
  · subst same
    cases before : t.timers[i]? with
    | none => simp [before] at waits
    | some timer => cases timer <;> simp [before, LingerTimer.stop] at waits
  · have other := timers.waiting j (by simpa [same] using waits)
    exact same (Option.some.inj (current.symm.trans other))

/-- A flush of what is pending stops the current timer, whether or not its callback has run. -/
theorem Timers.startFlushLocked (timers : t.Timers) (started : t.startFlushLocked = some t') :
    t.buffer.startFlushLocked = some t'.buffer ∧ t'.Timers ∧ t'.Current := by
  unfold TimedBuffer.startFlushLocked at started
  split at started
  · rename_i idle
    obtain rfl := Option.some.inj started
    refine ⟨?_, timers, fun set => absurd idle (timers.pending set)⟩
    rw [AgentBuffer.startFlushLocked, if_pos idle]
  · rename_i pending
    simp only [Option.bind_eq_bind, Option.bind_eq_some_iff] at started
    obtain ⟨buffer, flushed, eq⟩ := started
    obtain rfl := Option.some.inj eq
    refine ⟨flushed, ⟨?_, fun set => absurd rfl set, ?_⟩, fun set => absurd rfl set⟩
    · rw [AgentBuffer.startFlushLocked, if_neg pending] at flushed
      obtain ⟨wire, -, rfl⟩ := Option.map_eq_some_iff.mp flushed
      rfl
    · intro j waits
      cases current : t.nextProduceFlushTimer with
      | none =>
          simp only [current] at waits
          have other := timers.waiting j waits
          rw [current] at other
          exact other
      | some i =>
          simp only [current] at waits
          exact absurd waits (timers.stop current j)

end StartFlush

theorem Timers.appendNextProduce (timers : t.Timers) (p : Promised W D) :
    (t.appendNextProduce p).Timers := by
  refine ⟨timers.linked, fun set => ?_, timers.waiting⟩
  have before := timers.pending set
  change t.buffer.nextProduceRecords + recordCount p.item ≠ 0
  omega

theorem Timers.addToNextProduceLocked (timers : t.Timers) (current : t.Current) {p : Promised W D}
    (added : t.addToNextProduceLocked p = some t') :
    t.buffer.addToNextProduceLocked p = some t'.buffer ∧ t'.Timers ∧ t'.Current := by
  unfold TimedBuffer.addToNextProduceLocked at added
  unfold AgentBuffer.addToNextProduceLocked
  split at added
  · rename_i full
    obtain ⟨s, started, rfl⟩ := Option.map_eq_some_iff.mp added
    obtain ⟨flushed, timers, current⟩ := timers.startFlushLocked started
    rw [if_pos full, flushed]
    exact ⟨rfl, timers.appendNextProduce p, current⟩
  · rename_i room
    obtain rfl := Option.some.inj added
    rw [if_neg room]
    exact ⟨rfl, timers.appendNextProduce p, current⟩

theorem Timers.foldlM_add (timers : t.Timers) (current : t.Current) {chunks : List (Promised W D)}
    (added : chunks.foldlM TimedBuffer.addToNextProduceLocked t = some t') :
    chunks.foldlM AgentBuffer.addToNextProduceLocked t.buffer = some t'.buffer ∧
      t'.Timers ∧ t'.Current := by
  induction chunks generalizing t with
  | nil =>
      obtain rfl := Option.some.inj added
      exact ⟨rfl, timers, current⟩
  | cons p rest ih =>
      rw [List.foldlM_cons] at added ⊢
      simp only [Option.bind_eq_bind, Option.bind_eq_some_iff] at added
      obtain ⟨mid, first, later⟩ := added
      obtain ⟨buffer, timers, current⟩ := timers.addToNextProduceLocked current first
      rw [buffer]
      exact ih timers current later

omit [RoutedBatch W] in
/-- At the end of an `Add` a timer is set when something is pending. -/
theorem Timers.maybeStart (timers : t.Timers) (current : t.Current) :
    t.maybeStartNextFlushTimerLocked.buffer = t.buffer.maybeStartNextFlushTimerLocked ∧
      t.maybeStartNextFlushTimerLocked.Timers ∧ t.maybeStartNextFlushTimerLocked.Current ∧
      (t.buffer.nextProduceRecords ≠ 0 →
        t.maybeStartNextFlushTimerLocked.nextProduceFlushTimer ≠ none) := by
  have linked := timers.linked
  unfold maybeStartNextFlushTimerLocked AgentBuffer.maybeStartNextFlushTimerLocked
  by_cases start : 0 < t.buffer.nextProduceRecords ∧ t.nextProduceFlushTimer = none
  · rw [start.2] at linked
    rw [if_pos start, if_pos ⟨start.1, linked⟩]
    have last : (t.timers ++ [LingerTimer.waiting])[t.timers.length]? = some .waiting := by simp
    refine ⟨rfl, ⟨rfl, fun _ => ?_, ?_⟩, fun _ => ⟨_, rfl, Or.inl last⟩, fun _ => by simp⟩
    · have some := start.1
      change t.buffer.nextProduceRecords ≠ 0
      omega
    · intro i waits
      by_cases old : i < t.timers.length
      · rw [List.getElem?_append_left old] at waits
        have other := timers.waiting i waits
        rw [start.2] at other
        cases other
      · have inside := (List.getElem?_eq_some_iff.mp waits).1
        rw [List.length_append, List.length_singleton] at inside
        have same : i = t.timers.length := by omega
        rw [same]
  · have skip : ¬ (0 < t.buffer.nextProduceRecords ∧ t.buffer.nextProduceFlushTimer = false) := by
      rw [linked]
      simpa using start
    rw [if_neg start, if_neg skip]
    refine ⟨rfl, timers, current, fun some unset => start ⟨by omega, unset⟩⟩

theorem Timers.addChunks (timers : t.Timers) (current : t.Current) {chunks : List (Promised W D)}
    {refused : List D} (added : t.addChunks chunks = some (t', refused)) :
    t.buffer.addChunks chunks = some (t'.buffer, refused) ∧ t'.Timers ∧ t'.Current ∧
      (t.buffer.closed = false → t'.buffer.nextProduceRecords ≠ 0 →
        t'.nextProduceFlushTimer ≠ none) := by
  unfold TimedBuffer.addChunks at added
  unfold AgentBuffer.addChunks
  split at added
  · rename_i closed
    obtain ⟨rfl, rfl⟩ := Prod.mk.inj (Option.some.inj added)
    rw [if_pos closed]
    refine ⟨rfl, timers, current, fun isOpen => ?_⟩
    rw [closed] at isOpen
    cases isOpen
  · rename_i isOpen
    simp only [Option.bind_eq_bind, Option.bind_eq_some_iff] at added
    obtain ⟨mid, folded, eq⟩ := added
    obtain ⟨rfl, rfl⟩ := Prod.mk.inj (Option.some.inj eq)
    obtain ⟨buffer, timers, current⟩ := timers.foldlM_add current folded
    obtain ⟨erased, timers', current', armed⟩ := timers.maybeStart current
    rw [if_neg isOpen, buffer, erased]
    refine ⟨rfl, timers', current', fun _ pending => armed ?_⟩
    rw [AgentBuffer.maybeStartNextFlushTimerLocked_eq] at pending
    exact pending

/-- What holds whenever the mutex is free. -/
structure Free (t : TimedBuffer W D) : Prop where
  shape : t.buffer.Shape
  timers : t.Timers
  current : t.Current
  armed : t.buffer.closed = false → t.buffer.nextProduceRecords ≠ 0 →
    t.nextProduceFlushTimer ≠ none
  closed : t.buffer.closed = true → t.buffer.nextProduceRecords = 0

theorem free_init (nodeID : Int) (batchMaxBytes : Nat) :
    (init nodeID batchMaxBytes : TimedBuffer W D).Free where
  shape := ⟨rfl, rfl, by simp [init], Or.inl (Nat.zero_le _)⟩
  timers := ⟨rfl, fun set => absurd rfl set, by simp [init]⟩
  current set := absurd rfl set
  armed _ pending := absurd rfl pending
  closed _ := rfl

/-- After a flush nothing is pending. -/
theorem Free.of_startFlushLocked (shape : t.buffer.Shape) (timers : t.Timers)
    (started : t.startFlushLocked = some t') : t'.Free := by
  obtain ⟨flushed, timers', current'⟩ := timers.startFlushLocked started
  obtain ⟨moves, idle, -⟩ := AgentBuffer.startFlushLocked_moves flushed
  have shape' := shape.moves moves fun p mem => absurd mem List.not_mem_nil
  exact ⟨shape', timers', current', fun _ pending => absurd idle pending, fun _ => idle⟩

theorem Free.addChunks (free : t.Free) {chunks : List (Promised W D)} {refused : List D}
    (filled : ∀ p ∈ chunks, 0 < recordCount p.item)
    (added : t.addChunks chunks = some (t', refused)) : t'.Free := by
  obtain ⟨buffer, timers, current, armed⟩ := free.timers.addChunks free.current added
  rcases AgentBuffer.addChunks_cases buffer with ⟨closed, same, -⟩ | ⟨isOpen, stillOpen, -, moves⟩
  · refine ⟨same ▸ free.shape, timers, current, fun isOpen => ?_, fun _ => ?_⟩
    · rw [same, closed] at isOpen
      cases isOpen
    · rw [same]
      exact free.closed closed
  · refine ⟨free.shape.moves moves filled, timers, current, fun _ => armed isOpen, fun closed => ?_⟩
    rw [stillOpen] at closed
    cases closed

theorem Free.fire (free : t.Free) {i : Nat} (fired : t.fire i = some t') : t'.Free := by
  unfold TimedBuffer.fire at fired
  split at fired
  · rename_i waits
    obtain rfl := Option.some.inj fired
    have inside := (List.getElem?_eq_some_iff.mp waits).1
    refine ⟨free.shape, ⟨free.timers.linked, free.timers.pending, ?_⟩, ?_, free.armed, free.closed⟩
    · intro j waits
      change (t.timers.set i .fired)[j]? = some .waiting at waits
      by_cases same : i = j
      · subst same
        rw [List.getElem?_set_self inside] at waits
        cases waits
      · rw [List.getElem?_set_ne same] at waits
        exact free.timers.waiting j waits
    · intro set
      obtain ⟨j, current, state⟩ := free.current set
      refine ⟨j, current, ?_⟩
      change (t.timers.set i .fired)[j]? = some .waiting ∨ (t.timers.set i .fired)[j]? = some .fired
      by_cases same : i = j
      · subst same
        exact Or.inr (List.getElem?_set_self inside)
      · rwa [List.getElem?_set_ne same]
  · cases fired

omit [RoutedBatch W] in
theorem Timers.ran (timers : t.Timers) (i : Nat) :
    Timers { t with timers := t.timers.set i .ran } := by
  refine ⟨timers.linked, timers.pending, ?_⟩
  intro j waits
  change (t.timers.set i .ran)[j]? = some .waiting at waits
  by_cases same : i = j
  · subst same
    have inside := (List.getElem?_eq_some_iff.mp waits).1
    rw [List.length_set] at inside
    rw [List.getElem?_set_self inside] at waits
    cases waits
  · rw [List.getElem?_set_ne same] at waits
    exact timers.waiting j waits

omit [RoutedBatch W] in
theorem Timers.closed (timers : t.Timers) :
    Timers { t with buffer := { t.buffer with closed := true } } :=
  ⟨timers.linked, timers.pending, timers.waiting⟩

theorem Free.timerFlush (free : t.Free) {i : Nat} (flushed : t.timerFlush i = some t') :
    t'.Free := by
  unfold TimedBuffer.timerFlush at flushed
  split at flushed
  · exact Free.of_startFlushLocked (t := { t with timers := t.timers.set i .ran }) free.shape
      (free.timers.ran i) flushed
  · cases flushed

theorem Free.close (free : t.Free) (closing : t.close = some t') : t'.Free := by
  unfold TimedBuffer.close at closing
  split at closing
  · obtain rfl := Option.some.inj closing
    exact free
  · have shape := free.shape
    refine Free.of_startFlushLocked (t := { t with buffer := { t.buffer with closed := true } })
      ?_ free.timers.closed closing
    exact ⟨shape.records, shape.bytes, shape.nonempty, shape.cap⟩

/-- Without its timers a step is one of `AgentBuffer`. -/
theorem Free.buffer_step (free : t.Free) {action : Action W D} (stepped : t.step action = some t') :
    match action with
    | .add p fanIn => ∃ refused, t.buffer.add p fanIn = some (t'.buffer, refused)
    | .multiAdd items fanIn => ∃ refused, t.buffer.multiAdd items fanIn = some (t'.buffer, refused)
    | .fire _ => t'.buffer = t.buffer
    | .timerFlush _ => t.buffer.timerFlush = some t'.buffer
    | .close => t.buffer.close = some t'.buffer := by
  have multiAdd {items : List (Promised W D)} {fanIn : Nat → D} {refused : List D}
      (added : t.multiAdd items fanIn = some (t', refused)) :
      t.buffer.multiAdd items fanIn = some (t'.buffer, refused) := by
    unfold TimedBuffer.multiAdd at added
    unfold AgentBuffer.multiAdd
    split at added
    · rename_i none
      obtain ⟨rfl, rfl⟩ := Prod.mk.inj (Option.some.inj added)
      rw [if_pos none]
    · rename_i some
      rw [if_neg some]
      exact (free.timers.addChunks free.current added).1
  cases action with
  | add p fanIn =>
      obtain ⟨⟨_, refused⟩, added, rfl⟩ := Option.map_eq_some_iff.mp stepped
      refine ⟨refused, ?_⟩
      unfold TimedBuffer.add at added
      unfold AgentBuffer.add
      split at added
      · rename_i none
        obtain ⟨rfl, rfl⟩ := Prod.mk.inj (Option.some.inj added)
        rw [if_pos none]
      · rename_i some
        rw [if_neg some]
        split at added
        · rename_i large
          rw [if_pos large]
          exact multiAdd added
        · rename_i fits
          rw [if_neg fits]
          exact (free.timers.addChunks free.current added).1
  | multiAdd items fanIn =>
      obtain ⟨⟨_, refused⟩, added, rfl⟩ := Option.map_eq_some_iff.mp stepped
      exact ⟨refused, multiAdd added⟩
  | fire i =>
      simp only [TimedBuffer.step, TimedBuffer.fire] at stepped
      split at stepped
      · obtain rfl := Option.some.inj stepped
        rfl
      · cases stepped
  | timerFlush i =>
      simp only [TimedBuffer.step, TimedBuffer.timerFlush] at stepped
      split at stepped
      · exact ((free.timers.ran i).startFlushLocked stepped).1
      · cases stepped
  | close =>
      simp only [TimedBuffer.step, TimedBuffer.close] at stepped
      simp only [AgentBuffer.close]
      split at stepped
      · rename_i closed
        obtain rfl := Option.some.inj stepped
        rw [if_pos closed]
      · rename_i isOpen
        rw [if_neg isOpen]
        exact (free.timers.closed.startFlushLocked stepped).1

section Split

variable [LawfulSplit W]

theorem filled_split {p : Promised W D} (some : 0 < recordCount p.item) (max : Nat) (fanIn : D) :
    ∀ c ∈ splitPromisedRoutedBatchByBatchMaxBytes p max fanIn, 0 < recordCount c.item := by
  intro c mem
  unfold splitPromisedRoutedBatchByBatchMaxBytes at mem
  simp only at mem
  split at mem
  · rwa [List.mem_singleton.mp mem]
  · obtain ⟨chunk, inside, rfl⟩ := List.mem_map.mp mem
    exact LawfulSplit.nonempty p.item max some chunk inside

theorem filled_splitAll {items : List (Promised W D)} (max : Nat) (fanIn : Nat → D)
    (filled : ∀ p ∈ items, 0 < recordCount p.item) :
    ∀ c ∈ AgentBuffer.splitAll max fanIn items, 0 < recordCount c.item := by
  induction items generalizing fanIn with
  | nil => simp [AgentBuffer.splitAll]
  | cons p rest ih =>
      intro c mem
      rcases List.mem_append.mp mem with here | later
      · exact filled_split (filled p List.mem_cons_self) max (fanIn 0) c here
      · exact ih _ (fun q inside => filled q (List.mem_cons_of_mem _ inside)) c later

theorem Free.multiAdd (free : t.Free) {items : List (Promised W D)} {fanIn : Nat → D}
    {refused : List D} (filled : ∀ p ∈ items, 0 < recordCount p.item)
    (added : t.multiAdd items fanIn = some (t', refused)) : t'.Free := by
  unfold TimedBuffer.multiAdd at added
  split at added
  · obtain ⟨rfl, -⟩ := Prod.mk.inj (Option.some.inj added)
    exact free
  · exact free.addChunks (filled_splitAll _ fanIn filled) added

theorem Free.add (free : t.Free) {p : Promised W D} {fanIn : Nat → D} {refused : List D}
    (added : t.add p fanIn = some (t', refused)) : t'.Free := by
  unfold TimedBuffer.add at added
  split at added
  · obtain ⟨rfl, -⟩ := Prod.mk.inj (Option.some.inj added)
    exact free
  · rename_i some
    have filled : ∀ q ∈ [p], 0 < recordCount q.item := by
      intro q mem
      rw [List.mem_singleton.mp mem]
      omega
    split at added
    · exact free.multiAdd filled added
    · exact free.addChunks filled added

theorem Free.step (free : t.Free) {action : Action W D} (filled : action.Filled)
    (stepped : t.step action = some t') : t'.Free := by
  cases action with
  | add p fanIn =>
      obtain ⟨⟨_, refused⟩, added, rfl⟩ := Option.map_eq_some_iff.mp stepped
      exact free.add added
  | multiAdd items fanIn =>
      obtain ⟨⟨_, refused⟩, added, rfl⟩ := Option.map_eq_some_iff.mp stepped
      exact free.multiAdd filled added
  | fire i => exact free.fire stepped
  | timerFlush i => exact free.timerFlush stepped
  | close => exact free.close stepped

end Split

/-- Whatever is called and whichever timers fire, whenever the mutex is free: the counters are
the sums over the pending items, an open buffer has something pending exactly when its timer is
armed, the bytes are within the cap unless one item alone is pending, and a closed buffer has
nothing pending. No other timer is left waiting. -/
theorem agentBuffer_representation [LawfulSplit W] (nodeID : Int) (batchMaxBytes : Nat)
    {actions : List (Action W D)} (filled : ∀ action ∈ actions, action.Filled)
    (ran : Machine.run step (init nodeID batchMaxBytes) actions = some t) :
    t.buffer.nextProduceRecords =
        (t.buffer.nextProduceItems.map fun p => recordCount p.item).sum ∧
      t.buffer.nextProduceWireBytes =
        (t.buffer.nextProduceItems.map fun p => uncompressedWireBytes p.item).sum ∧
      (t.buffer.closed = false → (t.buffer.nextProduceItems ≠ [] ↔ t.Armed)) ∧
      (t.buffer.nextProduceWireBytes ≤ t.buffer.batchMaxBytes ∨
        t.buffer.nextProduceItems.length = 1) ∧
      (t.buffer.closed = true → t.buffer.nextProduceItems = []) ∧
      ∀ i, t.timers[i]? = some .waiting → t.nextProduceFlushTimer = some i := by
  have free : t.Free := Machine.invariant_run_of_mem Action.Filled Free
    (fun s action s' free filled stepped => free.step filled stepped)
    (free_init nodeID batchMaxBytes) filled ran
  have shape := free.shape
  refine ⟨shape.records, shape.bytes, ?_, shape.cap, ?_, free.timers.waiting⟩
  · intro isOpen
    rw [shape.pending_iff]
    constructor
    · intro pending
      exact free.current (free.armed isOpen pending)
    · rintro ⟨i, current, -⟩
      apply free.timers.pending
      rw [current]
      simp
  · intro closed
    by_contra pending
    exact shape.pending_iff.mp pending (free.closed closed)

/-- The second item does not fit beside the first, whose timer has fired but not flushed yet. -/
theorem agentBuffer_representation_stale :
    let p : Promised RoutedTopicPartitionRecords Unit := ⟨⟨"t", 0, [{}], 1, .healthy⟩, ()⟩
    let actions := [Action.add p fun _ => (), .fire 0, .add p fun _ => ()]
    ∃ t, Machine.run step (init 1 100) actions = some t ∧ t.timers = [.fired, .waiting] ∧
      t.buffer.nextProduceItems ≠ [] ∧ t.Armed := by
  intro p actions
  have state : (Machine.run step (init 1 100) actions).map
      (fun t => (t.timers, t.buffer.nextProduceItems, t.buffer.closed)) =
      some ([.fired, .waiting], [p], false) := by decide
  obtain ⟨t, ran, eq⟩ := Option.map_eq_some_iff.mp state
  simp only [Prod.mk.injEq] at eq
  have filled : ∀ action ∈ actions, action.Filled := by
    simp [actions, Action.Filled]
  obtain ⟨-, -, armed, -⟩ := agentBuffer_representation 1 100 filled ran
  have pending : t.buffer.nextProduceItems ≠ [] := by simp [eq.2.1]
  exact ⟨t, ran, eq.1, pending, (armed eq.2.2).mp pending⟩

end TimedBuffer

end Warpstream
