import Warpstream.AgentBufferTimers

set_option autoImplicit false

/- The agent's buffer on a clock. The linger timer is set for the oldest pending item, so no item
waits longer than the linger and the time a timer's callback takes to get the mutex. -/
namespace Warpstream

open RoutedBatch

/-- The callback of the timer is still to come. -/
def LingerTimer.live : LingerTimer → Bool
  | .waiting | .fired => true
  | .stopped | .ran => false

namespace TimedBuffer

variable {W D : Type}

/-- The action at a time: the callbacks carry the time of the call. -/
def Action.stamp (now : Nat) : Action W D → Action W (D × Nat)
  | .add p fanIn => .add ⟨p.item, (p.done, now)⟩ fun k => (fanIn k, now)
  | .multiAdd items fanIn =>
      .multiAdd (items.map fun p => ⟨p.item, (p.done, now)⟩) fun k => (fanIn k, now)
  | .fire i => .fire i
  | .timerFlush i => .timerFlush i
  | .close => .close

end TimedBuffer

/-- `deadlines` are when the linger of each timer ends, `startedAt` when each flush started. -/
structure LingerClock (W D : Type) where
  timed : TimedBuffer W (D × Nat)
  linger : Nat
  now : Nat := 0
  deadlines : List Nat := []
  startedAt : List Nat := []

inductive LingerAction (W D : Type) where
  | call (action : TimedBuffer.Action W D)
  | advance (time : Nat)

namespace LingerClock

variable {W D : Type}

def init (nodeID : Int) (batchMaxBytes linger : Nat) : LingerClock W D :=
  { timed := TimedBuffer.init nodeID batchMaxBytes, linger := linger }

def follow (s : LingerClock W D) (timed : TimedBuffer W (D × Nat)) : LingerClock W D :=
  { s with
    timed := timed
    deadlines := s.deadlines ++
      List.replicate (timed.timers.length - s.deadlines.length) (s.now + s.linger)
    startedAt := s.startedAt ++
      List.replicate (timed.buffer.flushes.length - s.startedAt.length) s.now }

/-- A timer fires no earlier than its deadline. -/
def mayRun (s : LingerClock W D) : TimedBuffer.Action W D → Bool
  | .fire i => (s.deadlines[i]?).any fun deadline => deadline ≤ s.now
  | _ => true

/-- At `time` no callback of a timer is more than `latency` late. -/
def punctual (latency : Nat) (s : LingerClock W D) (time : Nat) : Bool :=
  (s.timed.timers.zip s.deadlines).all fun t => !t.1.live || time ≤ t.2 + latency

variable [RoutedBatch W]

/-- `latency` is how long the callback of a timer takes to fire and to get the mutex. -/
def step (latency : Nat) (s : LingerClock W D) : LingerAction W D → Option (LingerClock W D)
  | .call action =>
      if s.mayRun action then (s.timed.step (action.stamp s.now)).map s.follow else none
  | .advance time =>
      if s.now ≤ time && s.punctual latency time then some { s with now := time } else none

end LingerClock

/-- The items of a `MultiAdd` have records. -/
def LingerAction.Filled {W D : Type} [RoutedBatch W] : LingerAction W D → Prop
  | .call action => action.Filled
  | .advance _ => True

namespace AgentBuffer

variable {W D : Type} [RoutedBatch W]

theorem mem_splitAll_done {max : Nat} {fanIn : Nat → D} {items : List (Promised W D)}
    {chunk : Promised W D} (mem : chunk ∈ splitAll max fanIn items) :
    (∃ p ∈ items, chunk.done = p.done) ∨ ∃ k, chunk.done = fanIn k := by
  induction items generalizing fanIn with
  | nil => cases mem
  | cons p rest ih =>
      rcases List.mem_append.mp mem with here | later
      · unfold splitPromisedRoutedBatchByBatchMaxBytes at here
        simp only at here
        split at here
        · obtain rfl := List.mem_singleton.mp here
          exact Or.inl ⟨chunk, List.mem_cons_self, rfl⟩
        · obtain ⟨part, -, rfl⟩ := List.mem_map.mp here
          exact Or.inr ⟨0, rfl⟩
      · rcases ih later with ⟨q, inside, same⟩ | ⟨k, same⟩
        · exact Or.inl ⟨q, List.mem_cons_of_mem _ inside, same⟩
        · exact Or.inr ⟨k + 1, same⟩

end AgentBuffer

namespace TimedBuffer

variable {W D : Type} [RoutedBatch W] {t t' : TimedBuffer W D} {New : D → Prop}

/-- What a step does with the pending items: each flush that it starts has items that were
pending or are new, and an item that was pending and still is has the same timer. -/
structure Passes (New : D → Prop) (t t' : TimedBuffer W D) : Prop where
  started : ∃ new, t'.buffer.flushes = t.buffer.flushes ++ new ∧
    ∀ f ∈ new, ∀ e ∈ f.entries, e ∈ t.buffer.nextProduceItems ∨ New e.done
  pending : ∀ p ∈ t'.buffer.nextProduceItems, New p.done ∨
    p ∈ t.buffer.nextProduceItems ∧ t'.nextProduceFlushTimer = t.nextProduceFlushTimer
  longer : t.timers.length ≤ t'.timers.length
  timers : ∀ (i : Nat) (old now : LingerTimer), t.timers[i]? = some old →
    t'.timers[i]? = some now → now.live = true → old.live = true

omit [RoutedBatch W] in
theorem Passes.refl (t : TimedBuffer W D) : Passes New t t where
  started := ⟨[], (List.append_nil _).symm, List.forall_mem_nil _⟩
  pending _ mem := Or.inr ⟨mem, rfl⟩
  longer := Nat.le_refl _
  timers _ _ _ before after live := by
    obtain rfl := Option.some.inj (before.symm.trans after)
    exact live

omit [RoutedBatch W] in
theorem Passes.trans {t'' : TimedBuffer W D} (first : Passes New t t') (second : Passes New t' t'') :
    Passes New t t'' := by
  obtain ⟨new, flushes, each⟩ := first.started
  obtain ⟨more, flushes', each'⟩ := second.started
  refine ⟨⟨new ++ more, by rw [flushes', flushes, List.append_assoc], fun f mem e entry => ?_⟩,
    fun p mem => ?_, Nat.le_trans first.longer second.longer, fun i old now before after live => ?_⟩
  · rcases List.mem_append.mp mem with here | later
    · exact each f here e entry
    · rcases each' f later e entry with was | now
      · exact (first.pending e was).symm.imp_left And.left
      · exact Or.inr now
  · rcases second.pending p mem with now | ⟨was, same⟩
    · exact Or.inl now
    · exact (first.pending p was).imp_right fun before => ⟨before.1, same.trans before.2⟩
  · have inside : i < t'.timers.length :=
      Nat.lt_of_lt_of_le (List.getElem?_eq_some_iff.mp before).1 first.longer
    have mid := List.getElem?_eq_getElem inside
    exact first.timers i old _ before mid (second.timers i _ now mid after live)

theorem Passes.appendNextProduce (p : Promised W D) (new : New p.done) :
    Passes New t (t.appendNextProduce p) where
  started := ⟨[], (List.append_nil _).symm, List.forall_mem_nil _⟩
  pending q mem := by
    rcases List.mem_append.mp mem with old | here
    · exact Or.inr ⟨old, rfl⟩
    · rw [List.mem_singleton.mp here]
      exact Or.inl new
  longer := Nat.le_refl _
  timers := (Passes.refl t : Passes New t t).timers

theorem live_stop {timer : LingerTimer} (live : timer.stop.live = true) : timer.live = true := by
  cases timer <;> first | rfl | exact live

theorem Passes.startFlushLocked (started : t.startFlushLocked = some t') : Passes New t t' := by
  unfold TimedBuffer.startFlushLocked at started
  split at started
  · obtain rfl := Option.some.inj started
    exact .refl t
  · rename_i pending
    simp only [Option.bind_eq_bind, Option.bind_eq_some_iff] at started
    obtain ⟨buffer, flushed, eq⟩ := started
    obtain rfl := Option.some.inj eq
    rw [AgentBuffer.startFlushLocked, if_neg pending] at flushed
    obtain ⟨wire, -, rfl⟩ := Option.map_eq_some_iff.mp flushed
    refine ⟨⟨[⟨t.buffer.nextProduceItems, wire⟩], rfl, fun f mem e entry => ?_⟩,
      List.forall_mem_nil _, ?_, fun i old now before after live => ?_⟩
    · obtain rfl := List.mem_singleton.mp mem
      exact Or.inl entry
    · cases t.nextProduceFlushTimer with
      | none => exact Nat.le_refl _
      | some i => simp
    · cases current : t.nextProduceFlushTimer with
      | none =>
          simp only [current] at after
          obtain rfl := Option.some.inj (before.symm.trans after)
          exact live
      | some j =>
          simp only [current, List.getElem?_modify, before] at after
          obtain rfl := Option.some.inj after
          split at live
          · exact live_stop live
          · exact live

theorem Passes.addToNextProduceLocked {p : Promised W D} (new : New p.done)
    (added : t.addToNextProduceLocked p = some t') : Passes New t t' := by
  unfold TimedBuffer.addToNextProduceLocked at added
  split at added
  · obtain ⟨mid, started, rfl⟩ := Option.map_eq_some_iff.mp added
    exact (Passes.startFlushLocked started).trans (.appendNextProduce p new)
  · obtain rfl := Option.some.inj added
    exact .appendNextProduce p new

theorem Passes.foldlM_add {chunks : List (Promised W D)} (new : ∀ p ∈ chunks, New p.done)
    (added : chunks.foldlM TimedBuffer.addToNextProduceLocked t = some t') : Passes New t t' := by
  induction chunks generalizing t with
  | nil =>
      obtain rfl := Option.some.inj added
      exact .refl t
  | cons p rest ih =>
      rw [List.foldlM_cons] at added
      simp only [Option.bind_eq_bind, Option.bind_eq_some_iff] at added
      obtain ⟨mid, first, later⟩ := added
      exact (Passes.addToNextProduceLocked (new p List.mem_cons_self) first).trans
        (ih (fun q mem => new q (List.mem_cons_of_mem _ mem)) later)

/-- A timer is set for pending items that are new, since those before had one. -/
theorem Passes.maybeStart {start : TimedBuffer W D} (free : start.Free)
    (isOpen : start.buffer.closed = false) (passes : Passes New start t) :
    Passes New start t.maybeStartNextFlushTimerLocked := by
  unfold maybeStartNextFlushTimerLocked
  split
  · rename_i unset
    refine ⟨passes.started, fun p mem => ?_, ?_, fun i old now before after live => ?_⟩
    · refine (passes.pending p mem).imp_right fun was => absurd ?_ (free.armed isOpen ?_)
      · exact was.2.symm.trans unset.2
      · exact free.shape.pending_iff.mp (List.ne_nil_of_mem was.1)
    · have longer := passes.longer
      rw [List.length_append]
      omega
    · have inside := Nat.lt_of_lt_of_le (List.getElem?_eq_some_iff.mp before).1 passes.longer
      rw [List.getElem?_append_left inside] at after
      exact passes.timers i old now before after live
  · exact passes

theorem Passes.addChunks (free : t.Free) {chunks : List (Promised W D)} {refused : List D}
    (new : ∀ p ∈ chunks, New p.done) (added : t.addChunks chunks = some (t', refused)) :
    Passes New t t' := by
  unfold TimedBuffer.addChunks at added
  split at added
  · obtain ⟨rfl, -⟩ := Prod.mk.inj (Option.some.inj added)
    exact .refl t
  · rename_i isOpen
    simp only [Option.bind_eq_bind, Option.bind_eq_some_iff] at added
    obtain ⟨mid, folded, eq⟩ := added
    obtain ⟨rfl, -⟩ := Prod.mk.inj (Option.some.inj eq)
    exact (Passes.foldlM_add new folded).maybeStart free (by simpa using isOpen)

theorem Passes.multiAdd (free : t.Free) {items : List (Promised W D)} {fanIn : Nat → D}
    {refused : List D} (new : ∀ p ∈ items, New p.done) (shared : ∀ k, New (fanIn k))
    (added : t.multiAdd items fanIn = some (t', refused)) : Passes New t t' := by
  unfold TimedBuffer.multiAdd at added
  split at added
  · obtain ⟨rfl, -⟩ := Prod.mk.inj (Option.some.inj added)
    exact .refl t
  · refine Passes.addChunks free (fun p mem => ?_) added
    rcases AgentBuffer.mem_splitAll_done mem with ⟨q, inside, same⟩ | ⟨k, same⟩
    · rw [same]
      exact new q inside
    · rw [same]
      exact shared k

omit [RoutedBatch W] in
/-- A timer that fires, or whose callback runs. -/
theorem Passes.setTimer {i : Nat} {old : LingerTimer} (found : t.timers[i]? = some old)
    (live : old.live = true) (timer : LingerTimer) :
    Passes New t { t with timers := t.timers.set i timer } where
  started := ⟨[], (List.append_nil _).symm, List.forall_mem_nil _⟩
  pending _ mem := Or.inr ⟨mem, rfl⟩
  longer := Nat.le_of_eq List.length_set.symm
  timers j before now was after alive := by
    by_cases same : i = j
    · subst same
      obtain rfl := Option.some.inj (found.symm.trans was)
      exact live
    · rw [List.getElem?_set_ne same] at after
      obtain rfl := Option.some.inj (was.symm.trans after)
      exact alive

theorem Passes.step {now : Nat} {t t' : TimedBuffer W (D × Nat)} (free : t.Free)
    {action : Action W D} (stepped : t.step (action.stamp now) = some t') :
    Passes (fun done => done.2 = now) t t' := by
  cases action with
  | add p fanIn =>
      obtain ⟨⟨_, refused⟩, added, rfl⟩ := Option.map_eq_some_iff.mp stepped
      unfold TimedBuffer.add at added
      split at added
      · obtain ⟨rfl, -⟩ := Prod.mk.inj (Option.some.inj added)
        exact .refl t
      · split at added
        · exact Passes.multiAdd free (by simp) (fun _ => rfl) added
        · exact Passes.addChunks free (by simp) added
  | multiAdd items fanIn =>
      obtain ⟨⟨_, refused⟩, added, rfl⟩ := Option.map_eq_some_iff.mp stepped
      refine Passes.multiAdd free (fun p mem => ?_) (fun _ => rfl) added
      obtain ⟨q, -, rfl⟩ := List.mem_map.mp mem
      rfl
  | fire i =>
      simp only [Action.stamp, TimedBuffer.step, TimedBuffer.fire] at stepped
      split at stepped
      · obtain rfl := Option.some.inj stepped
        exact .setTimer ‹_› rfl .fired
      · cases stepped
  | timerFlush i =>
      simp only [Action.stamp, TimedBuffer.step, TimedBuffer.timerFlush] at stepped
      split at stepped
      · exact (Passes.setTimer ‹_› rfl .ran).trans (.startFlushLocked stepped)
      · cases stepped
  | close =>
      simp only [Action.stamp, TimedBuffer.step, TimedBuffer.close] at stepped
      split at stepped
      · obtain rfl := Option.some.inj stepped
        exact .refl t
      · have flushed : Passes (fun done => done.2 = now) _ t' := .startFlushLocked stepped
        exact ⟨flushed.started, flushed.pending, flushed.longer, flushed.timers⟩

end TimedBuffer

namespace LingerClock

variable {W D : Type} [RoutedBatch W] {s s' : LingerClock W D} {latency : Nat}

/-- The timer of the pending items was set no later than the first of them was added, and no
callback of a timer is late. -/
structure Inv (latency : Nat) (s : LingerClock W D) : Prop where
  free : s.timed.Free
  timers : s.deadlines.length = s.timed.timers.length
  flushes : s.startedAt.length = s.timed.buffer.flushes.length
  set : ∀ deadline ∈ s.deadlines, deadline ≤ s.now + s.linger
  punctual : ∀ (i : Nat) (timer : LingerTimer) (deadline : Nat), s.timed.timers[i]? = some timer →
    s.deadlines[i]? = some deadline → timer.live = true → s.now ≤ deadline + latency
  pending : ∀ p ∈ s.timed.buffer.nextProduceItems, p.done.2 ≤ s.now ∧
    ∀ (i deadline : Nat), s.timed.nextProduceFlushTimer = some i →
      s.deadlines[i]? = some deadline → deadline ≤ p.done.2 + s.linger
  started : ∀ (k : Nat) (f : Flush W (D × Nat)) (time : Nat),
    s.timed.buffer.flushes[k]? = some f → s.startedAt[k]? = some time →
      ∀ e ∈ f.entries, e.done.2 ≤ time ∧ time ≤ e.done.2 + s.linger + latency

/-- A pending item has waited for the linger and the latency at most. -/
theorem Inv.waited (inv : Inv latency s) {p : Promised W (D × Nat)}
    (mem : p ∈ s.timed.buffer.nextProduceItems) :
    p.done.2 ≤ s.now ∧ s.now ≤ p.done.2 + s.linger + latency := by
  obtain ⟨past, timer⟩ := inv.pending p mem
  have records := inv.free.shape.pending_iff.mp (List.ne_nil_of_mem mem)
  have isOpen : s.timed.buffer.closed = false := by
    by_contra closed
    exact records (inv.free.closed (by simpa using closed))
  obtain ⟨i, current, state⟩ := inv.free.current (inv.free.armed isOpen records)
  have inside : i < s.deadlines.length := by
    rw [inv.timers]
    rcases state with waits | fired
    · exact (List.getElem?_eq_some_iff.mp waits).1
    · exact (List.getElem?_eq_some_iff.mp fired).1
  have place := List.getElem?_eq_getElem inside
  have soon := timer i _ current place
  have late : s.now ≤ s.deadlines[i] + latency := by
    rcases state with waits | fired
    · exact inv.punctual i _ _ waits place rfl
    · exact inv.punctual i _ _ fired place rfl
  exact ⟨past, by omega⟩

theorem Inv.follow (inv : Inv latency s) {timed : TimedBuffer W (D × Nat)} (free : timed.Free)
    (passes : TimedBuffer.Passes (fun done => done.2 = s.now) s.timed timed) :
    Inv latency (s.follow timed) := by
  obtain ⟨new, flushes, each⟩ := passes.started
  have longer := passes.longer
  have set' : ∀ deadline ∈ (s.follow timed).deadlines, deadline ≤ s.now + s.linger := by
    intro deadline mem
    rcases List.mem_append.mp mem with old | fresh
    · exact inv.set deadline old
    · rw [(List.mem_replicate.mp fresh).2]
  refine ⟨free, ?_, ?_, set', ?_, ?_, ?_⟩
  · rw [LingerClock.follow, List.length_append, List.length_replicate, inv.timers]
    exact Nat.add_sub_cancel' longer
  · rw [LingerClock.follow, List.length_append, List.length_replicate, inv.flushes]
    have more := congrArg List.length flushes
    rw [List.length_append] at more
    exact Nat.add_sub_cancel' (by omega)
  · intro i timer deadline place at_ live
    by_cases old : i < s.deadlines.length
    · have was : i < s.timed.timers.length := inv.timers ▸ old
      have before := List.getElem?_eq_getElem was
      simp only [LingerClock.follow] at at_
      rw [List.getElem?_append_left old] at at_
      exact inv.punctual i _ deadline before at_ (passes.timers i _ timer before place live)
    · -- a timer that was set in this step has its whole linger ahead
      have fresh : deadline = s.now + s.linger := by
        simp only [LingerClock.follow] at at_
        rw [List.getElem?_append_right (Nat.le_of_not_lt old)] at at_
        exact (List.mem_replicate.mp (List.mem_of_getElem? at_)).2
      change s.now ≤ deadline + latency
      omega
  · intro p mem
    rcases passes.pending p mem with now | ⟨was, same⟩
    · refine ⟨Nat.le_of_eq now, fun i deadline _ at_ => ?_⟩
      have soon := set' deadline (List.mem_of_getElem? at_)
      change deadline ≤ p.done.2 + s.linger
      omega
    · obtain ⟨past, timer⟩ := inv.pending p was
      refine ⟨past, fun i deadline current at_ => ?_⟩
      have before := same.symm.trans current
      have inside : i < s.deadlines.length := by
        obtain ⟨j, set, state⟩ := inv.free.current (by rw [before]; simp)
        obtain rfl := Option.some.inj (before.symm.trans set)
        rw [inv.timers]
        rcases state with waits | fired
        · exact (List.getElem?_eq_some_iff.mp waits).1
        · exact (List.getElem?_eq_some_iff.mp fired).1
      simp only [LingerClock.follow] at at_
      rw [List.getElem?_append_left inside] at at_
      exact timer i deadline before at_
  · intro k f time place at_ e entry
    change timed.buffer.flushes[k]? = some f at place
    rw [flushes] at place
    simp only [LingerClock.follow] at at_
    by_cases old : k < s.startedAt.length
    · rw [List.getElem?_append_left (by rw [← inv.flushes]; exact old)] at place
      rw [List.getElem?_append_left old] at at_
      exact inv.started k f time place at_ e entry
    · rw [List.getElem?_append_right (by rw [← inv.flushes]; omega)] at place
      rw [List.getElem?_append_right (Nat.le_of_not_lt old)] at at_
      obtain rfl := (List.mem_replicate.mp (List.mem_of_getElem? at_)).2
      rcases each f (List.mem_of_getElem? place) e entry with was | now
      · exact inv.waited was
      · change e.done.2 ≤ s.now ∧ s.now ≤ e.done.2 + s.linger + latency
        omega

theorem inv_step [LawfulSplit W] (s : LingerClock W D) (action : LingerAction W D)
    (s' : LingerClock W D) (inv : Inv latency s) (filled : action.Filled)
    (stepped : s.step latency action = some s') : Inv latency s' := by
  cases action with
  | call action =>
      simp only [step] at stepped
      split at stepped
      · obtain ⟨timed, moved, rfl⟩ := Option.map_eq_some_iff.mp stepped
        refine inv.follow (inv.free.step ?_ moved) (.step inv.free moved)
        cases action with
        | multiAdd items fanIn =>
            intro p mem
            obtain ⟨q, inside, rfl⟩ := List.mem_map.mp mem
            exact filled q inside
        | add | fire | timerFlush | close => trivial
      · cases stepped
  | advance time =>
      simp only [step, Bool.and_eq_true, decide_eq_true_eq] at stepped
      split at stepped
      · rename_i may
        obtain rfl := Option.some.inj stepped
        obtain ⟨later, onTime⟩ := may
        refine { inv with set := fun deadline mem => ?_, punctual := ?_, pending := fun p mem => ?_ }
        · have before := inv.set deadline mem
          change deadline ≤ time + s.linger
          omega
        · intro i timer deadline place at_ live
          have paired : (timer, deadline) ∈ s.timed.timers.zip s.deadlines :=
            List.mem_of_getElem? (List.getElem?_zip_eq_some.mpr ⟨place, at_⟩)
          simpa [live] using List.all_eq_true.mp onTime _ paired
        · obtain ⟨past, timer⟩ := inv.pending p mem
          exact ⟨Nat.le_trans past later, timer⟩
      · cases stepped

theorem inv_init (nodeID : Int) (batchMaxBytes linger : Nat) :
    Inv latency (init nodeID batchMaxBytes linger : LingerClock W D) where
  free := TimedBuffer.free_init nodeID batchMaxBytes
  timers := rfl
  flushes := rfl
  set := List.forall_mem_nil _
  punctual _ _ _ found := by cases found
  pending := List.forall_mem_nil _
  started _ _ _ found := by cases found

theorem linger_step {action : LingerAction W D} (stepped : s.step latency action = some s') :
    s'.linger = s.linger := by
  cases action with
  | call action =>
      simp only [step] at stepped
      split at stepped
      · obtain ⟨timed, -, rfl⟩ := Option.map_eq_some_iff.mp stepped
        rfl
      · cases stepped
  | advance time =>
      simp only [step] at stepped
      split at stepped
      · obtain rfl := Option.some.inj stepped
        rfl
      · cases stepped

end LingerClock

/-- However calls, timers that fire and their callbacks interleave, if no callback of a timer is
more than `latency` late then no item is pending for longer than the linger and the latency, and
every flush starts within that time of the `Add` of each of its entries. -/
theorem agentBuffer_flushes_within_linger {W D : Type} [RoutedBatch W] [LawfulSplit W]
    (nodeID : Int) (batchMaxBytes linger latency : Nat) {actions : List (LingerAction W D)}
    {s : LingerClock W D} (filled : ∀ action ∈ actions, action.Filled)
    (runs : Machine.run (LingerClock.step latency) (LingerClock.init nodeID batchMaxBytes linger)
      actions = some s) :
    (∀ p ∈ s.timed.buffer.nextProduceItems,
      p.done.2 ≤ s.now ∧ s.now ≤ p.done.2 + linger + latency) ∧
    ∀ (k : Nat) f, s.timed.buffer.flushes[k]? = some f → ∃ time, s.startedAt[k]? = some time ∧
      ∀ e ∈ f.entries, e.done.2 ≤ time ∧ time ≤ e.done.2 + linger + latency := by
  obtain ⟨inv, rfl⟩ := Machine.invariant_run_of_mem LingerAction.Filled
    (fun s : LingerClock W D => s.Inv latency ∧ s.linger = linger)
    (fun s action s' held filled stepped => by
      obtain ⟨inv, rfl⟩ := held
      exact ⟨LingerClock.inv_step s action s' inv filled stepped, LingerClock.linger_step stepped⟩)
    ⟨LingerClock.inv_init nodeID batchMaxBytes linger, rfl⟩ filled runs
  refine ⟨fun p mem => inv.waited mem, fun k f place => ?_⟩
  have inside : k < s.startedAt.length := by
    rw [inv.flushes]
    exact (List.getElem?_eq_some_iff.mp place).1
  have at_ := List.getElem?_eq_getElem inside
  exact ⟨_, at_, inv.started k f _ place at_⟩

/-- The second item does not fit beside the first and flushes it. It waits for a timer of its
own, whose callback is a little late. -/
def lingerRun : List (LingerAction RoutedTopicPartitionRecords Unit) :=
  let p : Promised RoutedTopicPartitionRecords Unit := ⟨⟨"t", 0, [{}], 1, .healthy⟩, ()⟩
  [.call (.add p fun _ => ()), .advance 3, .call (.add p fun _ => ()), .advance 8, .call (.fire 1),
    .advance 9, .call (.timerFlush 1)]

theorem agentBuffer_flushes_within_linger_late :
    ∃ s, Machine.run (LingerClock.step 2) (LingerClock.init 1 100 5) lingerRun = some s ∧
      s.startedAt = [3, 9] ∧ ∃ f ∈ s.timed.buffer.flushes, ∃ e ∈ f.entries, 9 ≤ e.done.2 + 5 + 2 := by
  have state : (Machine.run (LingerClock.step 2) (LingerClock.init 1 100 5) lingerRun).map
      (fun s => (s.startedAt, s.timed.buffer.flushes.map fun f => f.entries.length)) =
      some ([3, 9], [1, 1]) := by decide
  obtain ⟨s, runs, eq⟩ := Option.map_eq_some_iff.mp state
  obtain ⟨times, counts⟩ := Prod.mk.inj eq
  have filled : ∀ action ∈ lingerRun, action.Filled := by
    simp [lingerRun, LingerAction.Filled, TimedBuffer.Action.Filled]
  have second : (s.timed.buffer.flushes.map fun f => f.entries.length)[1]? = some 1 := by
    rw [counts]
    rfl
  rw [List.getElem?_map, Option.map_eq_some_iff] at second
  obtain ⟨f, place, one⟩ := second
  obtain ⟨e, entry⟩ := List.length_eq_one_iff.mp one
  obtain ⟨time, at_, each⟩ := (agentBuffer_flushes_within_linger 1 100 5 2 filled runs).2 1 f place
  rw [times] at at_
  obtain rfl : 9 = time := Option.some.inj at_
  have mem : e ∈ f.entries := by
    rw [entry]
    exact List.mem_singleton_self e
  exact ⟨s, runs, times, f, List.mem_of_getElem? place, e, mem, (each e mem).2⟩

end Warpstream
