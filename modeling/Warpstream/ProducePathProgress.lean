import Warpstream.ClientClose
import Warpstream.ClusterBufferProgress
import Warpstream.ProducePathOnce

set_option autoImplicit false

/- The produce path goes on. What a record can still cause is priced when it is accepted, from
the buffers over the call of its flush to the waves of that call, and every step of the client,
of an agent or of a timer is paid for. As long as something is left to do, such a step is
possible, so no callback waits for anything but them. -/
namespace Warpstream

open RoutedBatch

theorem ClusterAction.map_added {W : Type} (action : ClusterAction W) :
    action.added.map Prod.snd = action.items := by
  cases action with
  | add | cancel | watchFires | timerFlush | close | run => rfl
  | multiAdd ctx items => simp [added, ClusterAction.items]

namespace HedgerCall

variable {c c' : HedgerCall}

def wavesLeft (c : HedgerCall) : Nat :=
  match c.cascade with
  | none => c.maxHedgeAgents
  | some cascade => c.maxHedgeAgents - cascade.attempts

/-- The steps of the call, and those of the hedge buffer for the waves that it may still
send. -/
def price (c : HedgerCall) : Nat := c.fuel + c.wavesLeft * (16 * c.routed.length)

theorem length_partitions (c : HedgerCall) : c.cfg.partitions.length = c.routed.length := by
  simp [cfg, unrouteEncodedTopicPartitionRecords]

theorem maxHedgeAgents_startCascade (c : HedgerCall) (trigger : HedgeTrigger) :
    (c.startCascade trigger).maxHedgeAgents = c.maxHedgeAgents :=
  congrArg HedgeConfig.maxHedgeAgents (c.cfg_startCascade trigger).1

theorem wavesLeft_startCascade (idle : c.cascade = none) (trigger : HedgeTrigger)
    (phase : CallPhase) :
    wavesLeft { c.startCascade trigger with phase := phase } ≤ c.wavesLeft := by
  have before : c.wavesLeft = c.maxHedgeAgents := by simp only [wavesLeft, idle]
  have same := c.maxHedgeAgents_startCascade trigger
  rw [before]
  simp only [wavesLeft]
  split
  · exact Nat.le_of_eq same
  · exact Nat.le_trans (Nat.sub_le _ _) (Nat.le_of_eq same)

theorem wavesLeft_step (inv : c.Inv) {action : CallAction} (stepped : c.step action = some c') :
    c'.wavesLeft ≤ c.wavesLeft := by
  have known := inv.phase
  cases moves_of_step stepped with
  | start fresh =>
      simp only [PhaseOk, fresh] at known
      unfold HedgerCall.begin
      split
      · exact Nat.le_refl _
      · split
        · exact Nat.le_refl _
        · split
          · split
            · exact wavesLeft_startCascade known.2.2.1 _ _
            · exact Nat.le_refl _
          · exact Nat.le_refl _
  | ctxEnds | primaryReturns => exact Nat.le_refl _
  | timerFires waits => exact wavesLeft_startCascade (inv.idle_of_waits (Or.inr waits)).2.1 _ _
  | @cascade action before after running moved =>
      have more : before.attempts ≤ after.attempts := by
        cases Cascade.move_of_step moved with
        | stop => exact Nat.le_refl _
        | dispatch => exact Nat.le_succ _
        | receive => exact Nat.le_refl _
      simp only [wavesLeft, running]
      omega
  | @cascadeReturns _ _ cascade _ running => simp only [wavesLeft, running, Nat.le_refl]
  | @takePrimary _ primary _ arrived next =>
      cases readsPrimary_of_onPrimary next with
      | won | lost | settled => exact Nat.le_refl _
      | failed waits failure =>
          have idle : (c.readPrimary primary).cascade = none := (inv.idle_of_waits waits).2.1
          exact wavesLeft_startCascade idle _ _
  | takeFallback arrived next =>
      obtain ⟨phase, metrics, -, rfl⟩ := (readsFallback_of_onFallback next).setsPhase
      exact Nat.le_refl _

/-- Every step of a call uses up some of its price. -/
theorem price_step (inv : c.Inv) {action : CallAction} (stepped : c.step action = some c') :
    c'.price < c.price := by
  have used := fuel_step c action c' inv stepped
  have waves := wavesLeft_step inv stepped
  have same := routed_step c action c' stepped
  have rest := Nat.mul_le_mul_right (16 * c.routed.length) waves
  rw [price, price, same]
  omega

/-- A wave is paid for by the budget of waves. -/
theorem price_dispatch (inv : c.Inv) {action : CallAction} {cascade : Cascade}
    {order : List EncodedTopicPartitionRecords} {legs : List HedgeLeg}
    {tried : GoMap TopicPartition (List Int)} {chosen : List (Int × EncodedTopicPartitionRecords)}
    (running : c.cascade = some cascade) (pending : cascade.acc.Remaining order)
    (picked : pickCandidates c.cfg cascade.tried order = .ok (tried, chosen))
    (stepped : c.step action = some { c with cascade := some (cascade.dispatch tried legs) }) :
    price { c with cascade := some (cascade.dispatch tried legs) } + 16 * order.length <
      c.price := by
  have ok := inv.core.cascade cascade running
  have keys := ok.acc.remaining_keys pending
  have distinct := keys.nodup_iff.mpr cascade.acc.pending.keys_nodup
  have inside : order.map EncodedTopicPartitionRecords.topicPartition ⊆ c.cfg.requested :=
    fun tp mem => (ok.acc.covers tp).mpr (Or.inl (keys.mem_iff.mp mem))
  have few : order.length ≤ c.routed.length := by
    rw [← c.length_partitions]
    simpa [HedgeConfig.requested] using (distinct.subperm inside).length_le
  by_cases empty : order = []
  · subst empty
    exact price_step inv stepped
  -- the first partition of the wave shows that the budget allows it
  obtain ⟨p, mem⟩ := List.exists_mem_of_ne_nil _ empty
  have waits := List.mem_map_of_mem (f := EncodedTopicPartitionRecords.topicPartition) mem
  have budget := (pickCandidates_tried distinct picked p.topicPartition).2 waits
  rw [ok.tried _ (keys.mem_iff.mp waits)] at budget
  have max : c.cfg.maxHedgeAgents = c.maxHedgeAgents := rfl
  have before : c.wavesLeft = c.maxHedgeAgents - (cascade.attempts + 1) + 1 := by
    simp only [wavesLeft, running]
    omega
  have after : wavesLeft { c with cascade := some (cascade.dispatch tried legs) } =
      c.maxHedgeAgents - (cascade.attempts + 1) := rfl
  have used := fuel_step c action _ inv stepped
  have paid : 16 * order.length ≤ 16 * c.routed.length := Nat.mul_le_mul_left 16 few
  simp only [price, before, after, Nat.add_mul, Nat.one_mul]
  omega

/-- What a call may cost is bounded when it begins. -/
theorem price_init {maxHedgeAgents : Nat} {primaryID : Int}
    {candidates : TopicPartition → List Agent} {routed : List RoutedEncodedTopicPartitionRecords}
    {n : Nat} (some : 0 < n) (few : routed.length ≤ n) :
    price { maxHedgeAgents, primaryID, candidates, routed } ≤ (19 * maxHedgeAgents + 8) * n := by
  have waves : maxHedgeAgents * (routed.length + 2) ≤ maxHedgeAgents * (3 * n) :=
    Nat.mul_le_mul_left _ (by omega)
  have hedge : maxHedgeAgents * (16 * routed.length) ≤ maxHedgeAgents * (16 * n) :=
    Nat.mul_le_mul_left _ (by omega)
  have total : (19 * maxHedgeAgents + 8) * n =
      maxHedgeAgents * (3 * n) + maxHedgeAgents * (16 * n) + 8 * n := by ring
  have start : price { maxHedgeAgents, primaryID, candidates, routed } =
      maxHedgeAgents * (routed.length + 2) + 8 + maxHedgeAgents * (16 * routed.length) := by
    simp only [price, fuel, wavesLeft, ctxFuel, primaryFuel, cascadeFuel, fallbackFuel,
      CallPhase.rank, length_partitions, Option.isNone_none, Option.isSome_none, ↓reduceIte,
      Bool.false_eq_true]
    omega
  omega

/-- The legs of the wave that the call collects. -/
def outstanding (c : HedgerCall) : List HedgeLeg :=
  match c.cascade with
  | none => []
  | some cascade => if cascade.phase = .collecting then cascade.waiting else []

theorem outstanding_startCascade (core : c.Core) (trigger : HedgeTrigger) (phase : CallPhase) :
    outstanding { c.startCascade trigger with phase := phase } = [] := by
  obtain ⟨cascade, metrics, -, ⟨top, -⟩, eq⟩ := startCascade_eq core trigger
  simp [eq, outstanding, top]

/-- Only a wave adds to the legs that a call collects. -/
theorem outstanding_step (inv : c.Inv) {action : CallAction} (stepped : c.step action = some c')
    (unsent : ∀ order legs, action ≠ .cascade (.wave order legs)) :
    c'.outstanding ⊆ c.outstanding := by
  have starts (trigger : HedgeTrigger) (phase : CallPhase) :
      outstanding { c.startCascade trigger with phase := phase } ⊆ c.outstanding := by
    rw [outstanding_startCascade inv.core]
    exact List.nil_subset _
  cases moves_of_step stepped with
  | start fresh =>
      unfold HedgerCall.begin
      split
      · exact List.Subset.refl _
      · split
        · exact List.Subset.refl _
        · split
          · split
            · exact starts _ _
            · exact List.Subset.refl _
          · exact List.Subset.refl _
  | ctxEnds | primaryReturns => exact List.Subset.refl _
  | timerFires waits => exact starts _ _
  | @cascade action before after running moved =>
      have gone (exhaustion : ProduceStop) :
          outstanding { c with cascade := some (before.stop exhaustion) } ⊆ c.outstanding := by
        simp [outstanding, Cascade.stop]
      cases action with
      | wave order legs => exact absurd rfl (unsent order legs)
      | legResult i res =>
          simp only [Cascade.step] at moved
          split at moved
          · rename_i collecting
            obtain ⟨leg, found, rfl⟩ := Option.map_eq_some_iff.mp moved
            intro other mem
            simp only [outstanding, running, collecting, ↓reduceIte]
            simp only [outstanding] at mem
            split at mem
            · exact List.mem_of_mem_eraseIdx mem
            · cases mem
          · cases moved
      | ctxDone | leaveLoop =>
          simp only [Cascade.step] at moved
          split at moved
          · obtain rfl := Option.some.inj moved
            exact gone _
          · cases moved
  | cascadeReturns => simp [outstanding]
  | @takePrimary _ primary _ arrived next =>
      cases readsPrimary_of_onPrimary next with
      | won | lost | settled => exact List.Subset.refl _
      | failed waits failure =>
          rw [outstanding_startCascade (inv.core.readPrimary primary)]
          exact List.nil_subset _
  | takeFallback arrived next =>
      obtain ⟨phase, metrics, -, rfl⟩ := (readsFallback_of_onFallback next).setsPhase
      exact List.Subset.refl _

end HedgerCall

theorem lossy_recordCount : Lossy (recordCount : RoutedTopicPartitionRecords → Nat) := by
  intro w max
  have whole := congrArg List.length (LawfulRoutedBatch.split_records w max)
  rw [List.length_flatMap] at whole
  exact Nat.le_of_eq whole

theorem lossy_one [Snappy] : Lossy fun _ : RoutedEncodedTopicPartitionRecords => 1 :=
  fun _ _ => Nat.le_refl _

/-- The legs of a wave have its partitions, and none is without one. -/
theorem length_of_groupLegs {chosen : List (Int × EncodedTopicPartitionRecords)}
    {legs : List HedgeLeg} (grouped : legs.Perm (groupLegs chosen)) :
    (legs.map fun leg => leg.parts.length).sum = chosen.length ∧ ∀ leg ∈ legs, leg.parts ≠ [] := by
  have groups := FirstSeen.groups_groupBy Prod.fst chosen
  constructor
  · rw [(grouped.map _).sum_eq, groupLegs, List.map_map]
    have all := (FirstSeen.flatMap_groupBy_perm Prod.fst chosen).length_eq
    rw [List.length_flatMap] at all
    simpa [Function.comp_def] using all
  · intro leg mem
    obtain ⟨group, inside, rfl⟩ := List.mem_map.mp (grouped.mem_iff.mp mem)
    have some := groups.nonempty group.1 group.2 inside
    simpa using some

/-- What the hedge buffer does for a wave. -/
theorem weigh_fuel_wave {legs : List HedgeLeg} (filled : ∀ leg ∈ legs, leg.parts ≠ [])
    (ctx : Nat) : weigh (Op.fuel fun _ => 1)
      (legs.map fun leg => (.multiAdd (some ctx) leg.items [] : Op _)) ≤
        16 * (legs.map fun leg => leg.parts.length).sum := by
  induction legs with
  | nil => exact Nat.le_refl _
  | cons leg rest ih =>
      have later := ih fun other mem => filled other (List.mem_cons_of_mem _ mem)
      have length : leg.items.length = leg.parts.length := by
        simp [HedgeLeg.items, unpromise, newMultiRoutedEncodedTopicPartitionRecords]
      have some : leg.items ≠ [] := by
        intro none
        rw [none] at length
        exact filled leg List.mem_cons_self (List.length_eq_zero_iff.mp length.symm)
      have here : (Op.multiAdd (Option.some ctx) leg.items []).fuel (fun _ => 1) ≤
          16 * weigh (fun _ => 1) leg.items :=
        ClusterRun.fuel_multiAdd_le some (fun _ _ => Nat.one_pos) _
      have one : weigh (fun _ => 1) leg.items = leg.items.length := by simp [weigh]
      simp only [List.map_cons, weigh_cons, List.sum_cons]
      omega

namespace ClusterRun

section enabled

variable {W : Type} [RoutedBatch W] {r : ClusterRun W} {Good : W → Prop} {max : Nat}
  {task agent index : Nat} {entries : List (Promised W Callback)} {rest : List (Op W)}

theorem exists_flushAt (inv : Inv r)
    (found : r.tasks[task]? = some (.flush agent index entries :: rest)) :
    ∃ a f, r.flushOf task = some (agent, index) ∧ r.flushAt task = some (a, f) := by
  have flush : r.flushOf task = some (agent, index) := by simp [flushOf, found]
  obtain ⟨a, f, place, started, -⟩ := inv.origins.sound (.flush agent index entries)
    (List.mem_flatten.mpr ⟨_, List.mem_of_getElem? found, List.mem_cons_self⟩)
  exact ⟨a, f, flush, by simp [flushAt, flush, place, started]⟩

omit [RoutedBatch W] in
theorem returnsFlush_of_other {op : Op W} (found : r.tasks[task]? = some (op :: rest))
    (other : ∀ agent index entries, op ≠ .flush agent index entries) (choice : Choice W) :
    r.returnsFlush (.run task choice) = false := by
  cases returns : r.returnsFlush (.run task choice) with
  | false => rfl
  | true =>
      obtain ⟨⟨agent, index⟩, flush⟩ := Option.isSome_iff_exists.mp returns
      obtain ⟨entries, rest', here⟩ := ProducePath.flushOf_eq_some flush
      obtain ⟨rfl, -⟩ := List.cons.inj (Option.some.inj (found.symm.trans here))
      exact absurd rfl (other agent index entries)

variable [DecidableEq W]

theorem isSome_flush (found : r.tasks[task]? = some (.flush agent index entries :: rest))
    (res : ProduceResult) : (r.step (.run task { res := res })).isSome := by
  simp [step, found, ClusterBuffer.exec]

/-- The buffer can take a step of its own: nothing outside has to answer. -/
structure Enabled (r : ClusterRun W) (action : ClusterAction W) : Prop where
  internal : action.isInternal = true
  works : r.works action = true
  quiet : r.returnsFlush action = false
  stepped : (r.step action).isSome

/-- Until the buffer has drained, it can take a step of its own or has a flush that waits for
its answer. -/
theorem drained_or_enabled (safe : MergeSafe Good max)
    (binned : r.buffer.Binned Good max r.tasks.flatten) (inv : Inv r) (closable : r.Closable) :
    r.Drained ∨ (∃ action, r.Enabled action) ∨ ∃ (task agent index : Nat)
      (entries : List (Promised W Callback)) (rest : List (Op W)),
      r.tasks[task]? = some (.flush agent index entries :: rest) := by
  refine r.drained_or_busy.imp_right ?_
  rintro (⟨task, op, rest, found⟩ | ⟨agent, a, found, pending⟩)
  · by_cases flush : ∃ agent index entries, op = .flush agent index entries
    · obtain ⟨agent, index, entries, rfl⟩ := flush
      exact Or.inr ⟨task, agent, index, entries, rest, found⟩
    · have quiet := returnsFlush_of_other found fun agent index entries same =>
        flush ⟨agent, index, entries, same⟩
      obtain ⟨bins, stepped⟩ := exists_run safe binned inv closable found {}
      exact Or.inl ⟨.run task ⟨bins, {}⟩, rfl, rfl, quiet _, stepped⟩
  · refine Or.inl ⟨.timerFlush agent, rfl, ?_, rfl, exists_timerFlush safe binned found⟩
    simpa [ClusterRun.works, found] using pending

end enabled

end ClusterRun

namespace ProducePath

/-- The steps that count as progress: those of the client's goroutines, of its agents, and of
timers that find something to do. Callers, contexts that end and `Close` do not. -/
def works (s : ProducePath) : ProduceAction → Bool
  | .produce _ _ _ _ | .produceSync _ _ => false
  | .buffer action => s.buffer.works action
  | .hedgeBuffer action => s.hedgeBuffer.works action
  | .call _ action => !action.endsCtx
  | .flushBatch _ _ | .flushReturns _ | .primaryReturns _ _ | .wave _ _ _ | .legResult _ _
  | .hedgeFlush _ _ => true

/-- The price of the call that a record's flush makes. -/
def callPrice (cfg : ClientConfig) : Nat := 19 * cfg.maxHedgeAgents + 9

/-- An upper bound on the work that is left. Records whose flush has not begun its call carry the
price of that call with them. -/
def fuel (s : ProducePath) : Nat :=
  s.buffer.fuel recordCount + callPrice s.cfg * s.buffer.stock s.uncalled recordCount +
    weigh (fun c => c.call.price) s.calls + s.hedgeBuffer.fuel (fun _ => 1)

variable [Snappy] {s s' : ProducePath} {added : List RoutedTopicPartitionRecords}

/-- A flush has no more partitions than records. -/
theorem Sound.length_routed (sound : s.Sound added) {agent index : Nat}
    {a : AgentBuffer RoutedTopicPartitionRecords Callback}
    {f : Flush RoutedTopicPartitionRecords Callback}
    {routed : List RoutedEncodedTopicPartitionRecords}
    (found : s.buffer.buffer.agentBuffers[agent]? = some a) (started : a.flushes[index]? = some f)
    (encoded : encodePartitions f.wire = some routed) :
    0 < weigh recordCount (unpromise f.entries) ∧
      routed.length ≤ weigh recordCount (unpromise f.entries) := by
  obtain ⟨-, bin⟩ := sound.bins.agents a (List.mem_of_getElem? found)
  have inside := List.mem_of_getElem? started
  obtain ⟨some, merged⟩ := bin.sums.merged f inside
  have many : f.entries.length ≤ weigh recordCount (unpromise f.entries) :=
    length_le_weigh_unpromise fun p mem => List.length_pos_iff.mpr (bin.entries p
      (List.mem_append_left _ (List.mem_flatMap.mpr ⟨f, inside, mem⟩))).1.1
  have wire : f.wire.length ≤ f.entries.length := by
    have each := forall₂_of_mapM_eq_some (P := fun _ _ => True) merged fun _ _ _ _ => trivial
    have few := FirstSeen.length_groupBy_le getTopicPartition (unpromise f.entries)
    rw [each.length_eq, unpromise, List.length_map] at few
    exact few
  have kept := (contents_of_encodePartitions encoded).length_eq
  have filtered := List.length_filter_le
    (fun p : RoutedTopicPartitionRecords => p.records ≠ []) f.wire
  have positive := List.length_pos_iff.mpr some
  omega

/-- The invariants behind the bound. -/
structure Steady (added : List RoutedTopicPartitionRecords) (s : ProducePath) : Prop where
  sound : s.Sound added
  hedge : s.hedgeBuffer.TakenInv

theorem Steady.step (steady : s.Steady added) (small : s.cfg.batchMaxBytes.toNat ≤ 2 ^ 30)
    {action : ProduceAction} (stepped : s.step action = some s') :
    s'.Steady (added ++ action.added s.cfg) := by
  have sound := steady.sound.mono fun w mem => List.mem_append_left (action.added s.cfg) mem
  exact ⟨sound.step small (fun w mem => List.mem_append_right _ mem) stepped,
    (hedgeBuffer_advances sound small stepped).takenInv steady.hedge⟩

/-- The main buffer takes a step. -/
theorem Steady.fuel_main (steady : s.Steady added)
    {inner : ClusterAction RoutedTopicPartitionRecords}
    {buffer : ClusterRun RoutedTopicPartitionRecords} (adds : inner.Adds fun w => w.records ≠ [])
    (stepped : s.buffer.step inner = some buffer) :
    fuel { s with buffer := buffer } + (if s.buffer.works inner then 1 else 0) ≤
      s.fuel + (callPrice s.cfg + 16) * weigh recordCount inner.items := by
  have safe := RoutedTopicPartitionRecords.mergeSafe s.cfg.batchMaxBytes.toNat
  have bins := steady.sound.bins.imp fun w part => part.1
  have used := ClusterRun.fuel_step lossy_recordCount safe.positive safe bins
    steady.sound.buffer.toInv adds stepped
  have moved : buffer.stock s.uncalled recordCount ≤
      s.buffer.stock s.uncalled recordCount + weigh recordCount inner.items :=
    Nat.le_trans (Nat.le_add_right _ _) (ClusterRun.stock_step lossy_recordCount stepped)
  have priced := Nat.mul_le_mul_left (callPrice s.cfg) moved
  have live : uncalled { s with buffer := buffer } = s.uncalled := rfl
  simp only [fuel, live, Nat.mul_add, Nat.add_mul] at priced ⊢
  omega

omit [Snappy] in
/-- A call moves on, and what it hands to the hedge buffer is paid for. -/
theorem fuel_setCall {q : Nat} {c : FlushCall} {call : HedgerCall} (ctx : Nat)
    (found : s.calls[q]? = some c)
    (next : s'.cfg = s.cfg ∧ s'.buffer = s.buffer ∧
      s'.calls = s.calls.set q { c with call := call, attemptCtx := ctx })
    (paid : call.price + s'.hedgeBuffer.fuel (fun _ => 1) <
      c.call.price + s.hedgeBuffer.fuel (fun _ => 1)) : s'.fuel < s.fuel := by
  obtain ⟨cfg, buffer, calls⟩ := next
  have live := uncalled_of_set found calls
  have sum : weigh (fun c => c.call.price) s'.calls + c.call.price =
      weigh (fun c => c.call.price) s.calls + call.price := by
    rw [calls]
    exact Pool.sum_map_set (fun c : FlushCall => c.call.price) found _
  simp only [fuel, cfg, buffer, live]
  omega

/-- A call takes a step without the hedge buffer. -/
theorem Sound.fuel_call (sound : s.Sound added) {q : Nat} {c : FlushCall} {call : HedgerCall}
    {action : CallAction} (found : s.calls[q]? = some c) (moved : c.call.step action = some call)
    (next : s'.cfg = s.cfg ∧ s'.buffer = s.buffer ∧ s'.hedgeBuffer = s.hedgeBuffer ∧
      s'.calls = s.calls.set q { c with call := call }) : s'.fuel < s.fuel := by
  obtain ⟨cfg, buffer, hedgeBuffer, calls⟩ := next
  have inv := (sound.calls c (List.mem_of_getElem? found)).call
  refine fuel_setCall c.attemptCtx found ⟨cfg, buffer, calls⟩ ?_
  rw [hedgeBuffer]
  exact Nat.add_lt_add_right (HedgerCall.price_step inv moved) _

omit [Snappy] in
theorem fuel_of_begin (flush : Nat × Nat) (call : HedgerCall) : fuel (s.begin flush call) =
    s.buffer.fuel recordCount +
      callPrice s.cfg * s.buffer.stock (s.begin flush call).uncalled recordCount +
        (weigh (fun c => c.call.price) s.calls + call.price) + s.hedgeBuffer.fuel (fun _ => 1) := by
  have calls : (s.begin flush call).calls =
      s.calls ++ [⟨flush.1, flush.2, call, s.nextCtx, s.nextCtx⟩] := rfl
  rw [fuel, calls, weigh_append, weigh_cons, weigh_nil]
  rfl

/-- A call begins: it is paid for by the records of its flush. -/
theorem Sound.fuel_begin (sound : s.Sound added) {task agent index : Nat}
    {candidates : TopicPartition → List Agent}
    {a : AgentBuffer RoutedTopicPartitionRecords Callback}
    {f : Flush RoutedTopicPartitionRecords Callback}
    {routed : List RoutedEncodedTopicPartitionRecords}
    (flush : s.buffer.flushOf task = some (agent, index))
    (fresh : ∀ c ∈ s.calls, (c.agent, c.index) ≠ (agent, index))
    (found : s.buffer.buffer.agentBuffers[agent]? = some a) (started : a.flushes[index]? = some f)
    (encoded : encodePartitions f.wire = some routed) :
    fuel (s.begin (agent, index)
      { maxHedgeAgents := s.cfg.maxHedgeAgents
        primaryID := a.nodeID
        candidates := candidates
        routed := routed }) < s.fuel := by
  obtain ⟨entries, rest, here⟩ := flushOf_eq_some flush
  obtain ⟨a', f', found', started', same⟩ := sound.buffer.origins.sound (.flush agent index entries)
    (List.mem_flatten.mpr ⟨_, List.mem_of_getElem? here, List.mem_cons_self⟩)
  obtain rfl := Option.some.inj (found.symm.trans found')
  obtain rfl := Option.some.inj (started.symm.trans started')
  subst same
  obtain ⟨some, few⟩ := sound.length_routed found started encoded
  let call : HedgerCall :=
    { maxHedgeAgents := s.cfg.maxHedgeAgents
      primaryID := a.nodeID
      candidates := candidates
      routed := routed }
  have price : call.price ≤ (19 * s.cfg.maxHedgeAgents + 8) *
      weigh recordCount (unpromise f.entries) := HedgerCall.price_init some few
  have narrowed := stock_begin recordCount call here fresh
  have priced := Nat.mul_le_mul_left (callPrice s.cfg) narrowed
  have bill : (19 * s.cfg.maxHedgeAgents + 8) * weigh recordCount (unpromise f.entries) <
      callPrice s.cfg * weigh recordCount (unpromise f.entries) :=
    Nat.mul_lt_mul_of_pos_right (Nat.lt_succ_self _) some
  rw [Nat.mul_add] at priced
  change fuel (s.begin (agent, index) call) < s.fuel
  rw [fuel_of_begin, fuel]
  omega

/-- The hedge buffer takes a step. -/
theorem Steady.fuel_hedge (steady : s.Steady added) (small : s.cfg.batchMaxBytes.toNat ≤ 2 ^ 30)
    {action : ClusterAction RoutedEncodedTopicPartitionRecords}
    {run : ClusterRun RoutedEncodedTopicPartitionRecords} (internal : action.isInternal = true)
    (stepped : s.hedgeBuffer.step action = some run) :
    run.fuel (fun _ => 1) + (if s.hedgeBuffer.works action then 1 else 0) ≤
      s.hedgeBuffer.fuel fun _ => 1 := by
  have adds : action.Adds s.Ours := ClusterAction.adds_of_isInternal internal
  have used := ClusterRun.fuel_step lossy_one (fun _ _ => Nat.one_pos) (mergeSafe_ours small)
    steady.sound.hedgeBins steady.hedge.toInv adds stepped
  rw [ClusterAction.items_of_isInternal internal] at used
  exact used

omit [Snappy] in
theorem fuel_of_hedge (s s' : ProducePath)
    (next : s'.cfg = s.cfg ∧ s'.buffer = s.buffer ∧ s'.calls = s.calls) :
    s'.fuel + s.hedgeBuffer.fuel (fun _ => 1) = s.fuel + s'.hedgeBuffer.fuel fun _ => 1 := by
  obtain ⟨cfg, buffer, calls⟩ := next
  have live : s'.uncalled = s.uncalled := by
    unfold uncalled
    rw [calls]
  simp only [fuel, cfg, buffer, calls, live]
  omega

/-- What the items of a caller may cost. -/
def allowance (cfg : ClientConfig) (action : ProduceAction) : Nat :=
  (callPrice cfg + 16) * weigh recordCount (action.added cfg)

/-- Every step that works uses up fuel, and only accepted records bring new fuel. -/
theorem Steady.fuel_step (steady : s.Steady added) (small : s.cfg.batchMaxBytes.toNat ≤ 2 ^ 30)
    {action : ProduceAction} (stepped : s.step action = some s') :
    s'.fuel + (if s.works action then 1 else 0) ≤ s.fuel + allowance s.cfg action := by
  have once : (if s.works action then 1 else 0) ≤ 1 := by split <;> omega
  suffices cheaper : s'.fuel < s.fuel ∨
      s'.fuel + (if s.works action then 1 else 0) ≤ s.fuel + allowance s.cfg action by omega
  cases steps_of_step stepped with
  | rejected _ caller =>
      right
      cases action with
      | produce | produceSync => exact Nat.le_add_right _ _
      | _ => cases caller
  | main _ inner buffer adds items quiet moved origin =>
      right
      have used := steady.fuel_main (adds.imp fun w good => good.1) moved
      have works : s.works action = true → s.buffer.works inner = true := by
        intro busy
        rcases origin with caller | rfl
        · cases action with
          | produce | produceSync => cases busy
          | _ => cases caller
        · exact busy
      have fewer : (if s.works action then 1 else 0) ≤ if s.buffer.works inner then 1 else 0 := by
        by_cases busy : s.works action = true
        · simp [busy, works busy]
        · simp [busy]
      rw [allowance, ← items]
      omega
  | flushBatch task agent index candidates a f routed found started encoded flush fresh =>
      exact Or.inl (steady.sound.fuel_begin flush fresh found started encoded)
  | flushReturns task c res buffer flush mem returned moved =>
      right
      have adds : (ClusterAction.run task { res := res }).Adds
          fun w : RoutedTopicPartitionRecords => w.records ≠ [] := trivial
      exact steady.fuel_main adds moved
  | call q inner c call found own moved =>
      exact Or.inl (steady.sound.fuel_call found moved ⟨rfl, rfl, rfl, rfl⟩)
  | primary q env c found call attempt sends moved =>
      exact Or.inl (steady.sound.fuel_call found moved ⟨rfl, rfl, rfl, rfl⟩)
  | waveStops q order legs c cascade exhaustion found running moved =>
      exact Or.inl (steady.sound.fuel_call found moved ⟨rfl, rfl, rfl, rfl⟩)
  | legResult q i c cascade leg l d found running waits mem owner sent moved =>
      exact Or.inl (steady.sound.fuel_call found moved ⟨rfl, rfl, rfl, rfl⟩)
  | dispatch q order legs c cascade tried chosen found running pending picked grouped moved =>
      left
      have inv := (steady.sound.calls c (List.mem_of_getElem? found)).call
      have paid := HedgerCall.price_dispatch inv running pending picked moved
      obtain ⟨length, filled⟩ := length_of_groupLegs grouped
      have wave := weigh_fuel_wave filled s.nextCtx
      have parts := congrArg List.length (pickCandidates_parts picked)
      rw [List.length_map] at parts
      refine fuel_setCall s.nextCtx found ⟨rfl, rfl, rfl⟩ ?_
      simp only [dispatch, ClusterRun.fuel_spawn, List.flatten_cons, List.flatten_nil,
        List.append_nil]
      omega
  | hedgeBuffer inner run internal quiet moved =>
      right
      have used := steady.fuel_hedge small internal moved
      have rest := fuel_of_hedge s (s.setHedgeBuffer inner run) ⟨rfl, rfl, rfl⟩
      have works : s.works (.hedgeBuffer inner) = s.hedgeBuffer.works inner := rfl
      simp only [setHedgeBuffer] at rest ⊢
      rw [works]
      omega
  | hedgeFlush task agent index env a f attempt run flush found started sends moved =>
      left
      have used := steady.fuel_hedge small rfl moved
      have rest := fuel_of_hedge s
        { s.setHedgeBuffer (.run task { res := attempt.result }) run with
          wire := s.wire ++ [attempt] } ⟨rfl, rfl, rfl⟩
      simp only [setHedgeBuffer, ClusterRun.works, ↓reduceIte] at used rest ⊢
      omega

/-- The working steps of a run are paid for by the records it accepted. -/
theorem tally_works_le {cfg : ClientConfig} (small : cfg.batchMaxBytes.toNat ≤ 2 ^ 30)
    {actions : List ProduceAction} (runs : Machine.run step (init cfg) actions = some s) :
    Machine.tally step works (init cfg) actions + s.fuel ≤
      (init cfg).fuel + (actions.map (allowance cfg)).sum := by
  refine Machine.tally_run_le (fun s => s.cfg = cfg ∧ ∃ added, s.Steady added) fuel (allowance cfg)
    ?_ ?_ ⟨rfl, [], sound_init cfg, ClusterRun.takenInv_init _⟩ runs
  · rintro s action s' ⟨rfl, added, steady⟩ stepped
    exact ⟨cfg_step stepped, _, steady.step small stepped⟩
  · rintro s action s' ⟨rfl, added, steady⟩ stepped
    exact steady.fuel_step small stepped

/-- Every leg that a call collects has been handed to the hedge buffer, and its callback is
still due unless it has been called. -/
structure Told (s : ProducePath) : Prop where
  legs : ∀ (q : Nat) (c : FlushCall), s.calls[q]? = some c → ∀ leg ∈ c.call.outstanding,
    ⟨q, c.attemptCtx, leg⟩ ∈ s.legs.map LegDone.owner
  due : ∀ l ∈ s.legs, l.sent = none →
    s.hedgeBuffer.Awaits (fun w => w.nodeID = l.owner.leg.agent) l.owner.ctx

omit [Snappy] in
/-- A call moves on within its wave. -/
theorem Told.setCall (told : s.Told) {q : Nat} {c : FlushCall} {call : HedgerCall}
    (found : s.calls[q]? = some c) (fewer : call.outstanding ⊆ c.call.outstanding)
    (next : s'.hedgeBuffer = s.hedgeBuffer ∧ s'.calls = s.calls.set q { c with call := call } ∧
      s'.legs.map LegDone.owner = s.legs.map LegDone.owner)
    (unsent : ∀ l' ∈ s'.legs, ∃ l ∈ s.legs, l.owner = l'.owner ∧ l.sent = l'.sent) : s'.Told := by
  obtain ⟨hedgeBuffer, calls, owners⟩ := next
  refine ⟨fun k x place leg mem => ?_, fun l' mem open' => ?_⟩
  · rw [owners]
    rw [calls] at place
    by_cases same : q = k
    · subst same
      rw [List.getElem?_set_self (List.getElem?_eq_some_iff.mp found).1] at place
      obtain rfl := Option.some.inj place
      exact told.legs q c found leg (fewer mem)
    · rw [List.getElem?_set_ne same] at place
      exact told.legs k x place leg mem
  · obtain ⟨l, inside, owner, sent⟩ := unsent l' mem
    rw [hedgeBuffer, ← owner]
    exact told.due l inside (sent.trans open')

/-- The hedge buffer takes a step and calls the legs' callbacks. -/
theorem Told.hedge (told : s.Told) {action : ClusterAction RoutedEncodedTopicPartitionRecords}
    {run : ClusterRun RoutedEncodedTopicPartitionRecords}
    (stepped : s.hedgeBuffer.step action = some run)
    (next : s'.calls = s.calls ∧ s'.hedgeBuffer = run ∧ s'.legs = s.hedge.deliver action) :
    s'.Told := by
  obtain ⟨calls, hedgeBuffer, legs⟩ := next
  refine ⟨fun q c place leg mem => ?_, fun l' mem unsent => ?_⟩
  · rw [legs]
    have owners : (s.hedge.deliver action).map LegDone.owner = s.legs.map LegDone.owner :=
      HedgeRun.deliver_owners id action
    rw [owners]
    exact told.legs q c (calls ▸ place) leg mem
  · rw [legs] at mem
    rw [hedgeBuffer]
    obtain ⟨l, inside, owner, -, kept | ⟨-, i, d, it, -, -, -, -, now⟩⟩ := HedgeRun.mem_deliver mem
    · rw [owner]
      refine ((told.due l inside (kept.symm.trans unsent)).step stepped).resolve_right ?_
      rintro ⟨task, choice, rest, i, it, d, rfl, place, found, ctx, agent⟩
      -- the callback that runs now is that of the leg
      have fired : s.hedge.deliver (.run task choice) = s.legs.map fun l => l.fire it d := by
        simp [HedgeRun.deliver, ProducePath.hedge, place, found]
      rw [fired] at mem
      obtain ⟨before, -, rfl⟩ := List.mem_map.mp mem
      rw [LegDone.fire_owner] at owner
      unfold LegDone.fire at unsent
      split at unsent
      · cases unsent
      · rename_i other
        exact other ⟨owner ▸ ctx, owner ▸ agent, unsent⟩
    · cases now.symm.trans unsent

theorem Told.step (told : s.Told) (sound : s.Sound added) {action : ProduceAction}
    (stepped : s.step action = some s') : s'.Told := by
  have callInv {q : Nat} {c : FlushCall} (found : s.calls[q]? = some c) : c.call.Inv :=
    (sound.calls c (List.mem_of_getElem? found)).call
  have same : ∀ l ∈ s.legs, ∃ old ∈ s.legs, old.owner = l.owner ∧ old.sent = l.sent :=
    fun l mem => ⟨l, mem, rfl, rfl⟩
  cases steps_of_step stepped with
  | rejected | main | flushReturns => exact ⟨told.legs, told.due⟩
  | flushBatch task agent index candidates a f routed found started encoded flush fresh =>
      refine ⟨fun q c place leg mem => ?_, told.due⟩
      rw [ProducePath.begin] at place
      rcases Nat.lt_or_ge q s.calls.length with inside | outside
      · rw [List.getElem?_append_left inside] at place
        exact told.legs q c place leg mem
      · rw [List.getElem?_append_right outside] at place
        obtain rfl := List.mem_singleton.mp (List.mem_of_getElem? place)
        cases mem
  | call q inner c call found own moved =>
      have fewer := HedgerCall.outstanding_step (callInv found) moved fun order legs same => by
        rw [same] at own
        cases own
      exact told.setCall found fewer ⟨rfl, rfl, rfl⟩ same
  | primary q env c found call attempt sends moved =>
      have fewer := HedgerCall.outstanding_step (callInv found) moved fun order legs same => by
        cases same
      exact told.setCall found fewer ⟨rfl, rfl, rfl⟩ same
  | waveStops q order legs c cascade exhaustion found running moved =>
      have none : HedgerCall.outstanding
          { c.call with cascade := some (cascade.stop exhaustion) } ⊆ c.call.outstanding := by
        simp [HedgerCall.outstanding, Cascade.stop]
      exact told.setCall found none ⟨rfl, rfl, rfl⟩ same
  | dispatch q order legs c cascade tried chosen found running pending picked grouped moved =>
      refine ⟨fun k x place leg mem => ?_, fun l mem unsent => ?_⟩
      · simp only [dispatch, List.map_append, List.mem_append, List.map_map]
        simp only [dispatch] at place
        by_cases same : q = k
        · subst same
          rw [List.getElem?_set_self (List.getElem?_eq_some_iff.mp found).1] at place
          obtain rfl := Option.some.inj place
          right
          simp only [HedgerCall.outstanding, Cascade.dispatch, ↓reduceIte] at mem
          exact List.mem_map.mpr ⟨leg, mem, rfl⟩
        · rw [List.getElem?_set_ne same] at place
          exact Or.inl (told.legs k x place leg mem)
      · simp only [dispatch, List.mem_append, List.mem_map] at mem
        rcases mem with old | ⟨leg, member, rfl⟩
        · exact (told.due l old unsent).spawn _
        · obtain ⟨-, filled⟩ := length_of_groupLegs grouped
          obtain ⟨p, part⟩ := List.exists_mem_of_ne_nil _ (filled leg member)
          refine Or.inl ⟨leg.items, [], ?_, _, HedgeLeg.mem_items.mpr ⟨p, part, rfl⟩, rfl⟩
          simp only [dispatch, ClusterRun.spawn, List.flatten_append, List.mem_append]
          right
          simpa using ⟨leg, member, rfl⟩
  | legResult q i c cascade leg l d found running waits mem owner sent moved =>
      have fewer := HedgerCall.outstanding_step (callInv found) moved fun order legs same => by
        cases same
      refine told.setCall found fewer ⟨rfl, rfl, ?_⟩ fun l' mem => ?_
      · simp [collect]
      · obtain ⟨before, inside, rfl⟩ := List.mem_map.mp mem
        exact ⟨before, inside, by simp, by simp⟩
  | hedgeBuffer inner run internal quiet moved => exact told.hedge moved ⟨rfl, rfl, rfl⟩
  | hedgeFlush task agent index env a f attempt run flush found started sends moved =>
      exact told.hedge moved ⟨rfl, rfl, rfl⟩

/-- A step that counts as progress is possible. -/
def Goes (s : ProducePath) : Prop := ∃ action, s.works action = true ∧ (s.step action).isSome

/-- What the hedge buffer does on its own, the produce path does. -/
theorem goes_of_hedge {action : ClusterAction RoutedEncodedTopicPartitionRecords}
    (enabled : s.hedgeBuffer.Enabled action) : s.Goes := by
  obtain ⟨internal, works, quiet, stepped⟩ := enabled
  have may : s.mayEnd action = true := by
    cases action with
    | cancel => cases works
    | _ => rfl
  exact ⟨.hedgeBuffer action, works, by
    simpa [ProducePath.step, internal, quiet, may] using stepped⟩

theorem goes_of_main {action : ClusterAction RoutedTopicPartitionRecords}
    (enabled : s.buffer.Enabled action) : s.Goes := by
  obtain ⟨internal, works, quiet, stepped⟩ := enabled
  exact ⟨.buffer action, works, by simpa [ProducePath.step, internal, quiet] using stepped⟩

/-- As long as the hedge buffer has not drained, something goes on there. -/
theorem Steady.hedge_goes (steady : s.Steady added) (small : s.cfg.batchMaxBytes.toNat ≤ 2 ^ 30)
    (closable : s.hedgeBuffer.Closable) : s.hedgeBuffer.Drained ∨ s.Goes := by
  refine (ClusterRun.drained_or_enabled (mergeSafe_ours small) steady.sound.hedgeBins
    steady.hedge.toInv closable).imp_right ?_
  rintro (⟨action, enabled⟩ | ⟨task, agent, index, entries, rest, found⟩)
  · exact goes_of_hedge enabled
  · obtain ⟨a, f, -, here⟩ := ClusterRun.exists_flushAt steady.hedge.toInv found
    let env : AttemptEnv := ⟨0, fun _ => none, .otherType "", none⟩
    obtain ⟨run, moved⟩ := Option.isSome_iff_exists.mp (ClusterRun.isSome_flush found
      (env.attempt (agentFromRouted a.nodeID f.wire)
        (unrouteEncodedTopicPartitionRecords f.wire)).result)
    exact ⟨.hedgeFlush task env, rfl, by simp [ProducePath.step, here, moved]⟩

/-- A drained hedge buffer has told every leg. -/
theorem Told.sent_of_drained (told : s.Told) (inv : s.hedgeBuffer.Inv)
    (drained : s.hedgeBuffer.Drained) {l : LegDone} (mem : l ∈ s.legs) : l.sent ≠ none := by
  intro unsent
  rcases told.due l mem unsent with ⟨todo, wrapped, op, -⟩ | ⟨i, it, found, -, -, none⟩
  · rw [drained.1] at op
    cases op
  · have once := inv.completions_of_drained drained found
    rw [none] at once
    cases once

/-- A call that has not returned goes on: once the hedge buffer has drained, the legs of its
wave have their results. -/
theorem Steady.call_goes (steady : s.Steady added) (told : s.Told)
    (drained : s.hedgeBuffer.Drained) {q : Nat} {c : FlushCall} (found : s.calls[q]? = some c)
    (unreturned : ∀ res, c.call.phase ≠ .returned res) : s.Goes := by
  have inv := (steady.sound.calls c (List.mem_of_getElem? found)).call
  obtain ⟨action, work, enabled⟩ := inv.exists_work unreturned
  obtain ⟨call, moved⟩ := Option.isSome_iff_exists.mp enabled
  by_cases own : action.isLocal = true
  · exact ⟨.call q action, by simp [works, work], by simp [ProducePath.step, found, own, moved]⟩
  · cases action with
    | primaryReturns res =>
        have runs : c.call.primaryRuns = true := by
          cases HedgerCall.moves_of_step moved with
          | primaryReturns runs => exact runs
        exact ⟨.primaryReturns q ⟨0, fun _ => none, .otherType "", none⟩, rfl, by
          simp [ProducePath.step, found, HedgerCall.step, runs]⟩
    | cascade inner =>
        cases inner with
        | wave order legs =>
            refine ⟨.wave q order legs, rfl, ?_⟩
            simp only [ProducePath.step, found, moved, Option.bind_eq_bind, Option.bind_some]
            split <;> rfl
        | legResult i res =>
            -- the leg may have another result than `res`, but it has one
            cases HedgerCall.moves_of_step moved with
            | @cascade _ cascade after running went =>
                simp only [Cascade.step] at went
                split at went
                · rename_i collecting
                  obtain ⟨leg, waits, -⟩ := Option.map_eq_some_iff.mp went
                  have collected : leg ∈ c.call.outstanding := by
                    simp only [HedgerCall.outstanding, running, collecting, ↓reduceIte]
                    exact List.mem_of_getElem? waits
                  obtain ⟨l, listed, owner⟩ :=
                    List.mem_map.mp (told.legs q c found leg collected)
                  have known : (s.legs.find? fun l => l.owner = ⟨q, c.attemptCtx, leg⟩).isSome :=
                    List.find?_isSome.mpr ⟨l, listed, decide_eq_true owner⟩
                  obtain ⟨l', place⟩ := Option.isSome_iff_exists.mp known
                  obtain ⟨d, sent⟩ := Option.ne_none_iff_exists'.mp
                    (told.sent_of_drained steady.hedge.toInv drained
                      (List.mem_of_find?_eq_some place))
                  exact ⟨.legResult q i, rfl, by
                    simp [ProducePath.step, found, running, waits, place, sent, HedgerCall.step,
                      Cascade.step, collecting]⟩
                · cases went
        | ctxDone | leaveLoop => exact absurd rfl own
    | _ => exact absurd rfl own

theorem exists_encodePartitions (partitions : List RoutedTopicPartitionRecords) :
    ∃ routed, encodePartitions partitions = some routed := by
  have each : ∀ p ∈ partitions.filter fun p => p.records ≠ [],
      ∃ e, ((newEncodedTopicPartitionRecords p.topic p.partition p.records).map fun e =>
        ({ e with nodeID := p.nodeID, nodeState := p.nodeState } :
          RoutedEncodedTopicPartitionRecords)) = some e ∧ True := by
    intro p mem
    have filled : p.records ≠ [] := of_decide_eq_true (List.mem_filter.mp mem).2
    obtain ⟨first, rest, eq⟩ := List.exists_cons_of_ne_nil filled
    obtain ⟨batch, made, -⟩ := encodeBatch_cons first rest
    simp [newEncodedTopicPartitionRecords, eq, made]
  obtain ⟨routed, encoded, -⟩ := forall₂_of_mapM each
  exact ⟨routed, encoded⟩

/-- A flush of the main buffer goes on: its call begins, goes on or has returned. -/
theorem Steady.flush_goes (steady : s.Steady added) (told : s.Told)
    (drained : s.hedgeBuffer.Drained) {task agent index : Nat}
    {entries : List (Promised RoutedTopicPartitionRecords Callback)}
    {rest : List (Op RoutedTopicPartitionRecords)}
    (found : s.buffer.tasks[task]? = some (.flush agent index entries :: rest)) : s.Goes := by
  obtain ⟨a, f, here, whole⟩ := ClusterRun.exists_flushAt steady.sound.buffer.toInv found
  by_cases called : ∃ c ∈ s.calls, (c.agent, c.index) = (agent, index)
  · obtain ⟨c, member, key⟩ := called
    have known : (s.calls.find? fun c => (c.agent, c.index) = (agent, index)).isSome :=
      List.find?_isSome.mpr ⟨c, member, decide_eq_true key⟩
    obtain ⟨c, place⟩ := Option.isSome_iff_exists.mp known
    by_cases returned : ∃ res, c.call.phase = .returned res
    · obtain ⟨res, returned⟩ := returned
      obtain ⟨buffer, moved⟩ := Option.isSome_iff_exists.mp (ClusterRun.isSome_flush found res)
      refine ⟨.flushReturns task, rfl, ?_⟩
      simp only [ProducePath.step, here, place, returned, moved, Option.bind_eq_bind,
        Option.bind_some, Option.map_some, Option.isSome_some]
    · obtain ⟨q, position⟩ := List.mem_iff_getElem?.mp (List.mem_of_find?_eq_some place)
      exact steady.call_goes told drained position fun res same => returned ⟨res, same⟩
  · obtain ⟨routed, encoded⟩ := exists_encodePartitions f.wire
    have fresh : (s.calls.any fun c => (c.agent, c.index) = (agent, index)) = false := by
      simpa using called
    refine ⟨.flushBatch task fun _ => [], rfl, ?_⟩
    simp only [ProducePath.step, here, whole, encoded, Option.bind_eq_bind, Option.bind_some,
      fresh, Bool.false_eq_true, ↓reduceIte, Option.isSome_some]

/-- As long as the main buffer has not drained, something goes on there or in a call. -/
theorem Steady.main_goes (steady : s.Steady added) (told : s.Told)
    (drained : s.hedgeBuffer.Drained) (closable : s.buffer.Closable) :
    s.buffer.Drained ∨ s.Goes := by
  refine (ClusterRun.drained_or_enabled (mergeSafe_partOf s.cfg.batchMaxBytes.toNat)
    steady.sound.bins steady.sound.buffer.toInv closable).imp_right ?_
  rintro (⟨action, enabled⟩ | ⟨task, agent, index, entries, rest, found⟩)
  · exact goes_of_main enabled
  · exact steady.flush_goes told drained found

/-- The invariants behind the progress. -/
structure Going (s : ProducePath) : Prop where
  steady : ∃ added, s.Steady added
  told : s.Told
  live : s.Live
  main : s.buffer.Closable
  hedge : s.hedgeBuffer.Closable

theorem going_init (cfg : ClientConfig) : (init cfg).Going where
  steady := ⟨[], sound_init cfg, ClusterRun.takenInv_init _⟩
  told := ⟨fun _ _ found => (by cases found), List.forall_mem_nil _⟩
  live := ⟨List.nodup_nil, List.forall_mem_nil _⟩
  main _ mem := by cases mem
  hedge _ mem := by cases mem

theorem Going.step (going : s.Going) (small : s.cfg.batchMaxBytes.toNat ≤ 2 ^ 30)
    {action : ProduceAction} (stepped : s.step action = some s') : s'.Going := by
  obtain ⟨added, steady⟩ := going.steady
  exact {
    steady := ⟨_, steady.step small stepped⟩
    told := going.told.step steady.sound stepped
    live := going.live.step stepped
    main := ClusterRun.closable_of_advances going.main (buffer_advances stepped)
    hedge := ClusterRun.closable_of_advances going.hedge
      (hedgeBuffer_advances steady.sound small stepped) }

/-- Nothing is left to do. -/
structure Done (s : ProducePath) : Prop where
  buffer : s.buffer.Drained
  hedgeBuffer : s.hedgeBuffer.Drained
  calls : ∀ c ∈ s.calls, ∃ res, c.call.phase = .returned res
  items : ∀ it ∈ s.buffer.buffer.items, it.completions.length = 1

theorem Going.goes_or_done (going : s.Going) (small : s.cfg.batchMaxBytes.toNat ≤ 2 ^ 30) :
    s.Goes ∨ s.Done := by
  obtain ⟨added, steady⟩ := going.steady
  -- the hedge buffer waits for agents only, and the calls wait for the hedge buffer
  rcases steady.hedge_goes small going.hedge with drained | goes
  · rcases steady.main_goes going.told drained going.main with main | goes
    · right
      refine ⟨main, drained, fun c mem => ?_, fun it mem => ?_⟩
      · refine (going.live.calls c mem).resolve_left ?_
        rintro ⟨entries, waits⟩
        rw [main.1] at waits
        cases waits
      · obtain ⟨i, found⟩ := List.mem_iff_getElem?.mp mem
        exact steady.sound.buffer.toInv.completions_of_drained main found
    · exact Or.inl goes
  · exact Or.inl goes

/-- The items that the callers have handed over to the main buffer, wrapped by it or not yet. -/
def produced (s : ProducePath) : List RoutedTopicPartitionRecords :=
  s.buffer.handedOver.map Prod.snd

theorem produced_step {action : ProduceAction} (stepped : s.step action = some s') :
    s'.produced.Perm (s.produced ++ action.added s.cfg) := by
  have moves (inner : ClusterAction RoutedTopicPartitionRecords)
      {buffer : ClusterRun RoutedTopicPartitionRecords}
      (moved : s.buffer.step inner = some buffer) :
      (buffer.handedOver.map Prod.snd).Perm (s.produced ++ inner.items) := by
    rw [produced, ← inner.map_added, ← List.map_append]
    exact (ClusterRun.handedOver_step moved).map Prod.snd
  cases steps_of_step stepped with
  | rejected _ caller nothing =>
      rw [nothing, List.append_nil]
  | main _ inner buffer adds items quiet moved =>
      exact items ▸ moves inner moved
  | flushReturns task c res buffer flush mem returned moved =>
      exact moves (.run task { res := res }) moved
  | flushBatch | call | primary | waveStops | dispatch | legResult | hedgeBuffer | hedgeFlush =>
      exact (List.append_nil s.produced).symm ▸ List.Perm.refl _

theorem produced_run {cfg : ClientConfig} {actions : List ProduceAction}
    (runs : Machine.run step (init cfg) actions = some s) :
    s.produced.Perm (actions.flatMap fun a => a.added cfg) := by
  refine (Machine.history_run (fun done s => s.cfg = cfg ∧
    s.produced.Perm (done.flatMap fun a => a.added cfg)) ?_ ⟨rfl, .refl _⟩ runs).2
  rintro done s action s' ⟨rfl, kept⟩ stepped
  refine ⟨cfg_step stepped, ?_⟩
  rw [List.flatMap_append, List.flatMap_singleton]
  exact (produced_step stepped).trans (kept.append_right _)

end ProducePath

/-- Every run takes a number of working steps that is bounded by the records it accepted, and it
can go on with such a step until every callback has been called once, those of the items that
the callers handed over. -/
theorem produce_path_makes_progress [Snappy] {cfg : ClientConfig}
    (valid : cfg.validateBatchMaxBytes = none) {actions : List ProduceAction} {s : ProducePath}
    (runs : Machine.run ProducePath.step (ProducePath.init cfg) actions = some s) :
    Machine.tally ProducePath.step ProducePath.works (ProducePath.init cfg) actions ≤
        (19 * cfg.maxHedgeAgents + 25) *
          (actions.flatMap fun a => (a.added cfg).flatMap (·.records)).length + 2 ∧
      (s.Goes ∨ s.Done ∧
        (s.buffer.buffer.items.map (·.item)).Perm (actions.flatMap fun a => a.added cfg)) := by
  have small := ClientConfig.small_of_valid valid
  constructor
  · have total := ProducePath.tally_works_le small runs
    have start : (ProducePath.init cfg).fuel = 2 := rfl
    have records (a : ProduceAction) : weigh recordCount (a.added cfg) =
        ((a.added cfg).flatMap (·.records)).length := by
      rw [List.length_flatMap]
      rfl
    have allowed : (actions.map (ProducePath.allowance cfg)).sum =
        (19 * cfg.maxHedgeAgents + 25) *
          (actions.flatMap fun a => (a.added cfg).flatMap (·.records)).length := by
      rw [List.length_flatMap, ← List.sum_map_mul_left]
      refine congrArg List.sum (List.map_congr_left fun a _ => ?_)
      rw [ProducePath.allowance, records]
      rfl
    omega
  · have kept : s.cfg = cfg ∧ s.Going :=
      Machine.invariant_run_all (fun s => s.cfg = cfg ∧ s.Going)
        (fun s a s' inv stepped => ⟨(ProducePath.cfg_step stepped).trans inv.1,
          inv.2.step (inv.1.symm ▸ small) stepped⟩) ⟨rfl, ProducePath.going_init cfg⟩ runs
    refine (kept.2.goes_or_done (kept.1.symm ▸ small)).imp_right fun done => ⟨done, ?_⟩
    have handed := ProducePath.produced_run runs
    rw [ProducePath.produced, done.buffer.handedOver_eq, ClusterBuffer.wrappedItems,
      List.map_map] at handed
    exact handed

theorem produce_path_makes_progress_hedged :
    letI := Snappy.stored
    ∃ s, Machine.run ProducePath.step (ProducePath.init ⟨16000000, 3⟩) hedgedRecord = some s ∧
      Machine.tally ProducePath.step ProducePath.works (ProducePath.init ⟨16000000, 3⟩)
        hedgedRecord = 26 ∧ 26 ≤ (19 * 3 + 25) * 1 + 2 ∧ (s.Goes ∨ s.Done ∧
        (s.buffer.buffer.items.map (·.item)).Perm (hedgedRecord.flatMap (·.added ⟨16000000, 3⟩))) := by
  let _ := Snappy.stored
  have isSome : (Machine.run ProducePath.step (ProducePath.init ⟨16000000, 3⟩)
      hedgedRecord).isSome := by decide +kernel
  obtain ⟨s, runs⟩ := Option.isSome_iff_exists.mp isSome
  have count : Machine.tally ProducePath.step ProducePath.works (ProducePath.init ⟨16000000, 3⟩)
      hedgedRecord = 26 := by decide +kernel
  obtain ⟨-, goes⟩ := produce_path_makes_progress (by decide) runs
  exact ⟨s, runs, count, by decide, goes⟩

end Warpstream
