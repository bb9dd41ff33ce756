import Warpstream.ClusterBufferTaken
import Warpstream.ProducePath

set_option autoImplicit false

/- What holds along the produce path: every hand-over keeps where its data comes from, so a
record that is reported as produced was acknowledged on the wire, and nothing is on the wire
that was not produced. -/
namespace Warpstream

open RoutedBatch

namespace HedgerCall

variable {c c' : HedgerCall}

theorem cascadeOrStart_of_some {cascade : Cascade} (running : c.cascade = some cascade) :
    c.cascadeOrStart = cascade := by
  simp only [cascadeOrStart, running]

theorem cfg_startCascade (c : HedgerCall) (trigger : HedgeTrigger) :
    (c.startCascade trigger).cfg = c.cfg ∧ (c.startCascade trigger).primaryRaw = c.primaryRaw := by
  unfold startCascade
  simp only
  split <;> exact ⟨rfl, rfl⟩

/-- A cascade that starts stands where it was said to stand. -/
theorem Core.cascadeOrStart_startCascade (core : c.Core) (trigger : HedgeTrigger)
    (idle : c.cascade = none) : (c.startCascade trigger).cascadeOrStart = c.cascadeOrStart := by
  obtain ⟨cascade, started, -⟩ := Cascade.ok_start core.distinct
  have same : Cascade.start { c with metrics := { c.metrics with
      hedgeTriggers := c.metrics.hedgeTriggers ++ [trigger] } }.cfg = .ok cascade := started
  simp only [startCascade, same]
  simp only [cascadeOrStart, idle, started]

/-- Two states of a call with the same attempts behind them. -/
structure SameAttempts (c c' : HedgerCall) : Prop where
  cfg : c'.cfg = c.cfg
  primary : c'.primaryRaw = c.primaryRaw
  acc : c'.cascadeOrStart.acc = c.cascadeOrStart.acc
  received : c'.cascadeOrStart.received = c.cascadeOrStart.received
  tried : c'.cascadeOrStart.tried = c.cascadeOrStart.tried

theorem SameAttempts.of_eq (cfg : c'.cfg = c.cfg) (primary : c'.primaryRaw = c.primaryRaw)
    (cascade : c'.cascade = c.cascade) : SameAttempts c c' := by
  have same : c'.cascadeOrStart = c.cascadeOrStart := by
    unfold cascadeOrStart
    rw [cfg, cascade]
  exact ⟨cfg, primary, by rw [same], by rw [same], by rw [same]⟩

theorem Core.sameAttempts (core : c.Core) (trigger : HedgeTrigger) (phase : CallPhase)
    (idle : c.cascade = none) : SameAttempts c { c.startCascade trigger with phase := phase } := by
  obtain ⟨cfg, primary⟩ := c.cfg_startCascade trigger
  have same := core.cascadeOrStart_startCascade trigger idle
  have kept : HedgerCall.cascadeOrStart { c.startCascade trigger with phase := phase } =
      (c.startCascade trigger).cascadeOrStart := rfl
  exact ⟨cfg, primary, by rw [kept, same], by rw [kept, same], by rw [kept, same]⟩

theorem SameAttempts.running {before : Cascade} (after : Cascade) (running : c.cascade = some before)
    (acc : after.acc = before.acc) (received : after.received = before.received)
    (tried : after.tried = before.tried) (fallbackCh : Option HedgerProduceResult) :
    SameAttempts c { c with cascade := some after, fallbackCh := fallbackCh } := by
  refine ⟨rfl, rfl, ?_, ?_, ?_⟩
  · simp only [cascadeOrStart, running, acc]
  · simp only [cascadeOrStart, running, received]
  · simp only [cascadeOrStart, running, tried]

/-- The steps that a call makes on its own read no attempt. -/
theorem Inv.sameAttempts (inv : c.Inv) {action : CallAction} (own : action.isLocal = true)
    (stepped : c.step action = some c') : SameAttempts c c' := by
  have known := inv.phase
  cases moves_of_step stepped with
  | start fresh =>
      simp only [PhaseOk, fresh] at known
      unfold HedgerCall.begin
      split
      · exact .of_eq rfl rfl rfl
      · split
        · exact .of_eq rfl rfl rfl
        · split
          · split
            · exact inv.core.sameAttempts _ _ known.2.2.1
            · exact .of_eq rfl rfl rfl
          · exact .of_eq rfl rfl rfl
  | ctxEnds => exact .of_eq rfl rfl rfl
  | primaryReturns => cases own
  | timerFires waits => exact inv.core.sameAttempts _ _ (inv.idle_of_waits (Or.inr waits)).2.1
  | @cascade action before after running moved =>
      cases action with
      | wave | legResult => cases own
      | ctxDone =>
          simp only [Cascade.step] at moved
          split at moved
          · obtain rfl := Option.some.inj moved
            exact .running (before.stop .none) running rfl rfl rfl c.fallbackCh
          · cases moved
      | leaveLoop =>
          simp only [Cascade.step] at moved
          split at moved
          · obtain rfl := Option.some.inj moved
            exact .running (before.stop .none) running rfl rfl rfl c.fallbackCh
          · cases moved
  | @cascadeReturns _ _ cascade _ running =>
      exact .running { cascade with phase := .finished } running rfl rfl rfl _
  | @takePrimary _ primary _ arrived next =>
      cases readsPrimary_of_onPrimary next with
      | won | lost | settled => exact .of_eq rfl rfl rfl
      | failed waits failure =>
          have read := (inv.core.readPrimary primary).sameAttempts .primaryFailure
            (.afterPrimary primary) (inv.idle_of_waits waits).2.1
          exact ⟨read.cfg, read.primary, read.acc, read.received, read.tried⟩
  | takeFallback arrived next =>
      obtain ⟨phase, metrics, -, rfl⟩ := (readsFallback_of_onFallback next).setsPhase
      exact .of_eq rfl rfl rfl

/-- A call that has returned stays returned. -/
theorem returned_of_step {action : CallAction} (stepped : c.step action = some c')
    {res : ProduceResult} (returned : c.phase = .returned res) : c'.phase = .returned res := by
  cases moves_of_step stepped with
  | start fresh => cases returned.symm.trans fresh
  | ctxEnds | primaryReturns | cascade | cascadeReturns => exact returned
  | timerFires waits => cases returned.symm.trans waits
  | takePrimary arrived next =>
      cases readsPrimary_of_onPrimary next with
      | won waits =>
          rcases waits with here | here | ⟨trigger, here⟩ <;> cases returned.symm.trans here
      | failed waits => rcases waits with here | here <;> cases returned.symm.trans here
      | lost racing => cases returned.symm.trans racing
      | settled waits => cases returned.symm.trans waits
  | takeFallback arrived next =>
      cases readsFallback_of_onFallback next with
      | settled waits => rcases waits with ⟨here, -⟩ | here <;> cases returned.symm.trans here
      | won racing => cases returned.symm.trans racing
      | lost racing => cases returned.symm.trans racing

end HedgerCall

namespace ClusterBuffer

variable {W : Type} [RoutedBatch W] {Good Better : W → Prop} {max : Nat} {c : ClusterBuffer W}
  {ops : List (Op W)}

theorem Binned.imp (binned : Binned Good max c ops) (imp : ∀ w, Good w → Better w) :
    Binned Better max c ops := by
  refine ⟨binned.size, fun a mem => ?_, fun op mem => ?_⟩
  · obtain ⟨size, bin⟩ := binned.agents a mem
    exact ⟨size, bin.sums, fun p inside => (bin.entries p inside).imp_left (imp p.item), bin.room⟩
  · have ok := binned.sound op mem
    cases op with
    | add => exact imp _ ok
    | multiAdd => exact ⟨fun w inside => imp w (ok.1 w inside), fun p inside => imp _ (ok.2 p inside)⟩
    | addToBuffers => exact fun p inside => imp _ (ok p inside)
    | agentBufferFor => exact fun p inside => (ok p inside).imp_left (imp p.item)
    | agentAdd =>
        obtain ⟨a, found, good⟩ := ok
        exact ⟨a, found, fun p inside => (good p inside).imp_left (imp p.item)⟩
    | done | fireOrigDone | origDone | flush | closeAgent => trivial

/-- Only the return of a flush function adds a result. -/
theorem returned_of_runs {ctxErr : Nat → Option GoError} {op : Op W} {effect : Effect W}
    (ran : Runs c ctxErr op effect) :
    effect.next.returned = c.returned ∨ ∃ agent index entries res,
      op = .flush agent index entries ∧ effect.next.returned = c.returned ++ [⟨agent, index, res⟩] := by
  cases ran with
  | flush agent index entries res => exact Or.inr ⟨agent, index, entries, res, rfl, rfl⟩
  | _ => exact Or.inl rfl

end ClusterBuffer

namespace ClusterRun

variable {W : Type} [RoutedBatch W] [DecidableEq W] {r r' : ClusterRun W}

theorem returned_of_quiet {action : ClusterAction W} (quiet : r.returnsFlush action = false)
    (stepped : r.step action = some r') : r'.buffer.returned = r.buffer.returned := by
  cases steps_of_step stepped with
  | add | multiAddNone | multiAdd | cancel | watchFires | timerFlush | closeAgain | close => rfl
  | run task choice op rest effect found ran =>
      rcases ClusterBuffer.returned_of_runs ran with same | ⟨agent, index, entries, res, rfl, -⟩
      · exact same
      · simp [returnsFlush, flushOf, found] at quiet

theorem returned_of_flush {task agent index : Nat} {choice : Choice W}
    (flush : r.flushOf task = some (agent, index))
    (stepped : r.step (.run task choice) = some r') :
    r'.buffer.returned = r.buffer.returned ++ [⟨agent, index, choice.res⟩] := by
  obtain ⟨entries, rest, found⟩ := ProducePath.flushOf_eq_some flush
  simp only [step, found, ClusterBuffer.exec, Option.bind_eq_bind, Option.bind_some,
    Option.some.injEq] at stepped
  rw [← stepped]

end ClusterRun

namespace ProducePath

variable [Snappy] {s s' : ProducePath} {added : List RoutedTopicPartitionRecords}

/-- The flush of a call has the routed partitions, encoded. -/
structure CallOk (s : ProducePath) (c : FlushCall) : Prop where
  call : c.call.Inv
  flush : ∃ a f, s.buffer.buffer.agentBuffers[c.agent]? = some a ∧ a.flushes[c.index]? = some f ∧
    encodePartitions f.wire = some c.call.routed
  pending : ∀ tp p, c.call.cascadeOrStart.acc.pending.lookup tp = some p → p ∈ c.call.cfg.partitions
  primary : ∀ raw, c.call.primaryRaw = some raw → ∃ attempt ∈ s.wire,
    attempt.partitions = c.call.cfg.partitions ∧ attempt.result = raw

/-- A batch that the client encoded, and a call was given. -/
def Ours (s : ProducePath) (w : RoutedEncodedTopicPartitionRecords) : Prop :=
  SelfEncoded w.toEncodedTopicPartitionRecords ∧
    ∃ c ∈ s.calls, w.toEncodedTopicPartitionRecords ∈ c.call.cfg.partitions

/-- The attempt sent the partitions of a call or those of a flush of the hedge buffer. -/
def Sent (s : ProducePath) (attempt : Attempt) : Prop :=
  (∃ c ∈ s.calls, attempt.partitions = c.call.cfg.partitions) ∨
    ∃ a ∈ s.hedgeBuffer.buffer.agentBuffers, ∃ f ∈ a.flushes,
      attempt.partitions = unrouteEncodedTopicPartitionRecords f.wire

/-- The result of a flush of the main buffer is that of its call. -/
def FromCall (s : ProducePath) (ret : FlushReturn) : Prop :=
  ∃ c ∈ s.calls, c.agent = ret.agent ∧ c.index = ret.index ∧ c.call.phase = .returned ret.res

/-- The result of a flush of the hedge buffer is that of an attempt with its partitions. -/
def FromWire (s : ProducePath) (ret : FlushReturn) : Prop :=
  ∃ a f attempt, s.hedgeBuffer.buffer.agentBuffers[ret.agent]? = some a ∧
    a.flushes[ret.index]? = some f ∧ attempt ∈ s.wire ∧
    attempt.partitions = unrouteEncodedTopicPartitionRecords f.wire ∧ attempt.result = ret.res

/-- The item has records, and each is one of those added for its partition. -/
def PartOf (added : List RoutedTopicPartitionRecords) (w : RoutedTopicPartitionRecords) : Prop :=
  w.records ≠ [] ∧ ∀ r ∈ w.records, ∃ item ∈ added,
    getTopicPartition item = getTopicPartition w ∧ r ∈ item.records

/-- Where the data at each hand-over comes from. -/
structure Sound (added : List RoutedTopicPartitionRecords) (s : ProducePath) : Prop where
  buffer : s.buffer.AckInv
  bins : s.buffer.buffer.Binned (PartOf added) s.cfg.batchMaxBytes.toNat s.buffer.tasks.flatten
  calls : ∀ c ∈ s.calls, s.CallOk c
  returned : ∀ ret ∈ s.buffer.buffer.returned, s.FromCall ret
  hedgeBins : s.hedgeBuffer.buffer.Binned s.Ours s.cfg.batchMaxBytes.toNat
    s.hedgeBuffer.tasks.flatten
  hedgeRoom : s.hedgeBuffer.buffer.Roomy
  hedged : ∀ ret ∈ s.hedgeBuffer.buffer.returned, s.FromWire ret
  wire : ∀ attempt ∈ s.wire, s.Sent attempt

omit [Snappy] in
theorem mergeSafe_partOf (max : Nat) : MergeSafe (PartOf added) max := by
  have safe := RoutedTopicPartitionRecords.mergeSafe max
  refine ⟨fun w part => safe.positive w part.1, fun w part c mem => ?_, fun w others parts => ?_⟩
  · obtain ⟨nonempty, same⟩ := safe.split w part.1 c mem
    refine ⟨⟨nonempty, fun r inside => ?_⟩, same⟩
    have whole : r ∈ LawfulRoutedBatch.records w := by
      rw [← LawfulRoutedBatch.split_records w max]
      exact List.mem_flatMap.mpr ⟨c, mem, inside⟩
    obtain ⟨item, listed, tp, own⟩ := part.2 r whole
    exact ⟨item, listed, tp.trans same.1.symm, own⟩
  · exact safe.merge w others fun o mem => (parts o mem).1

theorem sound_init (cfg : ClientConfig) : (init cfg).Sound added where
  buffer := ClusterRun.ackInv_init _
  bins := ClusterRun.binned_init _
  calls := List.forall_mem_nil _
  returned := List.forall_mem_nil _
  hedgeBins := ClusterRun.binned_init _
  hedgeRoom := List.forall_mem_nil _
  hedged := List.forall_mem_nil _
  wire := List.forall_mem_nil _

theorem Sound.mono (sound : s.Sound added) {more : List RoutedTopicPartitionRecords}
    (known : ∀ w ∈ added, w ∈ more) : s.Sound more := by
  refine ⟨sound.buffer, sound.bins.imp fun w part => ⟨part.1, fun r mem => ?_⟩, sound.calls,
    sound.returned, sound.hedgeBins, sound.hedgeRoom, sound.hedged, sound.wire⟩
  obtain ⟨item, listed, same⟩ := part.2 r mem
  exact ⟨item, known item listed, same⟩

/-- The calls of `s` are still there in `s'`, with their arguments. -/
structure Extends (s s' : ProducePath) : Prop where
  cfg : s'.cfg = s.cfg
  buffer : ClusterBuffer.Grows s.buffer.buffer s'.buffer.buffer
  hedgeBuffer : ClusterBuffer.Grows s.hedgeBuffer.buffer s'.hedgeBuffer.buffer
  wire : ∀ attempt ∈ s.wire, attempt ∈ s'.wire
  calls : ∀ c ∈ s.calls, ∃ c' ∈ s'.calls, c'.agent = c.agent ∧ c'.index = c.index ∧
    c'.call.cfg = c.call.cfg ∧
    ∀ res, c.call.phase = .returned res → c'.call.phase = .returned res

theorem Extends.ours (ext : Extends s s') {w : RoutedEncodedTopicPartitionRecords}
    (ours : s.Ours w) : s'.Ours w := by
  obtain ⟨encoded, c, mem, part⟩ := ours
  obtain ⟨c', mem', -, -, cfg, -⟩ := ext.calls c mem
  exact ⟨encoded, c', mem', cfg ▸ part⟩

omit [Snappy] in
theorem Extends.fromCall (ext : Extends s s') {ret : FlushReturn} (source : s.FromCall ret) :
    s'.FromCall ret := by
  obtain ⟨c, mem, agent, index, returned⟩ := source
  obtain ⟨c', mem', agent', index', -, stays⟩ := ext.calls c mem
  exact ⟨c', mem', agent'.trans agent, index'.trans index, stays _ returned⟩

omit [Snappy] in
theorem Extends.flush (ext : Extends s s') {agent index : Nat}
    {a : AgentBuffer RoutedEncodedTopicPartitionRecords Callback}
    {f : Flush RoutedEncodedTopicPartitionRecords Callback}
    (found : s.hedgeBuffer.buffer.agentBuffers[agent]? = some a)
    (started : a.flushes[index]? = some f) :
    ∃ a', s'.hedgeBuffer.buffer.agentBuffers[agent]? = some a' ∧ a'.flushes[index]? = some f := by
  obtain ⟨a', new, found', flushes⟩ := ext.hedgeBuffer.agents agent a found
  refine ⟨a', found', ?_⟩
  rw [flushes, List.getElem?_append_left (List.getElem?_eq_some_iff.mp started).1]
  exact started

omit [Snappy] in
theorem Extends.fromWire (ext : Extends s s') {ret : FlushReturn} (source : s.FromWire ret) :
    s'.FromWire ret := by
  obtain ⟨a, f, attempt, found, started, mem, parts, res⟩ := source
  obtain ⟨a', found', started'⟩ := ext.flush found started
  exact ⟨a', f, attempt, found', started', ext.wire attempt mem, parts, res⟩

omit [Snappy] in
theorem Extends.sent (ext : Extends s s') {attempt : Attempt} (sent : s.Sent attempt) :
    s'.Sent attempt := by
  rcases sent with ⟨c, mem, parts⟩ | ⟨a, mem, f, inside, parts⟩
  · obtain ⟨c', mem', -, -, cfg, -⟩ := ext.calls c mem
    exact Or.inl ⟨c', mem', by rw [cfg]; exact parts⟩
  · obtain ⟨agent, found⟩ := List.mem_iff_getElem?.mp mem
    obtain ⟨index, started⟩ := List.mem_iff_getElem?.mp inside
    obtain ⟨a', found', started'⟩ := ext.flush found started
    exact Or.inr ⟨a', List.mem_of_getElem? found', f, List.mem_of_getElem? started', parts⟩

theorem Extends.callOk (ext : Extends s s') {c : FlushCall} (ok : s.CallOk c) : s'.CallOk c := by
  obtain ⟨a, f, found, started, encoded⟩ := ok.flush
  obtain ⟨a', new, found', flushes⟩ := ext.buffer.agents c.agent a found
  refine ⟨ok.call, ⟨a', f, found', ?_, encoded⟩, ok.pending, fun raw got => ?_⟩
  · rw [flushes, List.getElem?_append_left (List.getElem?_eq_some_iff.mp started).1]
    exact started
  · obtain ⟨attempt, mem, parts, res⟩ := ok.primary raw got
    exact ⟨attempt, ext.wire attempt mem, parts, res⟩

/-- The invariant after a step: only what is new has to be looked at. -/
theorem Sound.grow (sound : s.Sound added) (ext : Extends s s') (buffer : s'.buffer.AckInv)
    (bins : s'.buffer.buffer.Binned (PartOf added) s.cfg.batchMaxBytes.toNat
      s'.buffer.tasks.flatten)
    (calls : ∀ c ∈ s'.calls, c ∈ s.calls ∨ s'.CallOk c)
    (returned : ∀ ret ∈ s'.buffer.buffer.returned, ret ∈ s.buffer.buffer.returned ∨ s'.FromCall ret)
    (hedgeBins : s'.hedgeBuffer.buffer.Binned s'.Ours s.cfg.batchMaxBytes.toNat
      s'.hedgeBuffer.tasks.flatten) (hedgeRoom : s'.hedgeBuffer.buffer.Roomy)
    (hedged : ∀ ret ∈ s'.hedgeBuffer.buffer.returned,
      ret ∈ s.hedgeBuffer.buffer.returned ∨ s'.FromWire ret)
    (wire : ∀ attempt ∈ s'.wire, attempt ∈ s.wire ∨ s'.Sent attempt) : s'.Sound added where
  buffer := buffer
  bins := by rw [ext.cfg]; exact bins
  calls c mem := (calls c mem).elim (fun old => ext.callOk (sound.calls c old)) id
  returned ret mem := (returned ret mem).elim (fun old => ext.fromCall (sound.returned ret old)) id
  hedgeBins := by rw [ext.cfg]; exact hedgeBins
  hedgeRoom := hedgeRoom
  hedged ret mem := (hedged ret mem).elim (fun old => ext.fromWire (sound.hedged ret old)) id
  wire attempt mem := (wire attempt mem).elim (fun old => ext.sent (sound.wire attempt old)) id

/-- The main buffer takes a step. -/
theorem Sound.main (sound : s.Sound added) {action : ClusterAction RoutedTopicPartitionRecords}
    {buffer : ClusterRun RoutedTopicPartitionRecords} (adds : action.Adds (PartOf added))
    (stepped : s.buffer.step action = some buffer)
    (returned : ∀ ret ∈ buffer.buffer.returned, ret ∈ s.buffer.buffer.returned ∨ s.FromCall ret) :
    Sound added { s with buffer := buffer } := by
  have records : action.HasRecords := by
    cases action with
    | add ctx item => exact List.length_pos_iff.mpr adds.1
    | multiAdd ctx items => exact fun w mem => List.length_pos_iff.mpr (adds w mem).1
    | cancel | watchFires | timerFlush | close | run => trivial
  have ext : Extends s { s with buffer := buffer } :=
    ⟨rfl, (ClusterRun.steps_of_step stepped).grows, .refl _, fun _ mem => mem,
      fun c mem => ⟨c, mem, rfl, rfl, rfl, fun _ returned => returned⟩⟩
  exact sound.grow ext (ClusterRun.ackInv_step s.buffer action buffer sound.buffer records stepped)
    (ClusterRun.binned_step sound.bins (mergeSafe_partOf _) adds stepped)
    (fun c mem => Or.inl mem) (fun ret mem => (returned ret mem).imp_right ext.fromCall)
    (sound.hedgeBins.imp fun _ => ext.ours) sound.hedgeRoom (fun ret mem => Or.inl mem)
    fun attempt mem => Or.inl mem

/-- What a flush gives the Hedger. -/
theorem Sound.hedgerInput (sound : s.Sound added) {agent index : Nat}
    {a : AgentBuffer RoutedTopicPartitionRecords Callback}
    {f : Flush RoutedTopicPartitionRecords Callback}
    {routed : List RoutedEncodedTopicPartitionRecords}
    (found : s.buffer.buffer.agentBuffers[agent]? = some a) (started : a.flushes[index]? = some f)
    (encoded : encodePartitions f.wire = some routed) : HedgerInput a.nodeID routed := by
  obtain ⟨distinct, node⟩ := (sound.bins.agents a (List.mem_of_getElem? found)).2.wire
    RoutedTopicPartitionRecords.routing_of_mergeWith (List.mem_of_getElem? started)
  exact hedgerInput_of_encodePartitions distinct node encoded

/-- The partitions of a call are batches that the client encoded. -/
theorem Sound.selfEncoded (sound : s.Sound added) {c : FlushCall} (mem : c ∈ s.calls)
    {p : EncodedTopicPartitionRecords} (part : p ∈ c.call.cfg.partitions) : SelfEncoded p := by
  obtain ⟨a, f, found, started, encoded⟩ := (sound.calls c mem).flush
  obtain ⟨w, inside, rfl⟩ := List.mem_map.mp part
  exact (sound.hedgerInput found started encoded).encoded w inside

/-- A call begins. -/
theorem Sound.begin (sound : s.Sound added) {agent index : Nat} {call : HedgerCall}
    {a : AgentBuffer RoutedTopicPartitionRecords Callback}
    {f : Flush RoutedTopicPartitionRecords Callback}
    (found : s.buffer.buffer.agentBuffers[agent]? = some a) (started : a.flushes[index]? = some f)
    (encoded : encodePartitions f.wire = some call.routed) (inv : call.Inv)
    (unstarted : call.cascade = none) (unanswered : call.primaryRaw = none) :
    Sound added (s.begin (agent, index) call) := by
  have ext : Extends s (s.begin (agent, index) call) :=
    ⟨rfl, .refl _, .refl _, fun _ mem => mem, fun c mem =>
      ⟨c, List.mem_append_left _ mem, rfl, rfl, rfl, fun _ returned => returned⟩⟩
  refine sound.grow ext sound.buffer sound.bins (fun c mem => ?_) (fun ret mem => Or.inl mem)
    (sound.hedgeBins.imp fun _ => ext.ours) sound.hedgeRoom (fun ret mem => Or.inl mem)
    fun attempt mem => Or.inl mem
  refine (List.mem_append.mp mem).imp_right fun new => ?_
  obtain rfl := List.mem_singleton.mp new
  refine ⟨inv, ⟨a, f, found, started, encoded⟩, fun tp p waits => ?_, fun raw got => ?_⟩
  · obtain ⟨cascade, begins, -⟩ := Cascade.ok_start inv.core.distinct
    simp only [HedgerCall.cascadeOrStart, unstarted, begins] at waits
    exact pending_of_start begins waits
  · cases unanswered.symm.trans got

/-- A call moves on, with attempts added to the wire. -/
theorem Sound.setCall (sound : s.Sound added) {q : Nat} {c : FlushCall} (found : s.calls[q]? = some c)
    {action : CallAction} {call : HedgerCall} (ctx : Nat) (stepped : c.call.step action = some call)
    (cfg : call.cfg = c.call.cfg)
    (next : s'.cfg = s.cfg ∧ s'.buffer = s.buffer ∧
      s'.calls = s.calls.set q { c with call := call, attemptCtx := ctx })
    (wire : ∃ new, s'.wire = s.wire ++ new ∧
      ∀ attempt ∈ new, attempt.partitions = c.call.cfg.partitions)
    (pending : ∀ tp p, call.cascadeOrStart.acc.pending.lookup tp = some p →
      c.call.cascadeOrStart.acc.pending.lookup tp = some p)
    (primary : ∀ raw, call.primaryRaw = some raw → c.call.primaryRaw = some raw ∨
      ∃ attempt ∈ s'.wire, attempt.partitions = c.call.cfg.partitions ∧ attempt.result = raw)
    (hedgeGrows : s'.hedgeBuffer.buffer = s.hedgeBuffer.buffer)
    (hedgeBins : (∀ w, s.Ours w → s'.Ours w) →
      s'.hedgeBuffer.buffer.Binned s'.Ours s.cfg.batchMaxBytes.toNat
        s'.hedgeBuffer.tasks.flatten) : s'.Sound added := by
  obtain ⟨sameCfg, sameBuffer, calls⟩ := next
  obtain ⟨new, wires, sends⟩ := wire
  have inside := (List.getElem?_eq_some_iff.mp found).1
  have here : { c with call := call, attemptCtx := ctx } ∈ s'.calls := by
    rw [calls]
    exact List.mem_iff_getElem?.mpr ⟨q, List.getElem?_set_self inside⟩
  have ok := sound.calls c (List.mem_of_getElem? found)
  have ext : Extends s s' := by
    refine ⟨sameCfg, sameBuffer ▸ .refl _, hedgeGrows ▸ .refl _, ?_, fun old mem => ?_⟩
    · intro attempt mem
      rw [wires]
      exact List.mem_append_left _ mem
    · obtain ⟨k, place⟩ := List.mem_iff_getElem?.mp mem
      by_cases same : k = q
      · subst same
        obtain rfl := Option.some.inj (found.symm.trans place)
        exact ⟨_, here, rfl, rfl, cfg, fun res => HedgerCall.returned_of_step stepped⟩
      · refine ⟨old, ?_, rfl, rfl, rfl, fun _ returned => returned⟩
        rw [calls]
        exact List.mem_iff_getElem?.mpr ⟨k, by rw [List.getElem?_set_ne (Ne.symm same)]; exact place⟩
  refine sound.grow ext (sameBuffer ▸ sound.buffer) (sameBuffer ▸ sound.bins) (fun x mem => ?_)
    (fun ret mem => Or.inl (sameBuffer ▸ mem)) (hedgeBins fun _ => ext.ours)
    (hedgeGrows ▸ sound.hedgeRoom) (fun ret mem => Or.inl (hedgeGrows ▸ mem)) fun attempt mem => ?_
  · rw [calls] at mem
    refine (List.mem_or_eq_of_mem_set mem).imp_right ?_
    rintro rfl
    obtain ⟨a, f, foundAgent, started, encoded⟩ := (ext.callOk ok).flush
    refine ⟨HedgerCall.inv_step _ _ _ ok.call stepped, ⟨a, f, foundAgent, started, ?_⟩,
      fun tp p waits => ?_, fun raw got => ?_⟩
    · dsimp only
      rw [HedgerCall.routed_step _ _ _ stepped]
      exact encoded
    · dsimp only
      rw [cfg]
      exact ok.pending tp p (pending tp p waits)
    · dsimp only
      rw [cfg]
      rcases primary raw got with old | fresh
      · obtain ⟨attempt, mem, same⟩ := ok.primary raw old
        exact ⟨attempt, ext.wire attempt mem, same⟩
      · exact fresh
  · rw [wires] at mem
    refine (List.mem_append.mp mem).imp_right fun fresh => Or.inl ⟨_, here, ?_⟩
    dsimp only
    rw [cfg]
    exact sends attempt fresh

theorem mergeSafe_ours {max : Nat} (small : max ≤ 2 ^ 30) : MergeSafe s.Ours max := by
  have safe := RoutedEncodedTopicPartitionRecords.mergeSafe small
  refine ⟨fun w ours => safe.positive w ours.1, fun w ours c mem => ?_, fun w others ours => ?_⟩
  · rw [List.mem_singleton.mp mem]
    exact ⟨ours, rfl, rfl⟩
  · exact safe.merge w others fun o mem => (ours o mem).1

/-- The hedge buffer takes a step. -/
theorem Sound.hedgeStep (sound : s.Sound added) (small : s.cfg.batchMaxBytes.toNat ≤ 2 ^ 30)
    {action : ClusterAction RoutedEncodedTopicPartitionRecords}
    {run : ClusterRun RoutedEncodedTopicPartitionRecords} (internal : action.isInternal = true)
    (stepped : s.hedgeBuffer.step action = some run)
    (next : s'.cfg = s.cfg ∧ s'.buffer = s.buffer ∧ s'.calls = s.calls ∧ s'.hedgeBuffer = run)
    (more : ∀ attempt ∈ s.wire, attempt ∈ s'.wire)
    (returned : ∀ ret ∈ run.buffer.returned, ret ∈ s.hedgeBuffer.buffer.returned ∨ s'.FromWire ret)
    (wire : ∀ attempt ∈ s'.wire, attempt ∈ s.wire ∨ s'.Sent attempt) : s'.Sound added := by
  obtain ⟨cfg, buffer, calls, hedgeBuffer⟩ := next
  have adds : action.Adds s.Ours := ClusterAction.adds_of_isInternal internal
  have ext : Extends s s' := by
    refine ⟨cfg, buffer ▸ .refl _, ?_, more, fun c mem =>
      ⟨c, calls ▸ mem, rfl, rfl, rfl, fun _ returned => returned⟩⟩
    rw [hedgeBuffer]
    exact (ClusterRun.steps_of_step stepped).grows
  have bins := ClusterRun.binned_step sound.hedgeBins (mergeSafe_ours small) adds stepped
  refine sound.grow ext (buffer ▸ sound.buffer) (buffer ▸ sound.bins)
    (fun c mem => Or.inl (calls ▸ mem)) (fun ret mem => Or.inl (buffer ▸ mem)) ?_ ?_
    (fun ret mem => returned ret (hedgeBuffer ▸ mem)) wire
  · rw [hedgeBuffer]
    exact bins.imp fun _ => ext.ours
  · rw [hedgeBuffer]
    exact ClusterRun.roomy_step sound.hedgeBins (mergeSafe_ours small) sound.hedgeRoom stepped

/-- The items of a wave's legs are batches of the call. -/
theorem Sound.ours_of_wave (sound : s.Sound added) {q : Nat} {c : FlushCall} {cascade : Cascade}
    {order : List EncodedTopicPartitionRecords} {tried : GoMap TopicPartition (List Int)}
    {chosen : List (Int × EncodedTopicPartitionRecords)} {legs : List HedgeLeg} {leg : HedgeLeg}
    {w : RoutedEncodedTopicPartitionRecords} (found : s.calls[q]? = some c)
    (running : c.call.cascade = some cascade) (pending : cascade.acc.Remaining order)
    (picked : pickCandidates c.call.cfg cascade.tried order = .ok (tried, chosen))
    (grouped : legs.Perm (groupLegs chosen)) (member : leg ∈ legs) (item : w ∈ leg.items) :
    s.Ours w := by
  have mem := List.mem_of_getElem? found
  have stands := HedgerCall.cascadeOrStart_of_some running
  obtain ⟨p, part, rfl⟩ := HedgeLeg.mem_items.mp item
  obtain ⟨tp, waits⟩ := pending_of_wave pending picked grouped leg member p part
  have listed := (sound.calls c mem).pending tp p (stands.symm ▸ waits)
  exact ⟨sound.selfEncoded mem listed, c, mem, listed⟩

/-- Every step keeps where the data comes from. -/
theorem Sound.step (sound : s.Sound added) (small : s.cfg.batchMaxBytes.toNat ≤ 2 ^ 30)
    {action : ProduceAction} (known : ∀ w ∈ action.added s.cfg, w ∈ added)
    (stepped : s.step action = some s') : s'.Sound added := by
  cases steps_of_step stepped with
  | rejected => exact sound
  | main _ inner buffer adds items quiet moved =>
      have parts : inner.Adds (PartOf added) :=
        adds.imp fun w new => ⟨new.1, fun r mem => ⟨w, known w new.2, rfl, mem⟩⟩
      refine sound.main parts moved fun ret mem => Or.inl ?_
      rwa [ClusterRun.returned_of_quiet quiet moved] at mem
  | flushBatch task agent index candidates a f routed found started encoded flush fresh =>
      have input := sound.hedgerInput found started encoded
      exact sound.begin found started encoded (HedgerCall.inv_init input.distinct input.node) rfl rfl
  | flushReturns task c res buffer flush mem returned moved =>
      have adds : (ClusterAction.run task { res := res }).Adds (PartOf added) := trivial
      refine sound.main adds moved fun ret member => ?_
      rw [ClusterRun.returned_of_flush flush moved] at member
      refine (List.mem_append.mp member).imp_right fun new => ?_
      obtain rfl := List.mem_singleton.mp new
      exact ⟨c, mem, rfl, rfl, returned⟩
  | call q inner c call found own moved =>
      have same := (sound.calls c (List.mem_of_getElem? found)).call.sameAttempts own moved
      exact sound.setCall found c.attemptCtx moved same.cfg ⟨rfl, rfl, rfl⟩
        ⟨[], (List.append_nil _).symm, List.forall_mem_nil _⟩ (fun tp p waits => same.acc ▸ waits)
        (fun raw got => Or.inl (same.primary ▸ got)) rfl fun ours => sound.hedgeBins.imp ours
  | primary q env c found call attempt sends moved =>
      have parts : attempt.partitions = c.call.cfg.partitions := by rw [sends]; rfl
      cases HedgerCall.moves_of_step moved with
      | primaryReturns runs =>
          refine sound.setCall found c.attemptCtx moved rfl ⟨rfl, rfl, rfl⟩ ⟨[attempt], rfl, ?_⟩
            (fun tp p waits => waits) (fun raw got => Or.inr ?_) rfl
            fun ours => sound.hedgeBins.imp ours
          · intro other mem
            rw [List.mem_singleton.mp mem]
            exact parts
          · exact ⟨attempt, List.mem_append_right _ (List.mem_singleton_self _), parts,
              Option.some.inj got⟩
  | waveStops q order legs c cascade exhaustion found running moved =>
      have same := HedgerCall.SameAttempts.running (cascade.stop exhaustion) running rfl rfl rfl
        c.call.fallbackCh
      exact sound.setCall found c.attemptCtx moved rfl ⟨rfl, rfl, rfl⟩
        ⟨[], (List.append_nil _).symm, List.forall_mem_nil _⟩ (fun tp p waits => same.acc ▸ waits)
        (fun raw got => Or.inl got) rfl fun ours => sound.hedgeBins.imp ours
  | dispatch q order legs c cascade tried chosen found running pending picked grouped moved =>
      have stands := HedgerCall.cascadeOrStart_of_some running
      refine sound.setCall found s.nextCtx moved rfl ⟨rfl, rfl, rfl⟩
        ⟨[], (List.append_nil _).symm, List.forall_mem_nil _⟩ (fun tp p waits => stands ▸ waits)
        (fun raw got => Or.inl got) rfl fun ours => ?_
      refine ClusterRun.binned_spawn (sound.hedgeBins.imp ours) fun op inside => ?_
      obtain ⟨leg, member, rfl⟩ : ∃ leg ∈ legs, op = .multiAdd (some s.nextCtx) leg.items [] := by
        simpa [eq_comm] using inside
      refine ⟨fun w item => ours w ?_, fun p none => by cases none⟩
      exact sound.ours_of_wave found running pending picked grouped member item
  | legResult q i c cascade leg l d found running waits mem owner sent moved =>
      have stands := HedgerCall.cascadeOrStart_of_some running
      refine sound.setCall found c.attemptCtx moved rfl ⟨rfl, rfl, rfl⟩
        ⟨[], (List.append_nil _).symm, List.forall_mem_nil _⟩
        (fun tp p left => ?_) (fun raw got => Or.inl got) rfl fun ours => sound.hedgeBins.imp ours
      rw [stands]
      exact ProduceResultAccumulator.lookup_pending_of_accumulate ⟨leg.own, d.res⟩ left
  | hedgeBuffer action run internal quiet moved =>
      refine sound.hedgeStep small internal moved ⟨rfl, rfl, rfl, rfl⟩ (fun _ mem => mem)
        (fun ret mem => Or.inl ?_) fun attempt mem => Or.inl mem
      rwa [ClusterRun.returned_of_quiet quiet moved] at mem
  | hedgeFlush task agent index env a f attempt run flush found started sends moved =>
      have parts : attempt.partitions = unrouteEncodedTopicPartitionRecords f.wire := by
        rw [sends]
        rfl
      obtain ⟨a', new, found', flushes⟩ :=
        (ClusterRun.steps_of_step moved).grows.agents agent a found
      have started' : a'.flushes[index]? = some f := by
        rw [flushes, List.getElem?_append_left (List.getElem?_eq_some_iff.mp started).1]
        exact started
      have sent : attempt ∈ s.wire ++ [attempt] := List.mem_append_right _ (List.mem_singleton_self _)
      have internal : (ClusterAction.run (W := RoutedEncodedTopicPartitionRecords) task
          { res := attempt.result }).isInternal = true := rfl
      refine sound.hedgeStep small internal moved ⟨rfl, rfl, rfl, rfl⟩
        (fun _ mem => List.mem_append_left _ mem) (fun ret mem => ?_)
        fun other mem => ?_
      · rw [ClusterRun.returned_of_flush flush moved] at mem
        refine (List.mem_append.mp mem).imp_right fun fresh => ?_
        obtain rfl := List.mem_singleton.mp fresh
        exact ⟨a', f, attempt, found', started', sent, parts, rfl⟩
      · refine (List.mem_append.mp mem).imp_right fun fresh => Or.inr ?_
        obtain rfl := List.mem_singleton.mp fresh
        exact ⟨a', List.mem_of_getElem? found', f, List.mem_of_getElem? started', parts⟩

theorem buffer_advances {action : ProduceAction} (stepped : s.step action = some s') :
    s.buffer.Advances s'.buffer := by
  cases steps_of_step stepped with
  | main _ inner buffer adds items quiet moved =>
      refine .step inner ?_ moved
      cases inner with
      | add ctx item => exact List.length_pos_iff.mpr adds.1
      | multiAdd ctx items => exact fun item mem => List.length_pos_iff.mpr (adds item mem).1
      | cancel | watchFires | timerFlush | close | run => trivial
  | flushReturns task c res buffer flush mem returned moved =>
      exact .step (.run task { res := res }) trivial moved
  | rejected | flushBatch | call | primary | waveStops | dispatch | legResult | hedgeBuffer
  | hedgeFlush => exact .stays

theorem hedgeBuffer_advances (sound : s.Sound added) (small : s.cfg.batchMaxBytes.toNat ≤ 2 ^ 30)
    {action : ProduceAction} (stepped : s.step action = some s') :
    s.hedgeBuffer.Advances s'.hedgeBuffer := by
  cases steps_of_step stepped with
  | dispatch q order legs c cascade tried chosen found running pending picked grouped moved =>
      refine .adds _ fun op inside => ?_
      obtain ⟨leg, member, rfl⟩ : ∃ leg ∈ legs, op = .multiAdd (some s.nextCtx) leg.items [] := by
        simpa [eq_comm] using inside
      refine ⟨_, _, rfl, fun w item => ?_⟩
      have ours := sound.ours_of_wave found running pending picked grouped member item
      exact (mergeSafe_ours small).positive w ours
  | hedgeBuffer action run internal quiet moved =>
      exact .step action (ClusterAction.hasRecords_of_isInternal internal) moved
  | hedgeFlush task agent index env a f attempt run flush found started sends moved =>
      exact .step (.run task { res := attempt.result }) trivial moved
  | rejected | main | flushBatch | flushReturns | call | primary | waveStops | legResult =>
      exact .stays

end ProducePath

end Warpstream
