import Warpstream.ClusterBufferClose
import Warpstream.ProducePathDelivery

set_option autoImplicit false

/- `WarpstreamClient.Close` over the whole produce path: it closes the main buffer and waits for
it, and only then closes the Hedger, whose hedge buffer the calls in flight still need. -/
namespace Warpstream

namespace ClusterRun

open ClusterBuffer

variable {W : Type} [RoutedBatch W] {r r' : ClusterRun W}

theorem Advances.follows [DecidableEq W] [LawfulSplit W] (inv : TakenInv r)
    (shaped : r.buffer.Shaped) (advances : r.Advances r') : r.Follows r' := by
  cases advances with
  | stays => exact .refl shaped
  | adds tasks items =>
      refine follows_spawn shaped rfl id fun op mem => ?_
      obtain ⟨ctx, todo, rfl, -⟩ := items op mem
      rfl
  | step action records stepped => exact follows_of_step inv shaped stepped

theorem closed_of_step [DecidableEq W] {action : ClusterAction W} (stepped : r.step action = some r')
    (other : action ≠ .close) : r'.buffer.closed = r.buffer.closed := by
  cases steps_of_step stepped with
  | close => exact absurd rfl other
  | run task choice op rest effect found ran => cases ran <;> rfl
  | add | multiAddNone | multiAdd | cancel | watchFires | timerFlush | closeAgain => rfl

/-- A step that returns from no flush leaves every flush that is still to return. -/
theorem flush_of_quiet [DecidableEq W] {action : ClusterAction W}
    (quiet : r.returnsFlush action = false) (stepped : r.step action = some r') {agent index : Nat}
    {entries : List (Promised W Callback)} (mem : .flush agent index entries ∈ r.tasks.flatten) :
    .flush agent index entries ∈ r'.tasks.flatten := by
  have more {tasks : List (List (Op W))} :
      .flush agent index entries ∈ (r.tasks ++ tasks).flatten := by
    rw [List.flatten_append]
    exact List.mem_append_left _ mem
  cases steps_of_step stepped with
  | add | multiAdd | watchFires | timerFlush | close => exact more
  | multiAddNone | cancel | closeAgain => exact mem
  | run task choice op rest effect found ran =>
      refine (Pool.flatten_run_perm found effect.ops effect.spawned).mem_iff.mp ?_
      refine List.mem_append_right _ ?_
      refine (List.mem_cons.mp ((Pool.flatten_perm found).mem_iff.mp mem)).resolve_left fun same => ?_
      simp [returnsFlush, flushOf, found, ← same] at quiet

/-- The return from a flush leaves the others. -/
theorem flush_of_return [DecidableEq W] {task agent index k n : Nat} {choice : Choice W}
    {entries : List (Promised W Callback)} (flush : r.flushOf task = some (agent, index))
    (stepped : r.step (.run task choice) = some r') (other : (k, n) ≠ (agent, index))
    (mem : .flush k n entries ∈ r.tasks.flatten) : .flush k n entries ∈ r'.tasks.flatten := by
  obtain ⟨entries', rest', here⟩ := ProducePath.flushOf_eq_some flush
  cases steps_of_step stepped with
  | run _ _ op rest effect found ran =>
      refine (Pool.flatten_run_perm found effect.ops effect.spawned).mem_iff.mp ?_
      refine List.mem_append_right _ ?_
      refine (List.mem_cons.mp ((Pool.flatten_perm found).mem_iff.mp mem)).resolve_left fun same => ?_
      obtain ⟨rfl, -⟩ := List.cons.inj (Option.some.inj (here.symm.trans found))
      obtain ⟨rfl, rfl, -⟩ := Op.flush.inj same
      exact other rfl

end ClusterRun

/-- The produce path with the two buffers' `Close`. -/
structure ClosingClient where
  path : ProducePath
  main : CloseWait := {}
  hedge : CloseWait := {}

inductive ClosingClientAction where
  | path (action : ProduceAction)
  /-- `closeOnce` lets one caller through, who calls `buffer.Close` -/
  | close
  | drained (agent : Nat)
  /-- `buffer.Close` has returned -/
  | bufferClosed
  | hedgerClose
  | hedgeDrained (agent : Nat)
  /-- `hedger.Close` has returned -/
  | hedgerClosed

/-- The items that an action hands to the main buffer. -/
def ClosingClientAction.added (cfg : ClientConfig) :
    ClosingClientAction → List RoutedTopicPartitionRecords
  | .path action => action.added cfg
  | _ => []

/-- The action closes a buffer, which only the client's `Close` does. -/
def ProduceAction.closes : ProduceAction → Bool
  | .buffer .close | .hedgeBuffer .close => true
  | _ => false

namespace ClosingClient

def init (cfg : ClientConfig) : ClosingClient := { path := ProducePath.init cfg }

def follow (s : ClosingClient) (path : ProducePath) : ClosingClient :=
  ⟨path, s.main.follow s.path.buffer path.buffer, s.hedge.follow s.path.hedgeBuffer path.hedgeBuffer⟩

def step [Snappy] (s : ClosingClient) : ClosingClientAction → Option ClosingClient
  | .path action => if action.closes then none else (s.path.step action).map s.follow
  | .close =>
      if s.path.buffer.buffer.closed then none else (s.path.step (.buffer .close)).map s.follow
  | .drained agent => (s.main.drain s.path.buffer agent).map fun main => { s with main := main }
  | .bufferClosed => s.main.finish.map fun main => { s with main := main }
  | .hedgerClose =>
      if s.main.returned && !s.path.hedgeBuffer.buffer.closed then
        (s.path.step (.hedgeBuffer .close)).map s.follow
      else none
  | .hedgeDrained agent =>
      (s.hedge.drain s.path.hedgeBuffer agent).map fun hedge => { s with hedge := hedge }
  | .hedgerClosed => s.hedge.finish.map fun hedge => { s with hedge := hedge }

end ClosingClient

namespace ProducePath

open ClusterRun

variable [Snappy] {s s' : ProducePath} {added : List RoutedTopicPartitionRecords}

/-- Only its own `Close` closes the hedge buffer. -/
theorem hedgeBuffer_closed_of_step {action : ProduceAction} (stepped : s.step action = some s')
    (other : action ≠ .hedgeBuffer .close) :
    s'.hedgeBuffer.buffer.closed = s.hedgeBuffer.buffer.closed := by
  cases steps_of_step stepped with
  | hedgeBuffer action run internal quiet moved =>
      exact closed_of_step moved fun same => other (same ▸ rfl)
  | hedgeFlush task agent index env a f attempt run flush found started sends moved =>
      exact closed_of_step moved fun same => by cases same
  | rejected | main | flushBatch | flushReturns | call | primary | waveStops | dispatch
  | legResult => rfl

/-- Every call belongs to a flush of its own, which returns only after the call. -/
structure Live (s : ProducePath) : Prop where
  unique : (s.calls.map fun c => (c.agent, c.index)).Nodup
  calls : ∀ c ∈ s.calls, (∃ entries, .flush c.agent c.index entries ∈ s.buffer.tasks.flatten) ∨
    ∃ res, c.call.phase = .returned res

omit [Snappy] in
theorem Live.setCall (live : s.Live) {q : Nat} {c : FlushCall} {action : CallAction}
    {call : HedgerCall} {ctx : Nat} (found : s.calls[q]? = some c)
    (moved : c.call.step action = some call)
    (calls : s'.calls = s.calls.set q { c with call := call, attemptCtx := ctx })
    (buffer : s'.buffer = s.buffer) : s'.Live where
  unique := by
    have same : s'.calls.map (fun c => (c.agent, c.index)) =
        s.calls.map fun c => (c.agent, c.index) := by
      rw [calls]
      exact Pool.map_set_of_eq _ found rfl
    rw [same]
    exact live.unique
  calls x mem := by
    rw [calls] at mem
    rw [buffer]
    rcases List.mem_or_eq_of_mem_set mem with old | rfl
    · exact live.calls x old
    · refine (live.calls c (List.mem_of_getElem? found)).imp_right ?_
      rintro ⟨res, returned⟩
      exact ⟨res, HedgerCall.returned_of_step moved returned⟩

theorem Live.step (live : s.Live) {action : ProduceAction} (stepped : s.step action = some s') :
    s'.Live := by
  cases steps_of_step stepped with
  | rejected => exact live
  | main _ inner buffer adds items quiet moved =>
      refine ⟨live.unique, fun c mem => (live.calls c mem).imp_left ?_⟩
      rintro ⟨entries, waits⟩
      exact ⟨entries, flush_of_quiet quiet moved waits⟩
  | flushBatch task agent index candidates a f routed found started encoded flush fresh =>
      obtain ⟨entries, rest, here⟩ := flushOf_eq_some flush
      refine ⟨?_, fun c mem => ?_⟩
      · simp only [begin, List.map_append, List.map_singleton]
        refine List.nodup_append.mpr ⟨live.unique, List.nodup_singleton _, ?_⟩
        intro pair old last new same
        obtain ⟨c, mem, rfl⟩ := List.mem_map.mp old
        exact fresh c mem (same.trans (List.mem_singleton.mp new))
      · rcases List.mem_append.mp mem with old | new
        · exact live.calls c old
        · obtain rfl := List.mem_singleton.mp new
          exact Or.inl ⟨entries, List.mem_flatten.mpr
            ⟨_, List.mem_of_getElem? here, List.mem_cons_self⟩⟩
  | flushReturns task c res buffer flush mem returned moved =>
      refine ⟨live.unique, fun x member => ?_⟩
      by_cases same : (x.agent, x.index) = (c.agent, c.index)
      · obtain rfl := List.inj_on_of_nodup_map live.unique member mem same
        exact Or.inr ⟨res, returned⟩
      · refine (live.calls x member).imp_left ?_
        rintro ⟨entries, waits⟩
        exact ⟨entries, flush_of_return flush moved same waits⟩
  | call q inner c call found own moved =>
      have calls : (s.setCall q c call).calls =
          s.calls.set q { c with call := call, attemptCtx := c.attemptCtx } := rfl
      exact live.setCall found moved calls rfl
  | primary q env c found call attempt sends moved => exact live.setCall found moved rfl rfl
  | waveStops q order legs c cascade exhaustion found running moved =>
      exact live.setCall found moved rfl rfl
  | dispatch q order legs c cascade tried chosen found running pending picked grouped moved =>
      exact live.setCall found moved rfl rfl
  | legResult q i c cascade leg l d found running waits mem owner sent moved =>
      exact live.setCall found moved rfl rfl
  | hedgeBuffer | hedgeFlush => exact ⟨live.unique, live.calls⟩

/-- A call begins only in a flush that has not returned. -/
theorem calls_of_step {action : ProduceAction} (stepped : s.step action = some s')
    (none : ∀ op ∈ s.buffer.tasks.flatten, op.fromFlush = false) :
    s'.calls.length = s.calls.length := by
  cases steps_of_step stepped with
  | flushBatch task agent index candidates a f routed found started encoded flush fresh =>
      obtain ⟨entries, rest, here⟩ := flushOf_eq_some flush
      cases none _ (List.mem_flatten.mpr ⟨_, List.mem_of_getElem? here, List.mem_cons_self⟩)
  | call | primary | waveStops | dispatch | legResult => exact List.length_set
  | rejected | main | flushReturns | hedgeBuffer | hedgeFlush => rfl

end ProducePath

namespace ClosingClient

variable [Snappy] {s s' : ClosingClient} {added : List RoutedTopicPartitionRecords}

/-- The Hedger is closed only after the main buffer's `Close` has returned. -/
structure Inv (added : List RoutedTopicPartitionRecords) (s : ClosingClient) : Prop where
  sound : s.path.Sound added
  live : s.path.Live
  main : s.main.Inv s.path.buffer
  hedge : s.hedge.Inv s.path.hedgeBuffer
  order : s.path.hedgeBuffer.buffer.closed = true → s.main.returned = true

theorem Inv.follow (inv : s.Inv added) (small : s.path.cfg.batchMaxBytes.toNat ≤ 2 ^ 30)
    {action : ProduceAction} {path : ProducePath}
    (known : ∀ w ∈ action.added s.path.cfg, w ∈ added) (stepped : s.path.step action = some path)
    (order : path.hedgeBuffer.buffer.closed = true → s.main.returned = true) :
    (s.follow path).Inv added := by
  have main := ProducePath.buffer_advances stepped
  have hedge := ProducePath.hedgeBuffer_advances inv.sound small stepped
  exact ⟨inv.sound.step small known stepped, inv.live.step stepped,
    inv.main.follow (main.follows inv.main.taken inv.main.shaped) (main.takenInv inv.main.taken),
    inv.hedge.follow (hedge.follows inv.hedge.taken inv.hedge.shaped)
      (hedge.takenInv inv.hedge.taken), order⟩

/-- What each action does: a step of the produce path, or a wait of one of the buffers' `Close`
that has ended. -/
inductive Steps (s : ClosingClient) (action : ClosingClientAction) : ClosingClient → Prop where
  | follow (inner : ProduceAction) (path : ProducePath) (moved : s.path.step inner = some path)
      (adds : inner.added s.path.cfg = action.added s.path.cfg)
      (order : inner = .hedgeBuffer .close → s.main.returned = true) :
      Steps s action (s.follow path)
  | main (wait : CloseWait) (passes : s.main.Passes s.path.buffer wait) :
      Steps s action { s with main := wait }
  | hedge (wait : CloseWait) (passes : s.hedge.Passes s.path.hedgeBuffer wait) :
      Steps s action { s with hedge := wait }

theorem steps_of_step {action : ClosingClientAction} (stepped : s.step action = some s') :
    s.Steps action s' := by
  cases action with
  | path action =>
      simp only [step] at stepped
      split at stepped
      · cases stepped
      · rename_i other
        obtain ⟨path, moved, rfl⟩ := Option.map_eq_some_iff.mp stepped
        exact .follow action path moved rfl fun same => absurd (same ▸ rfl) other
  | close =>
      simp only [step] at stepped
      split at stepped
      · cases stepped
      · obtain ⟨path, moved, rfl⟩ := Option.map_eq_some_iff.mp stepped
        exact .follow _ path moved rfl fun same => by cases same
  | drained agent =>
      obtain ⟨wait, drains, rfl⟩ := Option.map_eq_some_iff.mp stepped
      exact .main wait (Or.inl ⟨agent, drains⟩)
  | bufferClosed =>
      obtain ⟨wait, finishes, rfl⟩ := Option.map_eq_some_iff.mp stepped
      exact .main wait (Or.inr finishes)
  | hedgerClose =>
      simp only [step, Bool.and_eq_true] at stepped
      split at stepped
      · rename_i drained
        obtain ⟨path, moved, rfl⟩ := Option.map_eq_some_iff.mp stepped
        exact .follow _ path moved rfl fun _ => drained.1
      · cases stepped
  | hedgeDrained agent =>
      obtain ⟨wait, drains, rfl⟩ := Option.map_eq_some_iff.mp stepped
      exact .hedge wait (Or.inl ⟨agent, drains⟩)
  | hedgerClosed =>
      obtain ⟨wait, finishes, rfl⟩ := Option.map_eq_some_iff.mp stepped
      exact .hedge wait (Or.inr finishes)

theorem Inv.step (inv : s.Inv added) (small : s.path.cfg.batchMaxBytes.toNat ≤ 2 ^ 30)
    {action : ClosingClientAction} (known : ∀ w ∈ action.added s.path.cfg, w ∈ added)
    (stepped : s.step action = some s') : s'.Inv added ∧ s'.path.cfg = s.path.cfg := by
  cases steps_of_step stepped with
  | follow inner path moved adds order =>
      refine ⟨inv.follow small (adds ▸ known) moved fun closed => ?_, ProducePath.cfg_step moved⟩
      by_cases same : inner = .hedgeBuffer .close
      · exact order same
      · exact inv.order (ProducePath.hedgeBuffer_closed_of_step moved same ▸ closed)
  | main wait passes =>
      exact ⟨{ inv with
        main := inv.main.pass passes
        order := fun closed => passes.returned (inv.order closed) }, rfl⟩
  | hedge wait passes => exact ⟨{ inv with hedge := inv.hedge.pass passes }, rfl⟩

/-- Once the client's `Close` has returned nothing starts any more. -/
theorem Inv.still (inv : s.Inv added) (small : s.path.cfg.batchMaxBytes.toNat ≤ 2 ^ 30)
    (done : s.hedge.returned = true) {action : ClosingClientAction}
    (stepped : s.step action = some s') :
    s'.hedge.returned = true ∧ s'.path.calls.length = s.path.calls.length ∧
      s'.path.buffer.buffer.agentBuffers = s.path.buffer.buffer.agentBuffers ∧
      s'.path.hedgeBuffer.buffer.agentBuffers = s.path.hedgeBuffer.buffer.agentBuffers := by
  have main := inv.order (inv.hedge.returned done).1
  cases steps_of_step stepped with
  | follow inner path moved adds order =>
      have buffer := ProducePath.buffer_advances moved
      have hedge := ProducePath.hedgeBuffer_advances inv.sound small moved
      exact ⟨done, ProducePath.calls_of_step moved (inv.main.quiet main),
        inv.main.agents_eq main (buffer.follows inv.main.taken inv.main.shaped),
        inv.hedge.agents_eq done (hedge.follows inv.hedge.taken inv.hedge.shaped)⟩
  | main wait passes => exact ⟨done, rfl, rfl, rfl⟩
  | hedge wait passes => exact ⟨passes.returned done, rfl, rfl, rfl⟩

/-- Every call has returned once no goroutine of the main buffer has a flush any more. -/
theorem Inv.calls_returned (inv : s.Inv added) (done : s.main.returned = true) :
    ∀ c ∈ s.path.calls, ∃ res, c.call.phase = .returned res := by
  intro c mem
  refine (inv.live.calls c mem).resolve_left ?_
  rintro ⟨entries, waits⟩
  cases inv.main.quiet done _ waits

theorem inv_run {cfg : ClientConfig} (added : List RoutedTopicPartitionRecords)
    (valid : cfg.validateBatchMaxBytes = none) {actions : List ClosingClientAction}
    (known : ∀ action ∈ actions, ∀ w ∈ ClosingClientAction.added cfg action, w ∈ added)
    (runs : Machine.run step (init cfg) actions = some s) : s.Inv added ∧ s.path.cfg = cfg := by
  have start : (init cfg).Inv added :=
    ⟨ProducePath.sound_init cfg, ⟨List.nodup_nil, List.forall_mem_nil _⟩, CloseWait.inv_init _,
      CloseWait.inv_init _, fun closed => by cases closed⟩
  refine Machine.invariant_run_of_mem (fun action => ∀ w ∈ action.added cfg, w ∈ added)
    (fun s => s.Inv added ∧ s.path.cfg = cfg) (fun s action s' held known stepped => ?_) ⟨start, rfl⟩
    known runs
  obtain ⟨inv, rfl⟩ := held
  exact inv.step (ClientConfig.small_of_valid valid) known stepped

end ClosingClient

/-- Along every run of the client with its `Close`, the hedge buffer is closed only after every
call of the Hedger has returned, so no leg of a running call is refused. Once `Close` has
returned both buffers are drained, every call has returned, and no step after that begins a
call or starts a flush. -/
theorem client_close_is_graceful [Snappy] {cfg : ClientConfig}
    (valid : cfg.validateBatchMaxBytes = none) {actions : List ClosingClientAction}
    {s : ClosingClient}
    (runs : Machine.run ClosingClient.step (ClosingClient.init cfg) actions = some s) :
    (s.path.hedgeBuffer.buffer.closed = true →
      ∀ c ∈ s.path.calls, ∃ res, c.call.phase = .returned res) ∧
    (∀ (i : Nat) it d, s.path.hedgeBuffer.buffer.items[i]? = some it → d ∈ it.completions →
      d.cause = .closed → ∀ c ∈ s.path.calls, ∃ res, c.call.phase = .returned res) ∧
    (s.hedge.returned = true →
      s.path.buffer.Closed ∧ s.path.hedgeBuffer.Closed ∧
      (∀ c ∈ s.path.calls, ∃ res, c.call.phase = .returned res) ∧
      ∀ more s', Machine.run ClosingClient.step s more = some s' →
        s'.path.calls.length = s.path.calls.length ∧
          s'.path.buffer.buffer.agentBuffers = s.path.buffer.buffer.agentBuffers ∧
          s'.path.hedgeBuffer.buffer.agentBuffers = s.path.hedgeBuffer.buffer.agentBuffers) := by
  have small := ClientConfig.small_of_valid valid
  obtain ⟨inv, -⟩ := ClosingClient.inv_run (actions.flatMap (ClosingClientAction.added cfg)) valid
    (fun action mem w inside => List.mem_flatMap.mpr ⟨action, mem, inside⟩) runs
  refine ⟨fun closed => inv.calls_returned (inv.order closed), fun i it d found mem cause => ?_,
    fun done => ?_⟩
  · have sourced := (inv.hedge.taken.origins.items i it found d mem).1
    simp only [ClusterBuffer.Sourced, cause] at sourced
    exact inv.calls_returned (inv.order sourced.1)
  · have main := inv.order (inv.hedge.returned done).1
    refine ⟨inv.main.closed main, inv.hedge.closed done, inv.calls_returned main, ?_⟩
    intro more s' later
    -- the invariant for the items of the whole run
    set added := (actions ++ more).flatMap (ClosingClientAction.added cfg) with all
    have known (action : ClosingClientAction) (mem : action ∈ actions ++ more) :
        ∀ w ∈ action.added cfg, w ∈ added :=
      fun w inside => List.mem_flatMap.mpr ⟨action, mem, inside⟩
    have whole := ClosingClient.inv_run added valid
      (fun action mem => known action (List.mem_append_left _ mem)) runs
    have kept := Machine.invariant_run_of_mem
      (fun action => ∀ w ∈ ClosingClientAction.added cfg action, w ∈ added)
      (fun now : ClosingClient => (now.Inv added ∧ now.path.cfg = cfg) ∧ now.hedge.returned = true ∧
        now.path.calls.length = s.path.calls.length ∧
        now.path.buffer.buffer.agentBuffers = s.path.buffer.buffer.agentBuffers ∧
        now.path.hedgeBuffer.buffer.agentBuffers = s.path.hedgeBuffer.buffer.agentBuffers)
      (fun now action next held known stepped => by
        obtain ⟨⟨inv, rfl⟩, done, calls, buffer, hedge⟩ := held
        obtain ⟨still, calls', buffer', hedge'⟩ := inv.still small done stepped
        exact ⟨inv.step small known stepped, still, calls'.trans calls, buffer'.trans buffer,
          hedge'.trans hedge⟩)
      ⟨whole, done, rfl, rfl, rfl⟩ (fun action mem => known action (List.mem_append_right _ mem)) later
    exact kept.2.2

/-- The record is still pending when `Close` begins, its primary request fails and a hedge is
acknowledged. -/
def closingRecord : List ClosingClientAction :=
  let acks : BrokerReply := .response { topics := [⟨"t", 0, [⟨0, 0⟩]⟩] }
  let entry : Promised RoutedEncodedTopicPartitionRecords Callback :=
    ⟨{ loneBatch with nodeID := 2 }, .wrapped 0⟩
  [[.path (.produce none { topic := "t" } (.unix 1) [{ nodeID := 1 }])],
    List.replicate 4 (.path (.buffer (.run 0 {}))),
    [.close, .path (.buffer (.run 1 {})), .path (.flushBatch 2 fun _ => [{ nodeID := 2 }])],
    [.path (.call 0 (.start {}))],
    [.path (.primaryReturns 0 ⟨9, fun _ => some 7, .failed GoError.contextDeadlineExceeded, none⟩)],
    [.path (.call 0 (.takePrimary false)), .path (.wave 0 [loneBatch] [⟨2, [loneBatch]⟩])],
    List.replicate 2 (.path (.hedgeBuffer (.run 0 {}))),
    [.path (.hedgeBuffer (.run 0 { bins := [(2, [entry])] }))],
    List.replicate 2 (.path (.hedgeBuffer (.run 0 {}))),
    [.path (.hedgeBuffer (.timerFlush 0)), .path (.hedgeFlush 1 ⟨9, fun _ => some 7, acks, none⟩)],
    List.replicate 3 (.path (.hedgeBuffer (.run 1 {}))),
    [.path (.legResult 0 0)],
    [.path (.call 0 (.cascadeReturns ⟨[(⟨"t", 0⟩, ⟨0, 0⟩)], []⟩ false))],
    [.path (.call 0 (.takeFallback false)), .path (.flushReturns 2)],
    List.replicate 2 (.path (.buffer (.run 2 {}))),
    [.drained 0, .bufferClosed, .hedgerClose, .path (.hedgeBuffer (.run 2 {}))],
    [.hedgeDrained 0, .hedgerClosed]].flatten

theorem client_close_is_graceful_hedged :
    letI := Snappy.stored
    ∃ s, Machine.run ClosingClient.step (ClosingClient.init ⟨16000000, 3⟩) closingRecord = some s ∧
      s.hedge.returned = true ∧ s.path.calls.length = 1 ∧ s.path.buffer.Closed ∧
      s.path.hedgeBuffer.Closed := by
  let _ := Snappy.stored
  have state : (Machine.run ClosingClient.step (ClosingClient.init ⟨16000000, 3⟩) closingRecord).map
      (fun s => (s.hedge.returned, s.path.calls.length)) = some (true, 1) := by decide +kernel
  obtain ⟨s, runs, eq⟩ := Option.map_eq_some_iff.mp state
  obtain ⟨done, calls⟩ := Prod.mk.inj eq
  obtain ⟨-, -, closed⟩ := client_close_is_graceful (by decide) runs
  obtain ⟨main, hedge, -⟩ := closed done
  exact ⟨s, runs, done, calls, main, hedge⟩

end Warpstream
