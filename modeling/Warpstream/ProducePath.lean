import Warpstream.ClientRunSafety
import Warpstream.ClusterBufferAcks
import Warpstream.ClusterBufferFlow
import Warpstream.DirectProducer
import Warpstream.HedgerProgress

set_option autoImplicit false

/- The produce path from end to end. A flush of the main buffer returns what its call of
`Hedger.ProduceSync` returns, the call reads what the direct producer answered for its primary
attempt and what the hedge buffer told its legs, and the hedge buffer's flushes return what
the direct producer answered. Only the callers, routing, the clock and the agents are left
open. -/
namespace Warpstream

/-- A flush of the main buffer in its call of `Hedger.ProduceSync`. `attemptCtx` is the
context of the last wave. -/
structure FlushCall where
  agent : Nat
  index : Nat
  call : HedgerCall
  workCtx : Nat
  attemptCtx : Nat

/-- The cascade of a call. It depends on the call's arguments only, so it can be said to
stand at its start before it has begun. -/
def HedgerCall.cascadeOrStart (c : HedgerCall) : Cascade :=
  match c.cascade, Cascade.start c.cfg with
  | some cascade, _ => cascade
  | none, .ok cascade => cascade
  | none, .error _ => { acc := {}, tried := ∅ }

/-- The call as the shared hedge buffer sees it. -/
def FlushCall.view (c : FlushCall) : HedgeCall :=
  ⟨c.call.cfg, c.call.cascadeOrStart, c.workCtx, c.attemptCtx⟩

/-- `wire` are the calls of the direct producer that have returned. -/
structure ProducePath where
  cfg : ClientConfig
  buffer : ClusterRun RoutedTopicPartitionRecords
  calls : List FlushCall := []
  hedgeBuffer : ClusterRun RoutedEncodedTopicPartitionRecords
  legs : List LegDone := []
  nextCtx : Nat := 0
  wire : List Attempt := []

/-- What an attempt meets outside the client. -/
structure AttemptEnv where
  version : Int
  topicID : String → Option TopicID
  reply : BrokerReply
  hookErr : Option GoError := none

def AttemptEnv.attempt (env : AttemptEnv) (target : Agent)
    (partitions : List EncodedTopicPartitionRecords) : Attempt :=
  { target := target
    version := env.version
    topicID := env.topicID
    partitions := partitions
    reply := env.reply
    hookErr := env.hookErr }

inductive ProduceAction where
  | produce (ctx : Option Nat) (record : Kgo.Record) (now : Time) (candidates : List Agent)
  | produceSync (ctx : Option Nat) (call : ProduceSyncCall)
  | buffer (action : ClusterAction RoutedTopicPartitionRecords)
  /-- the goroutine of a flush encodes it and calls the Hedger -/
  | flushBatch (task : Nat) (candidates : TopicPartition → List Agent)
  /-- that call has returned -/
  | flushReturns (task : Nat)
  /-- a step of a call, or of its cascade, on its own -/
  | call (q : Nat) (action : CallAction)
  | primaryReturns (q : Nat) (env : AttemptEnv)
  | wave (q : Nat) (order : List EncodedTopicPartitionRecords) (legs : List HedgeLeg)
  | legResult (q i : Nat)
  | hedgeBuffer (action : ClusterAction RoutedEncodedTopicPartitionRecords)
  | hedgeFlush (task : Nat) (env : AttemptEnv)

/-- The items that an action hands to the main buffer. -/
def ProduceAction.added (cfg : ClientConfig) : ProduceAction → List RoutedTopicPartitionRecords
  | .produce _ record now candidates => (produceItem cfg record now candidates).toList
  | .produceSync _ sync => sync.items
  | _ => []

/-- A caller of the client acts. -/
def ProduceAction.isCaller : ProduceAction → Bool
  | .produce _ _ _ _ | .produceSync _ _ => true
  | _ => false

/-- The steps of a call that nothing outside takes part in. -/
def CallAction.isLocal : CallAction → Bool
  | .primaryReturns _ | .cascade (.wave _ _) | .cascade (.legResult _ _) => false
  | _ => true

/-- The action is the return of a flush function. -/
def ClusterRun.returnsFlush {W : Type} (r : ClusterRun W) : ClusterAction W → Bool
  | .run task _ => (r.flushOf task).isSome
  | _ => false

namespace ProducePath

def init (cfg : ClientConfig) : ProducePath :=
  { cfg := cfg
    buffer := ClusterRun.init cfg.batchMaxBytes.toNat
    hedgeBuffer := ClusterRun.init cfg.batchMaxBytes.toNat }

/-- The calls with their cascades and the hedge buffer they share. -/
def hedge (s : ProducePath) : HedgeRun :=
  { run := s.hedgeBuffer
    calls := s.calls.map FlushCall.view
    legs := s.legs
    nextCtx := s.nextCtx }

def begin (s : ProducePath) (flush : Nat × Nat) (call : HedgerCall) : ProducePath :=
  { s with
    calls := s.calls ++ [⟨flush.1, flush.2, call, s.nextCtx, s.nextCtx⟩]
    nextCtx := s.nextCtx + 1 }

def setCall (s : ProducePath) (q : Nat) (c : FlushCall) (call : HedgerCall) : ProducePath :=
  { s with calls := s.calls.set q { c with call := call } }

def primary (s : ProducePath) (q : Nat) (c : FlushCall) (call : HedgerCall) (attempt : Attempt) :
    ProducePath :=
  { s.setCall q c call with wire := s.wire ++ [attempt] }

def dispatch (s : ProducePath) (q : Nat) (c : FlushCall) (call : HedgerCall)
    (legs : List HedgeLeg) : ProducePath :=
  { s with
    hedgeBuffer :=
      s.hedgeBuffer.spawn [legs.map fun leg => .multiAdd (some s.nextCtx) leg.items []]
    calls := s.calls.set q { c with call := call, attemptCtx := s.nextCtx }
    legs := s.legs ++ legs.map fun leg => { owner := ⟨q, s.nextCtx, leg⟩ }
    nextCtx := s.nextCtx + 1 }

def collect (s : ProducePath) (q : Nat) (c : FlushCall) (call : HedgerCall) (owner : SentLeg) :
    ProducePath :=
  { s.setCall q c call with legs := s.legs.map (LegDone.collect owner) }

def setHedgeBuffer (s : ProducePath) (action : ClusterAction RoutedEncodedTopicPartitionRecords)
    (run : ClusterRun RoutedEncodedTopicPartitionRecords) : ProducePath :=
  { s with hedgeBuffer := run, legs := s.hedge.deliver action }

/-- The context belongs to a wave that is being collected and whose call's context has not
ended, so nothing has cancelled it yet. -/
def waveRuns (s : ProducePath) (ctx : Nat) : Bool :=
  s.calls.any fun c =>
    c.attemptCtx = ctx && c.call.ctxErr.isNone &&
      c.call.cascade.any fun cascade => cascade.phase = .collecting

def mayEnd (s : ProducePath) : ClusterAction RoutedEncodedTopicPartitionRecords → Bool
  | .cancel ctx _ => !s.waveRuns ctx
  | _ => true

def step [Snappy] (s : ProducePath) : ProduceAction → Option ProducePath
  | .produce ctx record now candidates =>
      match produceItem s.cfg record now candidates with
      | none => some s
      | some item => (s.buffer.step (.add ctx item)).map fun buffer => { s with buffer := buffer }
  | .produceSync ctx call =>
      if call.batchMaxBytes = s.cfg.batchMaxBytes then
        (s.buffer.step (.multiAdd ctx call.items)).map fun buffer => { s with buffer := buffer }
      else none
  | .buffer action =>
      if action.isInternal && !s.buffer.returnsFlush action then
        (s.buffer.step action).map fun buffer => { s with buffer := buffer }
      else none
  | .flushBatch task candidates => do
      let flush ← s.buffer.flushOf task
      let (a, f) ← s.buffer.flushAt task
      let routed ← encodePartitions f.wire
      if s.calls.any fun c => (c.agent, c.index) = flush then none
      else
        some (s.begin flush
          { maxHedgeAgents := s.cfg.maxHedgeAgents
            primaryID := a.nodeID
            candidates := candidates
            routed := routed })
  | .flushReturns task => do
      let flush ← s.buffer.flushOf task
      let c ← s.calls.find? fun c => (c.agent, c.index) = flush
      match c.call.phase with
      | .returned res =>
          (s.buffer.step (.run task { res := res })).map fun buffer => { s with buffer := buffer }
      | _ => none
  | .call q action => do
      let c ← s.calls[q]?
      if action.isLocal then (c.call.step action).map fun call => s.setCall q c call else none
  | .primaryReturns q env => do
      let c ← s.calls[q]?
      let attempt :=
        env.attempt (agentFromRouted c.call.primaryID c.call.routed) c.call.cfg.partitions
      let call ← c.call.step (.primaryReturns attempt.result)
      some (s.primary q c call attempt)
  | .wave q order legs => do
      let c ← s.calls[q]?
      let call ← c.call.step (.cascade (.wave order legs))
      if call.cascade.any fun cascade => cascade.phase = .collecting then
        some (s.dispatch q c call legs)
      else some (s.setCall q c call)
  | .legResult q i => do
      let c ← s.calls[q]?
      let cascade ← c.call.cascade
      let leg ← cascade.waiting[i]?
      let l ← s.legs.find? fun l => l.owner = ⟨q, c.attemptCtx, leg⟩
      let d ← l.sent
      let call ← c.call.step (.cascade (.legResult i d.res))
      some (s.collect q c call l.owner)
  | .hedgeBuffer action =>
      if action.isInternal && !s.hedgeBuffer.returnsFlush action && s.mayEnd action then
        (s.hedgeBuffer.step action).map fun run => s.setHedgeBuffer action run
      else none
  | .hedgeFlush task env => do
      let (a, f) ← s.hedgeBuffer.flushAt task
      let attempt :=
        env.attempt (agentFromRouted a.nodeID f.wire) (unrouteEncodedTopicPartitionRecords f.wire)
      let run ← s.hedgeBuffer.step (.run task { res := attempt.result })
      some { s.setHedgeBuffer (.run task { res := attempt.result }) run with
        wire := s.wire ++ [attempt] }

/-- What each action does, case by case. -/
inductive Steps [Snappy] (s : ProducePath) : ProduceAction → ProducePath → Prop where
  | rejected (action : ProduceAction) (caller : action.isCaller = true)
      (nothing : action.added s.cfg = []) : Steps s action s
  | main (action : ProduceAction) (inner : ClusterAction RoutedTopicPartitionRecords)
      (buffer : ClusterRun RoutedTopicPartitionRecords)
      (adds : inner.Adds fun w => w.records ≠ [] ∧ w ∈ action.added s.cfg)
      (items : inner.items = action.added s.cfg)
      (quiet : s.buffer.returnsFlush inner = false)
      (stepped : s.buffer.step inner = some buffer)
      (origin : action.isCaller = true ∨ action = .buffer inner) :
      Steps s action { s with buffer := buffer }
  | flushBatch (task agent index : Nat) (candidates : TopicPartition → List Agent)
      (a : AgentBuffer RoutedTopicPartitionRecords Callback)
      (f : Flush RoutedTopicPartitionRecords Callback)
      (routed : List RoutedEncodedTopicPartitionRecords)
      (found : s.buffer.buffer.agentBuffers[agent]? = some a) (started : a.flushes[index]? = some f)
      (encoded : encodePartitions f.wire = some routed)
      (flush : s.buffer.flushOf task = some (agent, index))
      (fresh : ∀ c ∈ s.calls, (c.agent, c.index) ≠ (agent, index)) :
      Steps s (.flushBatch task candidates) (s.begin (agent, index)
        { maxHedgeAgents := s.cfg.maxHedgeAgents
          primaryID := a.nodeID
          candidates := candidates
          routed := routed })
  | flushReturns (task : Nat) (c : FlushCall) (res : ProduceResult)
      (buffer : ClusterRun RoutedTopicPartitionRecords)
      (flush : s.buffer.flushOf task = some (c.agent, c.index)) (mem : c ∈ s.calls)
      (returned : c.call.phase = .returned res)
      (stepped : s.buffer.step (.run task { res := res }) = some buffer) :
      Steps s (.flushReturns task) { s with buffer := buffer }
  | call (q : Nat) (inner : CallAction) (c : FlushCall) (call : HedgerCall)
      (found : s.calls[q]? = some c) (own : inner.isLocal = true)
      (stepped : c.call.step inner = some call) : Steps s (.call q inner) (s.setCall q c call)
  | primary (q : Nat) (env : AttemptEnv) (c : FlushCall) (found : s.calls[q]? = some c)
      (call : HedgerCall) (attempt : Attempt)
      (sends : attempt = env.attempt (agentFromRouted c.call.primaryID c.call.routed)
        c.call.cfg.partitions)
      (stepped : c.call.step (.primaryReturns attempt.result) = some call) :
      Steps s (.primaryReturns q env) (s.primary q c call attempt)
  | waveStops (q : Nat) (order : List EncodedTopicPartitionRecords) (legs : List HedgeLeg)
      (c : FlushCall) (cascade : Cascade) (exhaustion : ProduceStop)
      (found : s.calls[q]? = some c) (running : c.call.cascade = some cascade)
      (stepped : c.call.step (.cascade (.wave order legs)) =
        some { c.call with cascade := some (cascade.stop exhaustion) }) :
      Steps s (.wave q order legs)
        (s.setCall q c { c.call with cascade := some (cascade.stop exhaustion) })
  | dispatch (q : Nat) (order : List EncodedTopicPartitionRecords) (legs : List HedgeLeg)
      (c : FlushCall) (cascade : Cascade) (tried : GoMap TopicPartition (List Int))
      (chosen : List (Int × EncodedTopicPartitionRecords)) (found : s.calls[q]? = some c)
      (running : c.call.cascade = some cascade) (pending : cascade.acc.Remaining order)
      (picked : pickCandidates c.call.cfg cascade.tried order = .ok (tried, chosen))
      (grouped : legs.Perm (groupLegs chosen))
      (stepped : c.call.step (.cascade (.wave order legs)) =
        some { c.call with cascade := some (cascade.dispatch tried legs) }) :
      Steps s (.wave q order legs)
        (s.dispatch q c { c.call with cascade := some (cascade.dispatch tried legs) } legs)
  | legResult (q i : Nat) (c : FlushCall) (cascade : Cascade) (leg : HedgeLeg) (l : LegDone)
      (d : Delivery) (found : s.calls[q]? = some c) (running : c.call.cascade = some cascade)
      (waits : cascade.waiting[i]? = some leg) (mem : l ∈ s.legs)
      (owner : l.owner = ⟨q, c.attemptCtx, leg⟩) (sent : l.sent = some d)
      (stepped : c.call.step (.cascade (.legResult i d.res)) =
        some { c.call with cascade := some (cascade.receive i leg d.res) }) :
      Steps s (.legResult q i)
        (s.collect q c { c.call with cascade := some (cascade.receive i leg d.res) } l.owner)
  | hedgeBuffer (action : ClusterAction RoutedEncodedTopicPartitionRecords)
      (run : ClusterRun RoutedEncodedTopicPartitionRecords) (internal : action.isInternal = true)
      (quiet : s.hedgeBuffer.returnsFlush action = false)
      (stepped : s.hedgeBuffer.step action = some run) :
      Steps s (.hedgeBuffer action) (s.setHedgeBuffer action run)
  | hedgeFlush (task agent index : Nat) (env : AttemptEnv)
      (a : AgentBuffer RoutedEncodedTopicPartitionRecords Callback)
      (f : Flush RoutedEncodedTopicPartitionRecords Callback) (attempt : Attempt)
      (run : ClusterRun RoutedEncodedTopicPartitionRecords)
      (flush : s.hedgeBuffer.flushOf task = some (agent, index))
      (found : s.hedgeBuffer.buffer.agentBuffers[agent]? = some a)
      (started : a.flushes[index]? = some f)
      (sends : attempt = env.attempt (agentFromRouted a.nodeID f.wire)
        (unrouteEncodedTopicPartitionRecords f.wire))
      (stepped : s.hedgeBuffer.step (.run task { res := attempt.result }) = some run) :
      Steps s (.hedgeFlush task env)
        { s.setHedgeBuffer (.run task { res := attempt.result }) run with
          wire := s.wire ++ [attempt] }

theorem flushOf_eq_some {W : Type} {r : ClusterRun W} {task agent index : Nat}
    (flush : r.flushOf task = some (agent, index)) :
    ∃ entries rest, r.tasks[task]? = some (.flush agent index entries :: rest) := by
  unfold ClusterRun.flushOf at flush
  split at flush
  · rename_i k n entries rest found
    obtain ⟨rfl, rfl⟩ := Prod.mk.inj (Option.some.inj flush)
    exact ⟨entries, rest, found⟩
  · cases flush

/-- Where the flush of a goroutine stands in its buffer. -/
theorem flushAt_eq_some {W : Type} {r : ClusterRun W} {task : Nat}
    {a : AgentBuffer W Callback} {f : Flush W Callback} (there : r.flushAt task = some (a, f)) :
    ∃ agent index, r.flushOf task = some (agent, index) ∧
      r.buffer.agentBuffers[agent]? = some a ∧ a.flushes[index]? = some f := by
  simp only [ClusterRun.flushAt, Option.bind_eq_bind, Option.bind_eq_some_iff] at there
  obtain ⟨⟨agent, index⟩, flush, a', found, f', started, same⟩ := there
  obtain ⟨rfl, rfl⟩ := Prod.mk.inj (Option.some.inj same)
  exact ⟨agent, index, flush, found, started⟩

theorem steps_of_step [Snappy] {s s' : ProducePath} {action : ProduceAction}
    (stepped : s.step action = some s') : Steps s action s' := by
  cases action with
  | produce ctx record now candidates =>
      simp only [step] at stepped
      split at stepped
      · rename_i none
        obtain rfl := Option.some.inj stepped
        refine .rejected _ rfl ?_
        rw [ProduceAction.added, none]
        rfl
      · rename_i item made
        obtain ⟨buffer, moved, rfl⟩ := Option.map_eq_some_iff.mp stepped
        have added : (ProduceAction.produce ctx record now candidates).added s.cfg = [item] := by
          rw [ProduceAction.added, made]
          rfl
        refine .main _ (.add ctx item) buffer ⟨nonempty_of_produceItem made, ?_⟩ added.symm rfl moved
          (Or.inl rfl)
        rw [added]
        exact List.mem_singleton_self item
  | produceSync ctx call =>
      simp only [step] at stepped
      split at stepped
      · obtain ⟨buffer, moved, rfl⟩ := Option.map_eq_some_iff.mp stepped
        exact .main _ (.multiAdd ctx call.items) buffer
          (fun w mem => ⟨call.nonempty_items w mem, mem⟩) rfl rfl moved (Or.inl rfl)
      · cases stepped
  | buffer action =>
      simp only [step, Bool.and_eq_true, Bool.not_eq_true'] at stepped
      split at stepped
      · rename_i allowed
        obtain ⟨buffer, moved, rfl⟩ := Option.map_eq_some_iff.mp stepped
        exact .main _ _ buffer (ClusterAction.adds_of_isInternal allowed.1)
          (ClusterAction.items_of_isInternal allowed.1) allowed.2 moved (Or.inr rfl)
      · cases stepped
  | flushBatch task candidates =>
      simp only [step, Option.bind_eq_bind, Option.bind_eq_some_iff] at stepped
      obtain ⟨flush, place, ⟨a, f⟩, there, routed, encoded, eq⟩ := stepped
      obtain ⟨agent, index, same, found, started⟩ := flushAt_eq_some there
      obtain rfl := Option.some.inj (place.symm.trans same)
      split at eq
      · cases eq
      · rename_i fresh
        obtain rfl := Option.some.inj eq
        refine .flushBatch task agent index candidates a f routed found started encoded place ?_
        exact fun c mem same => fresh (List.any_eq_true.mpr ⟨c, mem, decide_eq_true same⟩)
  | flushReturns task =>
      simp only [step, Option.bind_eq_bind, Option.bind_eq_some_iff] at stepped
      obtain ⟨flush, place, c, found, eq⟩ := stepped
      have same : (c.agent, c.index) = flush := by simpa using List.find?_some found
      split at eq
      · rename_i res returned
        obtain ⟨buffer, moved, rfl⟩ := Option.map_eq_some_iff.mp eq
        exact .flushReturns task c res buffer (same ▸ place) (List.mem_of_find?_eq_some found)
          returned moved
      · cases eq
  | call q inner =>
      simp only [step, Option.bind_eq_bind, Option.bind_eq_some_iff] at stepped
      obtain ⟨c, found, eq⟩ := stepped
      split at eq
      · obtain ⟨call, moved, rfl⟩ := Option.map_eq_some_iff.mp eq
        exact .call q inner c call found ‹_› moved
      · cases eq
  | primaryReturns q env =>
      simp only [step, Option.bind_eq_bind, Option.bind_eq_some_iff] at stepped
      obtain ⟨c, found, call, moved, eq⟩ := stepped
      obtain rfl := Option.some.inj eq
      exact .primary q env c found call _ rfl moved
  | wave q order legs =>
      simp only [step, Option.bind_eq_bind, Option.bind_eq_some_iff] at stepped
      obtain ⟨c, found, call, moved, eq⟩ := stepped
      cases HedgerCall.moves_of_step moved with
      | @cascade _ cascade after running went =>
          simp only [Cascade.step] at went
          split at went
          · rename_i enabled
            split at went
            · obtain rfl := Option.some.inj went
              obtain rfl := Option.some.inj eq
              exact .waveStops q order legs c cascade _ found running moved
            · split at went
              · obtain rfl := Option.some.inj went
                obtain rfl := Option.some.inj eq
                exact .waveStops q order legs c cascade _ found running moved
              · split at went
                · obtain rfl := Option.some.inj went
                  obtain rfl := Option.some.inj eq
                  exact .dispatch q order legs c cascade _ _ found running enabled.2.2 ‹_› ‹_› moved
                · cases went
          · cases went
  | legResult q i =>
      simp only [step, Option.bind_eq_bind, Option.bind_eq_some_iff] at stepped
      obtain ⟨c, found, cascade, running, leg, waits, l, place, d, sent, call, moved, eq⟩ := stepped
      obtain rfl := Option.some.inj eq
      cases HedgerCall.moves_of_step moved with
      | @cascade _ before after running' went =>
          obtain rfl := Option.some.inj (running.symm.trans running')
          simp only [Cascade.step] at went
          split at went
          · obtain ⟨leg', waits', rfl⟩ := Option.map_eq_some_iff.mp went
            obtain rfl := Option.some.inj (waits.symm.trans waits')
            have owner : l.owner = ⟨q, c.attemptCtx, leg⟩ := by simpa using List.find?_some place
            exact .legResult q i c cascade leg l d found running waits
              (List.mem_of_find?_eq_some place) owner sent moved
          · cases went
  | hedgeBuffer action =>
      simp only [step, Bool.and_eq_true, Bool.not_eq_true'] at stepped
      split at stepped
      · rename_i allowed
        obtain ⟨run, moved, rfl⟩ := Option.map_eq_some_iff.mp stepped
        exact .hedgeBuffer action run allowed.1.1 allowed.1.2 moved
      · cases stepped
  | hedgeFlush task env =>
      simp only [step, Option.bind_eq_bind, Option.bind_eq_some_iff] at stepped
      obtain ⟨⟨a, f⟩, there, run, moved, eq⟩ := stepped
      obtain ⟨agent, index, flush, found, started⟩ := flushAt_eq_some there
      obtain rfl := Option.some.inj eq
      exact .hedgeFlush task agent index env a f _ run flush found started rfl moved

end ProducePath

end Warpstream
