import Warpstream.ClientProduceSync
import Warpstream.ClusterBufferBins
import Warpstream.HedgeWaves
import Warpstream.ProduceRequest

set_option autoImplicit false

/- The client as a whole: `Produce` and `ProduceSync` route records into the main buffer, its
flushes encode them and call the `Hedger`, the cascades of the calls share the hedge buffer,
and every attempt builds a request. The branches that only a bug could reach are recorded. -/
namespace Warpstream

/-- The fields of `Config` that the produce path reads. -/
structure ClientConfig where
  batchMaxBytes : Int
  maxHedgeAgents : Nat

/-- The checks of `Config.Validate` on the batch size. -/
def ClientConfig.validateBatchMaxBytes (c : ClientConfig) : Option GoError :=
  if c.batchMaxBytes ≤ 0 then some { node := { text := "batch max bytes must be positive" } }
  else if batchMaxBytesCeiling < c.batchMaxBytes then
    some { node := { text := "batch max bytes must not exceed " ++ toString batchMaxBytesCeiling } }
  else none

inductive InternalBug where
  /-- `mergeWith` panics in the main buffer -/
  | mergeRecords
  /-- `mergeWith`, or `decodeBatch` inside it, panics in the hedge buffer -/
  | mergeEncoded
  /-- `Hedger.ProduceSync` is given a partition of another agent -/
  | misrouted (err : GoError)
  /-- `newProduceResultAccumulator` is given a partition twice -/
  | duplicatePending (err : GoError)
  /-- the request builder is given a partition twice -/
  | duplicatePartition (partition : Int) (topic : String)

/-- What `Produce` adds to the buffer, `none` for a record that is rejected. -/
def produceItem (cfg : ClientConfig) (record : Kgo.Record) (now : Time) (candidates : List Agent) :
    Option RoutedTopicPartitionRecords :=
  if cfg.batchMaxBytes < singleRecordBatchEstimateBytes record then none
  else
    candidates.head?.map fun agent =>
      { topic := record.topic
        partition := record.partition
        records := [ensureRecordTimestamp record now]
        nodeID := agent.nodeID
        nodeState := agent.state }

/-- What `ProduceSync` adds to the buffer. -/
def ProduceSyncCall.items (call : ProduceSyncCall) : List RoutedTopicPartitionRecords :=
  let routing := routeRecords call.candidatesWithRoute call.seeded (call.okRecords.map Prod.fst)
  routing.groups.map (RoutedGroup.item (call.stamped call.seeded routing.groups))

/-- The encoding in `flushBatch`. -/
def encodePartitions [Snappy] (partitions : List RoutedTopicPartitionRecords) :
    Option (List RoutedEncodedTopicPartitionRecords) :=
  (partitions.filter fun p => p.records ≠ []).mapM fun p =>
    (newEncodedTopicPartitionRecords p.topic p.partition p.records).map fun e =>
      { e with nodeID := p.nodeID, nodeState := p.nodeState }

/-- A call of `Hedger.ProduceSync` that has passed its check. -/
structure HedgerProduce where
  primaryID : Int
  routed : List RoutedEncodedTopicPartitionRecords
  hedged : Bool := false

/-- `flushed` are the flushes of the main buffer that have called `flushBatch`. -/
structure ClientRun where
  cfg : ClientConfig
  buffer : ClusterRun RoutedTopicPartitionRecords
  flushed : List (Nat × Nat) := []
  calls : List HedgerProduce := []
  hedger : HedgeRun
  bugs : List InternalBug := []

/-- What routing answers, what the topic ids are, when a call runs its cascade and what it
returns is left open. -/
inductive ClientAction where
  | produce (ctx : Option Nat) (record : Kgo.Record) (now : Time) (candidates : List Agent)
  | produceSync (ctx : Option Nat) (call : ProduceSyncCall)
  | buffer (action : ClusterAction RoutedTopicPartitionRecords)
  | flushBatch (task : Nat)
  /-- the primary goroutine of a call builds its request -/
  | primary (call : Nat) (version : Int) (topicID : String → Option TopicID)
  | runHedgingAttempts (call : Nat) (candidates : TopicPartition → List Agent)
  | hedger (action : HedgeAction)
  /-- a flush of the hedge buffer builds its request -/
  | hedgeRequest (task : Nat) (version : Int) (topicID : String → Option TopicID)

/-- The flush that a goroutine of the buffer is about to run or runs. -/
def ClusterRun.flushOf {W : Type} (r : ClusterRun W) (task : Nat) : Option (Nat × Nat) :=
  match r.tasks[task]? with
  | some (.flush agent index _ :: _) => some (agent, index)
  | _ => none

def ClusterRun.flushAt {W : Type} (r : ClusterRun W) (task : Nat) :
    Option (AgentBuffer W Callback × Flush W Callback) := do
  let (agent, index) ← r.flushOf task
  let a ← r.buffer.agentBuffers[agent]?
  let f ← a.flushes[index]?
  some (a, f)

/-- The bug that building a request shows. -/
def requestBugs (version : Int) (topicID : String → Option TopicID)
    (partitions : List EncodedTopicPartitionRecords) : List InternalBug :=
  match buildMultiTopicProduceRequestFromEncoded version topicID partitions with
  | .error (.duplicatePartition partition topic) => [.duplicatePartition partition topic]
  | _ => []

namespace ClientRun

def init (cfg : ClientConfig) : ClientRun :=
  { cfg := cfg
    buffer := ClusterRun.init cfg.batchMaxBytes.toNat
    hedger := HedgeRun.init cfg.batchMaxBytes.toNat }

def report (r : ClientRun) (bugs : List InternalBug) : ClientRun := { r with bugs := r.bugs ++ bugs }

/-- The start of `Hedger.ProduceSync`. -/
def hedgerProduceSync (r : ClientRun) (primaryID : Int)
    (routed : List RoutedEncodedTopicPartitionRecords) : ClientRun :=
  if routed = [] then r
  else
    match routed.find? fun p => p.nodeID ≠ primaryID with
    | some p => r.report [.misrouted (HedgerCall.misroutedErr p primaryID)]
    | none => { r with calls := r.calls ++ [⟨primaryID, routed, false⟩] }

def hedgeConfig (r : ClientRun) (call : HedgerProduce) (candidates : TopicPartition → List Agent) :
    HedgeConfig :=
  { maxHedgeAgents := r.cfg.maxHedgeAgents
    primaryID := call.primaryID
    candidates := candidates
    partitions := unrouteEncodedTopicPartitionRecords call.routed }

/-- A flush reports only after it has called `flushBatch`. -/
def mayRun (r : ClientRun) : ClusterAction RoutedTopicPartitionRecords → Bool
  | .run task _ => (r.buffer.flushOf task).all fun flush => flush ∈ r.flushed
  | _ => true

def step [Snappy] (r : ClientRun) : ClientAction → Option ClientRun
  | .produce ctx record now candidates =>
      match produceItem r.cfg record now candidates with
      | none => some r
      | some item => (r.buffer.step (.add ctx item)).map fun buffer => { r with buffer := buffer }
  | .produceSync ctx call =>
      if call.batchMaxBytes = r.cfg.batchMaxBytes then
        (r.buffer.step (.multiAdd ctx call.items)).map fun buffer => { r with buffer := buffer }
      else none
  | .buffer action =>
      if action.isInternal && r.mayRun action then
        if r.buffer.panics action then some (r.report [.mergeRecords])
        else (r.buffer.step action).map fun buffer => { r with buffer := buffer }
      else none
  | .flushBatch task => do
      let flush ← r.buffer.flushOf task
      let (a, f) ← r.buffer.flushAt task
      let routed ← encodePartitions f.wire
      if flush ∈ r.flushed then none
      else some (hedgerProduceSync { r with flushed := r.flushed ++ [flush] } a.nodeID routed)
  | .primary q version topicID => do
      let call ← r.calls[q]?
      some (r.report (requestBugs version topicID (unrouteEncodedTopicPartitionRecords call.routed)))
  | .runHedgingAttempts q candidates => do
      let call ← r.calls[q]?
      if call.hedged then none
      else
        let r := { r with calls := r.calls.set q { call with hedged := true } }
        match Cascade.start (r.hedgeConfig call candidates) with
        | .ok cascade =>
            some { r with hedger := r.hedger.begin (r.hedgeConfig call candidates) cascade }
        | .error err => some (r.report [.duplicatePending err])
  | .hedger (.call _) => none
  | .hedger (.buffer action) =>
      if r.hedger.run.panics action then some (r.report [.mergeEncoded])
      else (r.hedger.step (.buffer action)).map fun hedger => { r with hedger := hedger }
  | .hedger action => (r.hedger.step action).map fun hedger => { r with hedger := hedger }
  | .hedgeRequest task version topicID => do
      let (_, f) ← r.hedger.run.flushAt task
      some (r.report (requestBugs version topicID (unrouteEncodedTopicPartitionRecords f.wire)))

end ClientRun

end Warpstream
