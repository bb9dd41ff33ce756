import Warpstream.Accumulator

set_option autoImplicit false

/- `runHedgingAttempts` and `runHedgingAttempt`: the fallback waves of one
`ProduceSync` call, as a machine whose environment delivers the legs' results and
ends the context. -/
namespace Warpstream

inductive ProduceStop where
  | none
  | noAlternate
  | listDrained
  | budgetCap
  | terminalError
  | writeTimeout
  | canceled
  | internal
deriving DecidableEq, Repr

def ProduceStop.exhausted (s : ProduceStop) : Bool :=
  s = .noAlternate || s = .listDrained || s = .budgetCap

def classifyProduceStop (terminal : Bool) (terminalErr ctxErr : Option GoError)
    (exhaustion : ProduceStop) : ProduceStop :=
  if terminal && !errIs terminalErr .contextCanceled then .terminalError
  else if errIs ctxErr .contextCanceled then .canceled
  else if errIs ctxErr .contextDeadlineExceeded then .writeTimeout
  else if exhaustion.exhausted then exhaustion
  else if terminal then .terminalError
  else .none

/-- `ctxStopErr`: a deadline that was reached counts before its timer has fired. -/
def ctxStopErr (ctxErr : Option GoError) (deadlineReached : Bool) : Option GoError :=
  ctxErr.or (if deadlineReached then some GoError.contextDeadlineExceeded else none)

structure HedgerProduceResult where
  result : ProduceResult := {}
  attempts : Nat := 0
  stop : ProduceStop := .none
deriving DecidableEq

/-- What a call is about: where its partitions were routed and the candidate lists,
which are fetched once per partition. -/
structure HedgeConfig where
  maxHedgeAgents : Nat
  primaryID : Int
  candidates : TopicPartition → List Agent
  partitions : List EncodedTopicPartitionRecords

def HedgeConfig.requested (cfg : HedgeConfig) : List TopicPartition :=
  cfg.partitions.map EncodedTopicPartitionRecords.topicPartition

/-- One group of a wave: the partitions sent to one agent. -/
structure HedgeLeg where
  agent : Int
  parts : List EncodedTopicPartitionRecords
deriving DecidableEq

def HedgeLeg.own (leg : HedgeLeg) : List TopicPartition :=
  leg.parts.map EncodedTopicPartitionRecords.topicPartition

/-- The next agent for a partition that was sent to `tried`, or why there is none. -/
def nextCandidate (cfg : HedgeConfig) (tried : List Int) (tp : TopicPartition) :
    Except ProduceStop Int :=
  if cfg.maxHedgeAgents ≤ tried.length then .error .budgetCap
  else
    match (cfg.candidates tp).find? fun c => c.nodeID ∉ tried with
    | some c => .ok c.nodeID
    | none => .error (if tried.length = 1 then .noAlternate else .listDrained)

/-- The choice of an agent for every pending partition, and the agents tried then. -/
def pickCandidates (cfg : HedgeConfig) (tried : GoMap TopicPartition (List Int)) :
    List EncodedTopicPartitionRecords →
      Except ProduceStop (GoMap TopicPartition (List Int) × List (Int × EncodedTopicPartitionRecords))
  | [] => .ok (tried, [])
  | p :: rest => do
      let before := (tried.lookup p.topicPartition).getD []
      let next ← nextCandidate cfg before p.topicPartition
      let (tried, chosen) ←
        pickCandidates cfg (tried.insert p.topicPartition (before ++ [next])) rest
      .ok (tried, (next, p) :: chosen)

def groupLegs (chosen : List (Int × EncodedTopicPartitionRecords)) : List HedgeLeg :=
  (FirstSeen.groupBy Prod.fst chosen).map fun g => ⟨g.1, g.2.map Prod.snd⟩

/-- Where the loop of `runHedgingAttempts` stands. -/
inductive CascadePhase where
  | top
  | collecting
  | stopped (exhaustion : ProduceStop)
  | finished
deriving DecidableEq

/-- `waiting` are the legs of the current wave whose result has not been read, and
`received` the results read so far. -/
structure Cascade where
  acc : ProduceResultAccumulator
  tried : GoMap TopicPartition (List Int)
  attempts : Nat := 1
  phase : CascadePhase := .top
  waiting : List HedgeLeg := []
  received : List LegResult := []

inductive CascadeAction where
  /-- one pass of the loop up to the dispatch, with the orders of the two maps -/
  | wave (order : List EncodedTopicPartitionRecords) (legs : List HedgeLeg)
  | legResult (i : Nat) (res : ProduceResult)
  /-- the wait of a wave ends with the context -/
  | ctxDone
  /-- the loop ends with the context -/
  | leaveLoop

namespace Cascade

/-- The primary counts as tried for every partition. -/
def primaryTried (cfg : HedgeConfig) : GoMap TopicPartition (List Int) :=
  cfg.partitions.foldl (fun tried p => tried.insert p.topicPartition [cfg.primaryID]) ∅

def start (cfg : HedgeConfig) : Except GoError Cascade :=
  (newProduceResultAccumulator cfg.partitions).map fun acc =>
    { acc := acc, tried := primaryTried cfg }

/-- The loop is left. -/
def stop (c : Cascade) (exhaustion : ProduceStop) : Cascade :=
  { c with phase := .stopped exhaustion }

/-- A wave is sent. -/
def dispatch (c : Cascade) (tried : GoMap TopicPartition (List Int)) (legs : List HedgeLeg) :
    Cascade :=
  { c with tried := tried, attempts := c.attempts + 1, waiting := legs, phase := .collecting }

/-- Reading the result of a leg. -/
def receive (c : Cascade) (i : Nat) (leg : HedgeLeg) (res : ProduceResult) : Cascade :=
  let acc := c.acc.accumulate (scopeProduceResultToPartitions res leg.own)
  let waiting := c.waiting.eraseIdx i
  { c with
    acc := acc
    waiting := waiting
    received := c.received ++ [⟨leg.own, res⟩]
    phase := if acc.done then .stopped .none else if waiting = [] then .top else .collecting }

def step (cfg : HedgeConfig) (ctxErr : Option GoError) (c : Cascade) :
    CascadeAction → Option Cascade
  | .wave order legs =>
      if c.phase = .top ∧ ctxErr = none ∧ c.acc.Remaining order then
        if order = [] then some (c.stop .none)
        else
          match pickCandidates cfg c.tried order with
          | .error exhaustion => some (c.stop exhaustion)
          | .ok (tried, chosen) =>
              if legs.Perm (groupLegs chosen) then some (c.dispatch tried legs) else none
      else none
  | .legResult i res =>
      if c.phase = .collecting then (c.waiting[i]?).map fun leg => c.receive i leg res else none
  | .ctxDone =>
      if c.phase = .collecting ∧ ctxErr ≠ none then some (c.stop .none) else none
  | .leaveLoop =>
      if c.phase = .top ∧ ctxErr ≠ none then some (c.stop .none) else none

/-- The end of `runHedgingAttempts`, once the loop is left. -/
def outcome (c : Cascade) (exhaustion : ProduceStop) (ctxErr : Option GoError)
    (deadlineReached : Bool) (orders : ProduceResultAccumulator.MapOrders) : HedgerProduceResult :=
  let result := c.acc.result orders
  { result := { result with err := ctxErr.or result.err }
    attempts := c.attempts
    stop := classifyProduceStop c.acc.terminalErr.1 c.acc.terminalErr.2
      (ctxStopErr ctxErr deadlineReached) exhaustion }

end Cascade

end Warpstream
