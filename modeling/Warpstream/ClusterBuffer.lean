import Warpstream.AgentBuffer
import Warpstream.Lib.Pool
import Warpstream.ProduceResult

set_option autoImplicit false

/- `ClusterBuffer` with every goroutine that works on it: the callers of `Add` and
`MultiAdd`, the flushes, the context watches and `Close`. A goroutine is the list of
operations it still has to run, each of which is one critical section or one atomic
access. -/
namespace Warpstream

open RoutedBatch

/-- Where a result comes from: a cancelled context, a closed buffer, or a flush of an
agent's buffer. -/
inductive Cause where
  | ctx
  | closed
  | flush (agent index : Nat)
deriving DecidableEq

structure Delivery where
  res : ProduceResult
  cause : Cause
deriving DecidableEq

/-- The callbacks inside the buffers: the one that `wrap` gives an item, and the one that
the chunks of a split item share. -/
inductive Callback where
  | wrapped (item : Nat)
  | fanIn (cell : Nat)
deriving DecidableEq

/-- The variables of the fan-in of a split item. -/
structure FanIn where
  origDone : Callback
  tp : TopicPartition
  remaining : Nat
  chosen : Option Delivery := none
  chosenOK : Bool := false
deriving DecidableEq

namespace FanIn

def failed (f : FanIn) (d : Delivery) : Bool := (recordErrFromResult d.res f.tp).isSome

/-- One chunk reports. A failure of the partition is kept over a success. -/
def report (f : FanIn) (d : Delivery) : FanIn :=
  let f := { f with remaining := f.remaining - 1 }
  match f.chosen with
  | none => { f with chosen := some d, chosenOK := !f.failed d }
  | some _ =>
      if f.chosenOK && f.failed d then { f with chosen := some d, chosenOK := false } else f

end FanIn

/-- The registration of `context.AfterFunc`. -/
inductive CtxWatch where
  | none
  | armed
  | stopped
  | started
deriving DecidableEq

/-- An item handed to the buffer with the variables of its wrapped callback. `ctx` is
`none` for a context that cannot be cancelled. `reported` counts the calls of the wrapped
callback and `completions` are the calls of the original one. -/
structure Item (W : Type) where
  item : W
  ctx : Option Nat
  watch : CtxWatch
  ourDoneFired : Bool := false
  origDoneFired : Bool := false
  reported : Nat := 0
  completions : List Delivery := []
deriving DecidableEq

def Item.new {W : Type} (ctx : Option Nat) (item : W) : Item W :=
  { item := item, ctx := ctx, watch := if ctx.isSome then .armed else .none }

/-- The item once its wrapped callback has run, with the watch stopped if there is one. -/
def Item.settled {W : Type} (it : Item W) : Item W :=
  { it with
    ourDoneFired := it.ctx.isSome
    watch := if it.watch = .armed then .stopped else it.watch
    reported := it.reported + 1 }

/-- A flush whose flush function has returned: the index of the agent's buffer, that of the
flush, and the result. -/
structure FlushReturn where
  agent : Nat
  index : Nat
  res : ProduceResult
deriving DecidableEq

/-- `agentBuffers` holds every agent's buffer ever created. -/
structure ClusterBuffer (W : Type) where
  batchMaxBytes : Nat
  bufferedBytes : Int := 0
  bufferedRecords : Int := 0
  agentBuffers : List (AgentBuffer W Callback) := []
  closed : Bool := false
  items : List (Item W) := []
  fanIns : List FanIn := []
  returned : List FlushReturn := []
deriving DecidableEq

/-- The wrapped items of one `Add` or one `MultiAdd`. -/
inductive Adding (W : Type) where
  | one (p : Promised W Callback)
  | many (items : List (Promised W Callback))
deriving DecidableEq

def Adding.items {W : Type} : Adding W → List (Promised W Callback)
  | .one p => [p]
  | .many items => items

/-- What a goroutine does next. -/
inductive Op (W : Type) where
  /-- `Add`, up to the wrapped item -/
  | add (ctx : Option Nat) (item : W)
  /-- the loop of `MultiAdd` over the items not wrapped yet -/
  | multiAdd (ctx : Option Nat) (todo : List W) (wrapped : List (Promised W Callback))
  | addToBuffers (ctx : Option Nat) (adding : Adding W)
  | agentBufferFor (nodeID : Int) (adding : Adding W)
  | agentAdd (agent : Nat) (adding : Adding W)
  | done (callback : Callback) (d : Delivery)
  | fireOrigDone (item : Nat) (d : Delivery)
  | origDone (item : Nat) (d : Delivery)
  | flush (agent index : Nat) (entries : List (Promised W Callback))
  | closeAgent (agent : Nat)
deriving DecidableEq

/-- What the code leaves open: the order in which the bins of `MultiAdd` are visited and
the result of a flush. -/
structure Choice (W : Type) where
  bins : List (Int × List (Promised W Callback)) := []
  res : ProduceResult := {}

/-- The next state, the operations that replace the one that ran, and new goroutines. -/
structure Effect (W : Type) where
  next : ClusterBuffer W
  ops : List (Op W) := []
  spawned : List (List (Op W)) := []

namespace ClusterBuffer

variable {W : Type} [RoutedBatch W]

/-- `wrap`: the two counters are atomics of their own that nothing reads together, so
adding to both is one step. -/
def wrap (c : ClusterBuffer W) (ctx : Option Nat) (item : W) :
    ClusterBuffer W × Promised W Callback :=
  ({ c with
      bufferedBytes := c.bufferedBytes + payloadBytes item
      bufferedRecords := c.bufferedRecords + recordCount item
      items := c.items ++ [.new ctx item] },
    ⟨item, .wrapped c.items.length⟩)

/-- The decrement of the counters for the `i`th item. -/
def settle (c : ClusterBuffer W) (i : Nat) (it : Item W) : ClusterBuffer W :=
  { c with
    bufferedBytes := c.bufferedBytes - payloadBytes it.item
    bufferedRecords := c.bufferedRecords - recordCount it.item
    items := c.items.set i it.settled }

/-- The wrapped callback of an item, up to the call of `fireOrigDone` or `origDone`. -/
def wrappedDone (c : ClusterBuffer W) (i : Nat) (d : Delivery) : Option (Effect W) := do
  let it ← c.items[i]?
  match it.ctx with
  | none => some { next := c.settle i it, ops := [.origDone i d] }
  | some _ =>
      if it.ourDoneFired then
        some {
          next := { c with items := c.items.set i { it with reported := it.reported + 1 } }
          ops := [.fireOrigDone i d] }
      else some { next := c.settle i it, ops := [.fireOrigDone i d] }

/-- The callback that the chunks of a split item share. -/
def fanInDone (c : ClusterBuffer W) (j : Nat) (d : Delivery) : Option (Effect W) := do
  let f ← c.fanIns[j]?
  let after := f.report d
  let next := { c with fanIns := c.fanIns.set j after }
  if after.remaining = 0 then
    let result ← after.chosen
    some { next := next, ops := [.done after.origDone result] }
  else some { next := next }

/-- The items that the agent's buffer splits. -/
def splits (a : AgentBuffer W Callback) : Adding W → List (Promised W Callback)
  | .one p =>
      if recordCount p.item = 0 ∨ uncompressedWireBytes p.item ≤ a.batchMaxBytes then [] else [p]
  | .many items => if (items.map fun p => recordCount p.item).sum = 0 then [] else items

/-- The fan-in of an item. An item of one chunk keeps its own callback. -/
def newFanIn (batchMaxBytes : Nat) (p : Promised W Callback) : FanIn :=
  let chunks := splitByMaxBytes p.item batchMaxBytes
  { origDone := p.done
    tp := getTopicPartition p.item
    remaining := if chunks.length ≤ 1 then 0 else chunks.length }

/-- The goroutines of the flushes that start at index `first`. -/
def flushTasks (agent first : Nat) : List (Flush W Callback) → List (List (Op W))
  | [] => []
  | f :: rest => [.flush agent first f.entries] :: flushTasks agent (first + 1) rest

/-- The buffer of an agent after a critical section, and the flushes it started. -/
def setAgent (c : ClusterBuffer W) (agent : Nat) (before after : AgentBuffer W Callback)
    (ops : List (Op W)) : Effect W :=
  { next := { c with agentBuffers := c.agentBuffers.set agent after }
    ops := ops
    spawned :=
      flushTasks agent before.flushes.length (after.flushes.drop before.flushes.length) }

/-- `buffer.Add` or `buffer.MultiAdd`. -/
def addTo (a : AgentBuffer W Callback) (fanIn : Nat → Callback) :
    Adding W → Option (AgentBuffer W Callback × List Callback)
  | .one p => a.add p fanIn
  | .many items => a.multiAdd items fanIn

def agentAdd (c : ClusterBuffer W) (agent : Nat) (adding : Adding W) : Option (Effect W) := do
  let a ← c.agentBuffers[agent]?
  let (after, refused) ← addTo a (fun k => .fanIn (c.fanIns.length + k)) adding
  let next := { c with fanIns := c.fanIns ++ (splits a adding).map (newFanIn a.batchMaxBytes) }
  some (next.setAgent agent a after
    (refused.map fun cb => .done cb ⟨{ err := some GoError.errBufferClosed }, .closed⟩))

def ctxFailed (adding : Adding W) (err : GoError) : List (Op W) :=
  adding.items.map fun p => .done p.done ⟨{ err := some err }, .ctx⟩

def bufferClosed (adding : Adding W) : List (Op W) :=
  adding.items.map fun p => .done p.done ⟨{ err := some GoError.errBufferClosed }, .closed⟩

/-- `addToBuffer` and `addToBuffers`. -/
def addToBuffers [DecidableEq W] (c : ClusterBuffer W) (ctxErr : Option GoError) (adding : Adding W)
    (bins : List (Int × List (Promised W Callback))) : Option (Effect W) :=
  match ctxErr with
  | some err => some { next := c, ops := ctxFailed adding err }
  | none =>
      match adding with
      | .one p => some { next := c, ops := [.agentBufferFor (getNodeID p.item) adding] }
      | .many items =>
          if bins.Perm (FirstSeen.groupBy (fun p => getNodeID p.item) items) then
            some { next := c, ops := bins.map fun b => .agentBufferFor b.1 (.many b.2) }
          else none

def agentBufferFor (c : ClusterBuffer W) (nodeID : Int) (adding : Adding W) : Effect W :=
  if c.closed then { next := c, ops := bufferClosed adding }
  else
    match c.agentBuffers.findIdx? fun a => a.nodeID = nodeID with
    | some agent => { next := c, ops := [.agentAdd agent adding] }
    | none =>
        { next := { c with
            agentBuffers := c.agentBuffers ++
              [{ nodeID := nodeID, batchMaxBytes := c.batchMaxBytes }] }
          ops := [.agentAdd c.agentBuffers.length adding] }

def exec [DecidableEq W] (c : ClusterBuffer W) (ctxErr : Nat → Option GoError)
    (choice : Choice W) : Op W → Option (Effect W)
  | .add ctx item =>
      let (next, p) := c.wrap ctx item
      some { next := next, ops := [.addToBuffers ctx (.one p)] }
  | .multiAdd ctx [] wrapped => some { next := c, ops := [.addToBuffers ctx (.many wrapped)] }
  | .multiAdd ctx (item :: todo) wrapped =>
      let (next, p) := c.wrap ctx item
      some { next := next, ops := [.multiAdd ctx todo (wrapped ++ [p])] }
  | .addToBuffers ctx adding => c.addToBuffers (ctx.bind ctxErr) adding choice.bins
  | .agentBufferFor nodeID adding => some (c.agentBufferFor nodeID adding)
  | .agentAdd agent adding => c.agentAdd agent adding
  | .done (.wrapped i) d => c.wrappedDone i d
  | .done (.fanIn j) d => c.fanInDone j d
  | .fireOrigDone i d => do
      let it ← c.items[i]?
      if it.origDoneFired then some { next := c }
      else
        some {
          next := { c with items := c.items.set i { it with origDoneFired := true } }
          ops := [.origDone i d] }
  | .origDone i d => do
      let it ← c.items[i]?
      let after := { it with completions := it.completions ++ [d] }
      some { next := { c with items := c.items.set i after } }
  | .flush agent index entries =>
      some {
        next := { c with returned := c.returned ++ [⟨agent, index, choice.res⟩] }
        ops := entries.map fun e => .done e.done ⟨choice.res, .flush agent index⟩ }
  | .closeAgent agent => do
      let a ← c.agentBuffers[agent]?
      let after ← a.close
      some (c.setAgent agent a after [])

/-- What each operation does, case by case. -/
inductive Runs (c : ClusterBuffer W) (ctxErr : Nat → Option GoError) : Op W → Effect W → Prop where
  | add (ctx : Option Nat) (item : W) :
      Runs c ctxErr (.add ctx item)
        { next := (c.wrap ctx item).1
          ops := [.addToBuffers ctx (.one ⟨item, .wrapped c.items.length⟩)] }
  | wrapped (ctx : Option Nat) (wrapped : List (Promised W Callback)) :
      Runs c ctxErr (.multiAdd ctx [] wrapped)
        { next := c, ops := [.addToBuffers ctx (.many wrapped)] }
  | wrap (ctx : Option Nat) (item : W) (todo : List W) (wrapped : List (Promised W Callback)) :
      Runs c ctxErr (.multiAdd ctx (item :: todo) wrapped)
        { next := (c.wrap ctx item).1
          ops := [.multiAdd ctx todo (wrapped ++ [⟨item, .wrapped c.items.length⟩])] }
  | ctxFailed (n : Nat) (adding : Adding W) (err : GoError) (ended : ctxErr n = some err) :
      Runs c ctxErr (.addToBuffers (some n) adding) { next := c, ops := ctxFailed adding err }
  | addToBuffer (ctx : Option Nat) (p : Promised W Callback) :
      Runs c ctxErr (.addToBuffers ctx (.one p))
        { next := c, ops := [.agentBufferFor (getNodeID p.item) (.one p)] }
  | addToBuffers (ctx : Option Nat) (items : List (Promised W Callback))
      (bins : List (Int × List (Promised W Callback)))
      (binned : bins.Perm (FirstSeen.groupBy (fun p => getNodeID p.item) items)) :
      Runs c ctxErr (.addToBuffers ctx (.many items))
        { next := c, ops := bins.map fun b => .agentBufferFor b.1 (.many b.2) }
  | bufferClosed (nodeID : Int) (adding : Adding W) (closed : c.closed = true) :
      Runs c ctxErr (.agentBufferFor nodeID adding) { next := c, ops := bufferClosed adding }
  | agentBuffer (nodeID : Int) (adding : Adding W) (agent : Nat)
      (found : c.agentBuffers.findIdx? (fun a => a.nodeID = nodeID) = some agent) :
      Runs c ctxErr (.agentBufferFor nodeID adding) { next := c, ops := [.agentAdd agent adding] }
  | newAgentBuffer (nodeID : Int) (adding : Adding W)
      (absent : c.agentBuffers.findIdx? (fun a => a.nodeID = nodeID) = none) :
      Runs c ctxErr (.agentBufferFor nodeID adding)
        { next := { c with
            agentBuffers := c.agentBuffers ++
              [{ nodeID := nodeID, batchMaxBytes := c.batchMaxBytes }] }
          ops := [.agentAdd c.agentBuffers.length adding] }
  | agentAdd (agent : Nat) (adding : Adding W) (a after : AgentBuffer W Callback)
      (refused : List Callback) (found : c.agentBuffers[agent]? = some a)
      (added : addTo a (fun k => .fanIn (c.fanIns.length + k)) adding = some (after, refused)) :
      Runs c ctxErr (.agentAdd agent adding)
        (ClusterBuffer.setAgent
          { c with fanIns := c.fanIns ++ (splits a adding).map (newFanIn a.batchMaxBytes) } agent a
          after (refused.map fun cb => .done cb ⟨{ err := some GoError.errBufferClosed }, .closed⟩))
  | doneBare (i : Nat) (d : Delivery) (it : Item W) (found : c.items[i]? = some it)
      (bare : it.ctx = none) :
      Runs c ctxErr (.done (.wrapped i) d) { next := c.settle i it, ops := [.origDone i d] }
  | done (i : Nat) (d : Delivery) (it : Item W) (found : c.items[i]? = some it)
      (gated : it.ctx ≠ none) (first : it.ourDoneFired = false) :
      Runs c ctxErr (.done (.wrapped i) d) { next := c.settle i it, ops := [.fireOrigDone i d] }
  | doneAgain (i : Nat) (d : Delivery) (it : Item W) (found : c.items[i]? = some it)
      (gated : it.ctx ≠ none) (again : it.ourDoneFired = true) :
      Runs c ctxErr (.done (.wrapped i) d)
        { next := { c with items := c.items.set i { it with reported := it.reported + 1 } }
          ops := [.fireOrigDone i d] }
  | fanIn (j : Nat) (d : Delivery) (f : FanIn) (found : c.fanIns[j]? = some f)
      (more : (f.report d).remaining ≠ 0) :
      Runs c ctxErr (.done (.fanIn j) d)
        { next := { c with fanIns := c.fanIns.set j (f.report d) } }
  | fanInLast (j : Nat) (d : Delivery) (f : FanIn) (result : Delivery)
      (found : c.fanIns[j]? = some f) (last : (f.report d).remaining = 0)
      (chosen : (f.report d).chosen = some result) :
      Runs c ctxErr (.done (.fanIn j) d)
        { next := { c with fanIns := c.fanIns.set j (f.report d) }
          ops := [.done (f.report d).origDone result] }
  | fireLost (i : Nat) (d : Delivery) (it : Item W) (found : c.items[i]? = some it)
      (fired : it.origDoneFired = true) : Runs c ctxErr (.fireOrigDone i d) { next := c }
  | fireWon (i : Nat) (d : Delivery) (it : Item W) (found : c.items[i]? = some it)
      (first : it.origDoneFired = false) :
      Runs c ctxErr (.fireOrigDone i d)
        { next := { c with items := c.items.set i { it with origDoneFired := true } }
          ops := [.origDone i d] }
  | origDone (i : Nat) (d : Delivery) (it : Item W) (found : c.items[i]? = some it) :
      Runs c ctxErr (.origDone i d)
        { next := { c with
            items := c.items.set i { it with completions := it.completions ++ [d] } } }
  | flush (agent index : Nat) (entries : List (Promised W Callback)) (res : ProduceResult) :
      Runs c ctxErr (.flush agent index entries)
        { next := { c with returned := c.returned ++ [⟨agent, index, res⟩] }
          ops := entries.map fun e => .done e.done ⟨res, .flush agent index⟩ }
  | closeAgent (agent : Nat) (a after : AgentBuffer W Callback)
      (found : c.agentBuffers[agent]? = some a) (closing : a.close = some after) :
      Runs c ctxErr (.closeAgent agent) (c.setAgent agent a after [])

theorem runs_of_exec [DecidableEq W] {c : ClusterBuffer W} {ctxErr : Nat → Option GoError}
    {choice : Choice W} {op : Op W} {effect : Effect W}
    (ran : c.exec ctxErr choice op = some effect) : Runs c ctxErr op effect := by
  cases op with
  | add ctx item =>
      obtain rfl := Option.some.inj ran
      exact .add ctx item
  | multiAdd ctx todo wrapped =>
      cases todo with
      | nil =>
          obtain rfl := Option.some.inj ran
          exact .wrapped ctx wrapped
      | cons item todo =>
          obtain rfl := Option.some.inj ran
          exact .wrap ctx item todo wrapped
  | addToBuffers ctx adding =>
      simp only [exec, ClusterBuffer.addToBuffers] at ran
      split at ran
      · rename_i err ended
        obtain ⟨n, rfl, ended⟩ := Option.bind_eq_some_iff.mp ended
        obtain rfl := Option.some.inj ran
        exact .ctxFailed n adding err ended
      · split at ran
        · obtain rfl := Option.some.inj ran
          exact .addToBuffer ctx _
        · split at ran
          · obtain rfl := Option.some.inj ran
            exact .addToBuffers ctx _ choice.bins ‹_›
          · cases ran
  | agentBufferFor nodeID adding =>
      obtain rfl := Option.some.inj ran
      unfold ClusterBuffer.agentBufferFor
      split
      · exact .bufferClosed nodeID adding ‹_›
      · split
        · exact .agentBuffer nodeID adding _ ‹_›
        · exact .newAgentBuffer nodeID adding ‹_›
  | agentAdd agent adding =>
      simp only [exec, ClusterBuffer.agentAdd, Option.bind_eq_bind, Option.bind_eq_some_iff] at ran
      obtain ⟨a, found, ⟨after, refused⟩, added, eq⟩ := ran
      obtain rfl := Option.some.inj eq
      exact .agentAdd agent adding a after refused found added
  | done cb d =>
      cases cb with
      | wrapped i =>
          simp only [exec, wrappedDone, Option.bind_eq_bind, Option.bind_eq_some_iff] at ran
          obtain ⟨it, found, eq⟩ := ran
          split at eq
          · obtain rfl := Option.some.inj eq
            exact .doneBare i d it found ‹_›
          · rename_i n gated
            have some : it.ctx ≠ none := by simp [gated]
            split at eq
            · obtain rfl := Option.some.inj eq
              exact .doneAgain i d it found some ‹_›
            · rename_i first
              obtain rfl := Option.some.inj eq
              exact .done i d it found some (by simpa using first)
      | fanIn j =>
          simp only [exec, fanInDone, Option.bind_eq_bind, Option.bind_eq_some_iff] at ran
          obtain ⟨f, found, eq⟩ := ran
          split at eq
          · obtain ⟨result, chosen, eq⟩ := Option.bind_eq_some_iff.mp eq
            obtain rfl := Option.some.inj eq
            exact .fanInLast j d f result found ‹_› chosen
          · obtain rfl := Option.some.inj eq
            exact .fanIn j d f found ‹_›
  | fireOrigDone i d =>
      simp only [exec, Option.bind_eq_bind, Option.bind_eq_some_iff] at ran
      obtain ⟨it, found, eq⟩ := ran
      split at eq
      · obtain rfl := Option.some.inj eq
        exact .fireLost i d it found ‹_›
      · rename_i first
        obtain rfl := Option.some.inj eq
        exact .fireWon i d it found (by simpa using first)
  | origDone i d =>
      simp only [exec, Option.bind_eq_bind, Option.bind_eq_some_iff] at ran
      obtain ⟨it, found, eq⟩ := ran
      obtain rfl := Option.some.inj eq
      exact .origDone i d it found
  | flush agent index entries =>
      obtain rfl := Option.some.inj ran
      exact .flush agent index entries choice.res
  | closeAgent agent =>
      simp only [exec, Option.bind_eq_bind, Option.bind_eq_some_iff] at ran
      obtain ⟨a, found, after, closing, eq⟩ := ran
      obtain rfl := Option.some.inj eq
      exact .closeAgent agent a after found closing

end ClusterBuffer

/-- The buffer, its goroutines, and the contexts that have ended. -/
structure ClusterRun (W : Type) where
  buffer : ClusterBuffer W
  tasks : List (List (Op W)) := []
  ctxErr : Nat → Option GoError := fun _ => none

inductive ClusterAction (W : Type) where
  | add (ctx : Option Nat) (item : W)
  | multiAdd (ctx : Option Nat) (items : List W)
  | cancel (ctx : Nat) (err : GoError)
  | watchFires (item : Nat)
  | timerFlush (agent : Nat)
  | close
  | run (task : Nat) (choice : Choice W)

namespace ClusterRun

variable {W : Type} [RoutedBatch W] [DecidableEq W]

def init (batchMaxBytes : Nat) : ClusterRun W := { buffer := { batchMaxBytes := batchMaxBytes } }

def spawn (r : ClusterRun W) (tasks : List (List (Op W))) : ClusterRun W :=
  { r with tasks := r.tasks ++ tasks }

def step (r : ClusterRun W) : ClusterAction W → Option (ClusterRun W)
  | .add ctx item => some (r.spawn [[.add ctx item]])
  | .multiAdd ctx items => some (if items = [] then r else r.spawn [[.multiAdd ctx items []]])
  | .cancel ctx err =>
      if r.ctxErr ctx = none then
        some { r with ctxErr := fun n => if n = ctx then some err else r.ctxErr n }
      else none
  | .watchFires i => do
      let it ← r.buffer.items[i]?
      let ctx ← it.ctx
      let err ← r.ctxErr ctx
      if it.watch = .armed then
        let after := { it with watch := .started }
        some (spawn { r with buffer := { r.buffer with items := r.buffer.items.set i after } }
          [[.fireOrigDone i ⟨{ err := some err }, .ctx⟩]])
      else none
  | .timerFlush agent => do
      let a ← r.buffer.agentBuffers[agent]?
      let after ← a.timerFlush
      let effect := r.buffer.setAgent agent a after []
      some (spawn { r with buffer := effect.next } effect.spawned)
  | .close =>
      if r.buffer.closed then some r
      else
        some (spawn { r with buffer := { r.buffer with closed := true } }
          ((List.range r.buffer.agentBuffers.length).map fun agent => [.closeAgent agent]))
  | .run task choice =>
      match r.tasks[task]? with
      | some (op :: rest) => do
          let effect ← r.buffer.exec r.ctxErr choice op
          some { r with
            buffer := effect.next
            tasks := r.tasks.set task (effect.ops ++ rest) ++ effect.spawned }
      | _ => none

/-- What each action does, case by case. -/
inductive Steps (r : ClusterRun W) : ClusterAction W → ClusterRun W → Prop where
  | add (ctx : Option Nat) (item : W) : Steps r (.add ctx item) (r.spawn [[.add ctx item]])
  | multiAddNone (ctx : Option Nat) : Steps r (.multiAdd ctx []) r
  | multiAdd (ctx : Option Nat) (items : List W) :
      Steps r (.multiAdd ctx items) (r.spawn [[.multiAdd ctx items []]])
  | cancel (ctx : Nat) (err : GoError) (running : r.ctxErr ctx = none) :
      Steps r (.cancel ctx err)
        { r with ctxErr := fun n => if n = ctx then some err else r.ctxErr n }
  | watchFires (i : Nat) (it : Item W) (ctx : Nat) (err : GoError)
      (found : r.buffer.items[i]? = some it) (hasCtx : it.ctx = some ctx)
      (ended : r.ctxErr ctx = some err) :
      Steps r (.watchFires i)
        (spawn { r with buffer := { r.buffer with
          items := r.buffer.items.set i { it with watch := .started } } }
          [[.fireOrigDone i ⟨{ err := some err }, .ctx⟩]])
  | timerFlush (agent : Nat) (a after : AgentBuffer W Callback)
      (found : r.buffer.agentBuffers[agent]? = some a) (started : a.timerFlush = some after) :
      Steps r (.timerFlush agent)
        (spawn { r with buffer := (r.buffer.setAgent agent a after []).next }
          (r.buffer.setAgent agent a after []).spawned)
  | closeAgain : Steps r .close r
  | close : Steps r .close
      (spawn { r with buffer := { r.buffer with closed := true } }
        ((List.range r.buffer.agentBuffers.length).map fun agent => [.closeAgent agent]))
  | run (task : Nat) (choice : Choice W) (op : Op W) (rest : List (Op W)) (effect : Effect W)
      (found : r.tasks[task]? = some (op :: rest))
      (ran : ClusterBuffer.Runs r.buffer r.ctxErr op effect) :
      Steps r (.run task choice)
        { r with
          buffer := effect.next
          tasks := r.tasks.set task (effect.ops ++ rest) ++ effect.spawned }

theorem steps_of_step {r r' : ClusterRun W} {action : ClusterAction W}
    (stepped : r.step action = some r') : Steps r action r' := by
  cases action with
  | add ctx item =>
      obtain rfl := Option.some.inj stepped
      exact .add ctx item
  | multiAdd ctx items =>
      obtain rfl := Option.some.inj stepped
      split
      · subst items
        exact .multiAddNone ctx
      · exact .multiAdd ctx items
  | cancel ctx err =>
      simp only [step] at stepped
      split at stepped
      · obtain rfl := Option.some.inj stepped
        exact .cancel ctx err ‹_›
      · cases stepped
  | watchFires i =>
      simp only [step, Option.bind_eq_bind, Option.bind_eq_some_iff] at stepped
      obtain ⟨it, found, ctx, hasCtx, err, ended, eq⟩ := stepped
      split at eq
      · obtain rfl := Option.some.inj eq
        exact .watchFires i it ctx err found hasCtx ended
      · cases eq
  | timerFlush agent =>
      simp only [step, Option.bind_eq_bind, Option.bind_eq_some_iff] at stepped
      obtain ⟨a, found, after, started, eq⟩ := stepped
      obtain rfl := Option.some.inj eq
      exact .timerFlush agent a after found started
  | close =>
      simp only [step] at stepped
      split at stepped
      · obtain rfl := Option.some.inj stepped
        exact .closeAgain
      · obtain rfl := Option.some.inj stepped
        exact .close
  | run task choice =>
      simp only [step] at stepped
      split at stepped
      · rename_i op rest found
        simp only [Option.bind_eq_bind, Option.bind_eq_some_iff] at stepped
        obtain ⟨effect, ran, eq⟩ := stepped
        obtain rfl := Option.some.inj eq
        exact .run task choice op rest effect found (ClusterBuffer.runs_of_exec ran)
      · cases stepped

end ClusterRun

end Warpstream
