import Warpstream.AgentBufferTimers
import Warpstream.ClusterBufferTaken

set_option autoImplicit false

/- `ClusterBuffer.Close` with its wait groups. An agent's `flushWG` counts the goroutines of the
agent's flushes, the agent's `Close` waits for it before it cancels the flush context, and the
cluster's `Close` waits for the `Close` of every agent's buffer. -/
namespace Warpstream

open RoutedBatch

/-- The agent whose `flushWG` counts a new goroutine. -/
def flushWGOf {W : Type} : List (Op W) → Option Nat
  | .flush agent _ _ :: _ => some agent
  | _ => none

/-- `flushWG` has, for each goroutine, the agent whose wait group counts it. `closing` is how
many agents' buffers the first `Close` took, `drained` are those whose own `Close` has
cancelled the flush context, and `returned` says that the first `Close` has returned. -/
structure CloseWait where
  flushWG : List (Option Nat) := []
  closing : Option Nat := none
  drained : List Nat := []
  returned : Bool := false
deriving DecidableEq

namespace CloseWait

variable {W : Type}

/-- The buffer takes a step: new goroutines are counted, and `Close` takes the agents'
buffers. -/
def follow (w : CloseWait) (before after : ClusterRun W) : CloseWait :=
  { w with
    flushWG := w.flushWG ++ (after.tasks.drop before.tasks.length).map flushWGOf
    closing :=
      if after.buffer.closed && !before.buffer.closed then some before.buffer.agentBuffers.length
      else w.closing }

/-- The counter of an agent's `flushWG`. -/
def running (w : CloseWait) (r : ClusterRun W) (agent : Nat) : Nat :=
  (w.flushWG.zip r.tasks).countP fun g => g.1 = some agent && !g.2.isEmpty

/-- `flushWG.Wait` of an agent's `Close` returns and the flush context is cancelled. -/
def drain (w : CloseWait) (r : ClusterRun W) (agent : Nat) : Option CloseWait := do
  let a ← r.buffer.agentBuffers[agent]?
  if a.closed && w.running r agent = 0 then some { w with drained := w.drained ++ [agent] }
  else none

/-- `wg.Wait` of the cluster's `Close` returns. -/
def finish (w : CloseWait) : Option CloseWait := do
  let agents ← w.closing
  if (List.range agents).all fun agent => w.drained.contains agent then
    some { w with returned := true }
  else none

end CloseWait

/-- A buffer with its `Close`. -/
structure ClosingBuffer (W : Type) where
  run : ClusterRun W
  wait : CloseWait := {}

inductive ClosingAction (W : Type) where
  | buffer (action : ClusterAction W)
  | drained (agent : Nat)
  | closed

namespace ClosingBuffer

variable {W : Type} [RoutedBatch W] [DecidableEq W]

def init (batchMaxBytes : Nat) : ClosingBuffer W := { run := ClusterRun.init batchMaxBytes }

def step (s : ClosingBuffer W) : ClosingAction W → Option (ClosingBuffer W)
  | .buffer action => (s.run.step action).map fun run => ⟨run, s.wait.follow s.run run⟩
  | .drained agent => (s.wait.drain s.run agent).map fun wait => { s with wait := wait }
  | .closed => s.wait.finish.map fun wait => { s with wait := wait }

end ClosingBuffer

namespace ClusterBuffer

variable {W : Type} [RoutedBatch W] {c c' : ClusterBuffer W}

/-- The pending produce of every agent's buffer is well formed, and that of a closed one is
empty. -/
def Shaped (c : ClusterBuffer W) : Prop :=
  ∀ a ∈ c.agentBuffers, a.Shape ∧ (a.closed = true → a.nextProduceRecords = 0)

/-- What a step does to the agents' buffers, with the goroutines it starts. -/
inductive AgentsStep (c c' : ClusterBuffer W) : List (List (Op W)) → Prop where
  | same (agents : c'.agentBuffers = c.agentBuffers) : AgentsStep c c' []
  | new (nodeID : Int) (agents : c'.agentBuffers =
      c.agentBuffers ++ [{ nodeID := nodeID, batchMaxBytes := c.batchMaxBytes }]) :
      AgentsStep c c' []
  | set (agent : Nat) (a after : AgentBuffer W Callback) (added : List (Promised W Callback))
      (found : c.agentBuffers[agent]? = some a) (moves : a.Moves added after)
      (filled : ∀ p ∈ added, 0 < recordCount p.item)
      (agents : c'.agentBuffers = c.agentBuffers.set agent after)
      (still : a.closed = true → a.nextProduceRecords = 0 → after = a)
      (closes : after.closed = true → a.closed = true ∨ after.nextProduceRecords = 0) :
      AgentsStep c c' (flushTasks agent a.flushes.length (after.flushes.drop a.flushes.length))

theorem AgentsStep.shaped {spawned : List (List (Op W))} (step : AgentsStep c c' spawned)
    (shaped : c.Shaped) : c'.Shaped := by
  intro a' mem
  cases step with
  | same agents => exact shaped a' (agents ▸ mem)
  | new nodeID agents =>
      rw [agents] at mem
      rcases List.mem_append.mp mem with old | new
      · exact shaped a' old
      · obtain rfl := List.mem_singleton.mp new
        exact ⟨⟨rfl, rfl, List.forall_mem_nil _, Or.inl (Nat.zero_le _)⟩, fun _ => rfl⟩
  | set agent a after added found moves filled agents still closes =>
      rw [agents] at mem
      rcases List.mem_or_eq_of_mem_set mem with old | rfl
      · exact shaped a' old
      · obtain ⟨shape, idle⟩ := shaped a (List.mem_of_getElem? found)
        refine ⟨shape.moves moves filled, fun closed => ?_⟩
        rcases closes closed with was | none
        · rw [still was (idle was)]
          exact idle was
        · exact none

/-- A closed buffer stays as it is. -/
theorem AgentsStep.agents {spawned : List (List (Op W))} (step : AgentsStep c c' spawned)
    (shaped : c.Shaped) {k : Nat} {a : AgentBuffer W Callback}
    (found : c.agentBuffers[k]? = some a) :
    ∃ a', c'.agentBuffers[k]? = some a' ∧ (a.closed = true → a' = a) := by
  have inside := (List.getElem?_eq_some_iff.mp found).1
  cases step with
  | same agents => exact ⟨a, agents ▸ found, fun _ => rfl⟩
  | new nodeID agents =>
      refine ⟨a, ?_, fun _ => rfl⟩
      rw [agents, List.getElem?_append_left inside]
      exact found
  | set agent b after added there moves filled agents still closes =>
      rw [agents]
      by_cases same : k = agent
      · subst same
        obtain rfl := Option.some.inj (found.symm.trans there)
        refine ⟨after, List.getElem?_set_self inside, fun closed => ?_⟩
        exact still closed ((shaped a (List.mem_of_getElem? found)).2 closed)
      · exact ⟨a, by rw [List.getElem?_set_ne (Ne.symm same)]; exact found, fun _ => rfl⟩

omit [RoutedBatch W] in
theorem mem_flushTasks_task {agent first : Nat} {flushes : List (Flush W Callback)}
    {task : List (Op W)} (mem : task ∈ flushTasks agent first flushes) :
    flushes ≠ [] ∧ ∃ index entries, task = [.flush agent index entries] := by
  induction flushes generalizing first with
  | nil => cases mem
  | cons f rest ih =>
      refine ⟨List.cons_ne_nil f rest, ?_⟩
      rcases List.mem_cons.mp mem with rfl | later
      · exact ⟨first, f.entries, rfl⟩
      · exact (ih later).2

/-- New goroutines flush an open buffer. -/
theorem AgentsStep.spawned {spawned : List (List (Op W))} (step : AgentsStep c c' spawned)
    (shaped : c.Shaped) {task : List (Op W)} (mem : task ∈ spawned) :
    ∃ agent index entries a, task = [.flush agent index entries] ∧
      c.agentBuffers[agent]? = some a ∧ a.closed = false := by
  cases step with
  | same | new => cases mem
  | set agent a after added found moves filled agents still closes =>
      obtain ⟨some, index, entries, rfl⟩ := mem_flushTasks_task mem
      refine ⟨agent, index, entries, a, rfl, found, Bool.eq_false_iff.mpr fun closed => some ?_⟩
      rw [still closed ((shaped a (List.mem_of_getElem? found)).2 closed), List.drop_length]

theorem addTo_closed {a after : AgentBuffer W Callback} {fanIn : Nat → Callback} {adding : Adding W}
    {refused : List Callback} (closed : a.closed = true)
    (added : addTo a fanIn adding = some (after, refused)) : after = a := by
  have none : (a, ([] : List Callback)) = (after, refused) → after = a :=
    fun same => (Prod.mk.inj same).1.symm
  have chunks {items : List (Promised W Callback)}
      (added : a.addChunks items = some (after, refused)) : after = a := by
    rcases AgentBuffer.addChunks_cases added with ⟨-, same, -⟩ | ⟨isOpen, -⟩
    · exact same
    · cases closed.symm.trans isOpen
  have many {items : List (Promised W Callback)}
      (added : a.multiAdd items fanIn = some (after, refused)) : after = a := by
    unfold AgentBuffer.multiAdd at added
    split at added
    · exact none (Option.some.inj added)
    · exact chunks added
  cases adding with
  | one p =>
      simp only [addTo, AgentBuffer.add] at added
      split at added
      · exact none (Option.some.inj added)
      · split at added
        · exact many added
        · exact chunks added
  | many items => exact many added

/-- Adding items with records to an agent's buffer. -/
theorem agentsStep_addTo [LawfulSplit W] {agent : Nat} {adding : Adding W}
    {a after : AgentBuffer W Callback} {refused : List Callback} {first : Nat}
    (positive : ∀ p ∈ adding.items, 0 < recordCount p.item)
    (found : c.agentBuffers[agent]? = some a)
    (added : addTo a (fun k => .fanIn (first + k)) adding = some (after, refused))
    (agents : c'.agentBuffers = c.agentBuffers.set agent after) :
    AgentsStep c c' (flushTasks agent a.flushes.length (after.flushes.drop a.flushes.length)) := by
  obtain ⟨chunks, outcome, -, each⟩ := addTo_cases positive added
  have filled (chunk : Promised W Callback) (mem : chunk ∈ chunks) : 0 < recordCount chunk.item := by
    obtain ⟨p, inside, rfl | ⟨k, -, -, part⟩⟩ := each chunk mem
    · exact positive chunk inside
    · exact LawfulSplit.nonempty p.item a.batchMaxBytes (positive p inside) chunk.item part
  by_cases closed : a.closed = true
  · have same := addTo_closed closed added
    exact .set agent a after [] found (same ▸ .refl) (List.forall_mem_nil _) agents
      (fun _ _ => same) fun _ => Or.inl closed
  · rcases outcome with ⟨moves, -, kept⟩ | ⟨was, -, -⟩
    · exact .set agent a after chunks found moves filled agents (fun was => absurd was closed)
        fun now => Or.inl (kept ▸ now)
    · exact absurd was closed

/-- What each operation does to the agents' buffers. -/
theorem agentsStep_of_runs [LawfulSplit W] {ctxErr : Nat → Option GoError} {op : Op W}
    {effect : Effect W} (ok : c.OpOk ctxErr op) (ran : Runs c ctxErr op effect) :
    AgentsStep c effect.next effect.spawned := by
  cases ran with
  | agentAdd agent adding a after refused found added =>
      obtain ⟨ctx, wrapped⟩ := ok
      refine agentsStep_addTo (fun p mem => ?_) found added rfl
      obtain ⟨_, _, -, -, -, -, positive⟩ := wrapped p mem
      exact positive
  | newAgentBuffer nodeID adding absent => exact .new nodeID rfl
  | closeAgent agent a after found closing =>
      refine .set agent a after [] found (AgentBuffer.close_moves closing) (List.forall_mem_nil _) rfl
        ?_ ?_
      · intro closed _
        rcases AgentBuffer.close_cases closing with ⟨-, same⟩ | ⟨isOpen, -⟩
        · exact same
        · cases closed.symm.trans isOpen
      · intro _
        rcases AgentBuffer.close_cases closing with ⟨closed, -⟩ | ⟨-, -, idle, -⟩
        · exact Or.inl closed
        · exact Or.inr idle
  | _ => exact .same rfl

/-- A closed cluster gets no new agent's buffer. -/
theorem length_of_exec [DecidableEq W] {ctxErr : Nat → Option GoError} {choice : Choice W}
    {op : Op W} {effect : Effect W} (ran : c.exec ctxErr choice op = some effect)
    (closed : effect.next.closed = true) :
    effect.next.agentBuffers.length = c.agentBuffers.length := by
  cases runs_of_exec ran with
  | newAgentBuffer nodeID adding absent =>
      have isClosed : c.closed = true := closed
      have refused : c.agentBufferFor nodeID adding = { next := c, ops := bufferClosed adding } :=
        if_pos isClosed
      have eq := congrArg (fun e => e.next.agentBuffers) (refused.symm.trans (Option.some.inj ran))
      exact congrArg List.length eq.symm
  | agentAdd | closeAgent => exact List.length_set
  | _ => rfl

end ClusterBuffer

namespace ClusterRun

open ClusterBuffer

variable {W : Type} [RoutedBatch W] {r r' : ClusterRun W}

/-- The goroutine goes on: it does not flush anew, and results of flushes are only passed on
by it if it had one. -/
def Continues (before after : List (Op W)) : Prop :=
  (before = [] → after = []) ∧
    ∀ op ∈ after, (op.fromFlush = true → ∃ old ∈ before, old.fromFlush = true) ∧
      ∀ agent index entries, op = .flush agent index entries → op ∈ before

/-- What a step of the buffer does that `Close` depends on. -/
structure Follows (r r' : ClusterRun W) : Prop where
  old : ∀ (t : Nat) (ops : List (Op W)), r.tasks[t]? = some ops →
    ∃ ops', r'.tasks[t]? = some ops' ∧ Continues ops ops'
  new : ∀ task ∈ r'.tasks.drop r.tasks.length, (∀ op ∈ task, op.fromFlush = false) ∨
    ∃ agent index entries a, task = [.flush agent index entries] ∧
      r.buffer.agentBuffers[agent]? = some a ∧ a.closed = false
  agents : ∀ (k : Nat) (a : AgentBuffer W Callback), r.buffer.agentBuffers[k]? = some a →
    ∃ a', r'.buffer.agentBuffers[k]? = some a' ∧ (a.closed = true → a' = a)
  shaped : r'.buffer.Shaped
  fixed : r'.buffer.closed = true →
    r'.buffer.agentBuffers.length = r.buffer.agentBuffers.length
  closed : r.buffer.closed = true → r'.buffer.closed = true

omit [RoutedBatch W] in
theorem Continues.refl (ops : List (Op W)) : Continues ops ops :=
  ⟨id, fun op mem => ⟨fun flush => ⟨op, mem, flush⟩, fun _ _ _ _ => mem⟩⟩

/-- New goroutines that flush nothing. -/
theorem follows_spawn (shaped : r.buffer.Shaped) {buffer : ClusterBuffer W}
    {ctxErr : Nat → Option GoError} {tasks : List (List (Op W))}
    (agents : buffer.agentBuffers = r.buffer.agentBuffers)
    (closed : r.buffer.closed = true → buffer.closed = true)
    (quiet : ∀ op ∈ tasks.flatten, op.fromFlush = false) :
    Follows r { buffer := buffer, tasks := r.tasks ++ tasks, ctxErr := ctxErr } where
  old t ops found := by
    refine ⟨ops, ?_, Continues.refl ops⟩
    rw [List.getElem?_append_left (List.getElem?_eq_some_iff.mp found).1]
    exact found
  new task mem := by
    rw [List.drop_left] at mem
    exact Or.inl fun op inside => quiet op (List.mem_flatten.mpr ⟨task, mem, inside⟩)
  agents k a found := ⟨a, agents ▸ found, fun _ => rfl⟩
  shaped a mem := shaped a (agents ▸ mem)
  fixed _ := congrArg List.length agents
  closed := closed

theorem Follows.refl (shaped : r.buffer.Shaped) : Follows r r where
  old _ ops found := ⟨ops, found, Continues.refl ops⟩
  new task mem := by
    rw [List.drop_length] at mem
    cases mem
  agents _ a found := ⟨a, found, fun _ => rfl⟩
  shaped := shaped
  fixed _ := rfl
  closed := id

/-- A critical section of an agent's buffer, in a goroutine that goes on. -/
theorem follows_agents (shaped : r.buffer.Shaped) {buffer : ClusterBuffer W}
    {ctxErr : Nat → Option GoError} {tasks spawned : List (List (Op W))}
    (agents : AgentsStep r.buffer buffer spawned)
    (fixed : buffer.closed = true → buffer.agentBuffers.length = r.buffer.agentBuffers.length)
    (closed : r.buffer.closed = true → buffer.closed = true)
    (length : tasks.length = r.tasks.length)
    (old : ∀ (t : Nat) (ops : List (Op W)), r.tasks[t]? = some ops →
      ∃ ops', tasks[t]? = some ops' ∧ Continues ops ops') :
    Follows r { buffer := buffer, tasks := tasks ++ spawned, ctxErr := ctxErr } where
  old t ops found := by
    obtain ⟨ops', found', continues⟩ := old t ops found
    refine ⟨ops', ?_, continues⟩
    rw [List.getElem?_append_left (List.getElem?_eq_some_iff.mp found').1]
    exact found'
  new task mem := by
    rw [← length, List.drop_left] at mem
    exact Or.inr (agents.spawned shaped mem)
  agents _ _ found := agents.agents shaped found
  shaped := agents.shaped shaped
  fixed := fixed
  closed := closed

/-- What an operation turns into runs in the goroutine of a flush only if the operation did. -/
theorem fromFlush_of_runs {c : ClusterBuffer W} {ctxErr : Nat → Option GoError} {op : Op W}
    {ops : List (Op W)} {effect : Effect W} (origins : Origins c ctxErr (op :: ops))
    (apart : Apart c (op :: ops)) (ran : Runs c ctxErr op effect) {new : Op W}
    (mem : new ∈ effect.ops) :
    (new.fromFlush = true → op.fromFlush = true) ∧
      ∀ agent index entries, new ≠ .flush agent index entries := by
  cases ran with
  | add | wrapped | wrap | addToBuffer | agentBuffer | newAgentBuffer =>
      obtain rfl := List.mem_singleton.mp mem
      exact ⟨fun flush => (by cases flush), fun _ _ _ same => (by cases same)⟩
  | addToBuffers ctx items bins binned =>
      obtain ⟨bin, -, rfl⟩ := List.mem_map.mp mem
      exact ⟨fun flush => (by cases flush), fun _ _ _ same => (by cases same)⟩
  | ctxFailed n adding err ended =>
      obtain ⟨p, -, rfl⟩ := List.mem_map.mp mem
      exact ⟨fun flush => (by cases flush), fun _ _ _ same => (by cases same)⟩
  | bufferClosed nodeID adding closed =>
      obtain ⟨p, -, rfl⟩ := List.mem_map.mp mem
      exact ⟨fun flush => (by cases flush), fun _ _ _ same => (by cases same)⟩
  | agentAdd agent adding a after refused found added =>
      obtain ⟨cb, -, rfl⟩ := List.mem_map.mp mem
      exact ⟨fun flush => (by cases flush), fun _ _ _ same => (by cases same)⟩
  | doneBare | done | doneAgain | fireWon =>
      obtain rfl := List.mem_singleton.mp mem
      exact ⟨id, fun _ _ _ same => (by cases same)⟩
  | fanInLast j d f result found last chosen =>
      obtain rfl := List.mem_singleton.mp mem
      refine ⟨fun flush => ?_, fun _ _ _ same => (by cases same)⟩
      -- a result kept from a flush means that a buffer took the item, chunks and all
      by_contra other
      have outside : Callback.fanIn j ∈ Op.outside (.done (.fanIn j) d : Op W) := by
        rw [Op.outside, if_neg (show ¬ d.ofFlush = true from other)]
        exact List.mem_singleton_self _
      rcases f.report_chosen d with ⟨-, same, -⟩ | ⟨-, -, same, -⟩
      · obtain rfl := Option.some.inj (same.symm.trans chosen)
        exact other flush
      · obtain ⟨⟨i, orig⟩, kept⟩ := origins.fanIns j f found
        have sourced := (kept result (same.symm.trans chosen)).1
        cases cause : result.cause with
        | ctx | closed =>
            rw [Op.fromFlush, Delivery.ofFlush, cause] at flush
            cases flush
        | flush agent index =>
            simp only [Sourced, cause] at sourced
            obtain ⟨-, a, g, e, place, there, inside, reports⟩ := sourced
            refine apart.ops _ List.mem_cons_self _ outside i (Or.inr ⟨j, f, rfl, found, orig⟩) ?_
            refine ⟨a, List.mem_of_getElem? place, e, ?_, orig ▸ reports⟩
            exact List.mem_append_left _
              (List.mem_flatMap.mpr ⟨g, List.mem_of_getElem? there, inside⟩)
  | flush agent index entries res =>
      obtain ⟨e, -, rfl⟩ := List.mem_map.mp mem
      exact ⟨fun _ => rfl, fun _ _ _ same => (by cases same)⟩
  | fanIn | fireLost | origDone | closeAgent => cases mem

theorem length_of_step [DecidableEq W] {action : ClusterAction W} (stepped : r.step action = some r')
    (closed : r'.buffer.closed = true) :
    r'.buffer.agentBuffers.length = r.buffer.agentBuffers.length := by
  cases action with
  | run task choice =>
      simp only [step] at stepped
      split at stepped
      · simp only [Option.bind_eq_bind, Option.bind_eq_some_iff] at stepped
        obtain ⟨effect, ran, eq⟩ := stepped
        obtain rfl := Option.some.inj eq
        exact length_of_exec ran closed
      · cases stepped
  | timerFlush agent =>
      cases steps_of_step stepped
      exact List.length_set
  | add | multiAdd | cancel | watchFires | close => cases steps_of_step stepped <;> rfl

theorem follows_of_step [DecidableEq W] [LawfulSplit W] {action : ClusterAction W}
    (inv : TakenInv r) (shaped : r.buffer.Shaped) (stepped : r.step action = some r') :
    Follows r r' := by
  have same := Follows.refl shaped
  cases steps_of_step stepped with
  | add ctx item => exact follows_spawn shaped rfl id (by simp [Op.fromFlush])
  | multiAddNone ctx => exact same
  | multiAdd ctx items => exact follows_spawn shaped rfl id (by simp [Op.fromFlush])
  | cancel ctx err running => exact ⟨same.old, same.new, same.agents, same.shaped, same.fixed, same.closed⟩
  | watchFires i it ctx err found hasCtx ended =>
      exact follows_spawn shaped rfl id (by simp [Op.fromFlush, Delivery.ofFlush])
  | timerFlush agent a after found started =>
      obtain ⟨moves, idle, -⟩ := AgentBuffer.startFlushLocked_moves started
      refine follows_agents shaped (.set agent a after [] found moves (List.forall_mem_nil _) rfl
        (fun _ none => ?_) fun _ => Or.inr idle) (fun _ => List.length_set) id rfl
        fun t ops place => ⟨ops, place, Continues.refl ops⟩
      rw [AgentBuffer.timerFlush, AgentBuffer.startFlushLocked, if_pos none] at started
      exact (Option.some.inj started).symm
  | closeAgain => exact same
  | close =>
      refine follows_spawn shaped rfl (fun _ => rfl) fun op mem => ?_
      obtain ⟨task, inside, here⟩ := List.mem_flatten.mp mem
      obtain ⟨agent, -, rfl⟩ := List.mem_map.mp inside
      obtain rfl := List.mem_singleton.mp here
      rfl
  | run task choice op rest effect found ran =>
      have before := Pool.flatten_perm found
      have origins := inv.origins.perm before
      refine follows_agents shaped (agentsStep_of_runs (origins.sound op List.mem_cons_self) ran)
        (length_of_step stepped) ran.grows.closed List.length_set fun t ops place => ?_
      have inside := (List.getElem?_eq_some_iff.mp place).1
      by_cases here : t = task
      · subst here
        obtain rfl := Option.some.inj (found.symm.trans place)
        refine ⟨effect.ops ++ rest, List.getElem?_set_self inside, ?_⟩
        refine ⟨fun none => absurd none (List.cons_ne_nil op rest), fun new mem => ?_⟩
        rcases List.mem_append.mp mem with turned | later
        · obtain ⟨flushes, none⟩ := fromFlush_of_runs origins (inv.apart.perm before) ran turned
          exact ⟨fun flush => ⟨op, List.mem_cons_self, flushes flush⟩,
            fun agent index entries same => absurd same (none agent index entries)⟩
        · exact ⟨fun flush => ⟨new, List.mem_cons_of_mem _ later, flush⟩,
            fun _ _ _ _ => List.mem_cons_of_mem _ later⟩
      · refine ⟨ops, ?_, Continues.refl ops⟩
        rw [List.getElem?_set_ne (Ne.symm here)]
        exact place

end ClusterRun

/-- What `Close` leaves behind: every agent's buffer is closed with nothing pending, every flush
has returned and its goroutine has ended, and every item that a buffer took has been reported
once and is completed unless its context has ended. -/
structure ClusterRun.Closed {W : Type} (r : ClusterRun W) : Prop where
  idle : ∀ a ∈ r.buffer.agentBuffers, a.closed = true ∧ a.nextProduceItems = []
  flushes : ∀ (agent index : Nat) a f, r.buffer.agentBuffers[agent]? = some a →
    a.flushes[index]? = some f → r.buffer.FlushReturned agent index
  quiet : ∀ op ∈ r.tasks.flatten, op.fromFlush = false
  items : ∀ i, r.buffer.Taken i → ∃ it, r.buffer.items[i]? = some it ∧ it.reported = 1 ∧
    (it.completions.length = 1 ∨ ∃ n err, it.ctx = some n ∧ r.ctxErr n = some err)

namespace CloseWait

open ClusterBuffer

variable {W : Type} [RoutedBatch W] {w w' : CloseWait} {r r' : ClusterRun W}

/-- What holds between the buffer and its `Close`. Every goroutine that has to do with a flush
is counted by the wait group of an agent's buffer, and that of a drained one counts none. -/
structure Inv (w : CloseWait) (r : ClusterRun W) : Prop where
  taken : r.TakenInv
  shaped : r.buffer.Shaped
  length : w.flushWG.length = r.tasks.length
  counted : ∀ (t : Nat) (owner : Option Nat) (ops : List (Op W)), w.flushWG[t]? = some owner →
    r.tasks[t]? = some ops → ∀ op ∈ ops, op.fromFlush = true →
      ∃ k, owner = some k ∧ k < r.buffer.agentBuffers.length
  flushes : ∀ (t : Nat) (owner : Option Nat) (ops : List (Op W)), w.flushWG[t]? = some owner →
    r.tasks[t]? = some ops → ∀ agent index entries, .flush agent index entries ∈ ops →
      owner = some agent
  closing : w.closing = if r.buffer.closed then some r.buffer.agentBuffers.length else none
  drained : ∀ k ∈ w.drained,
    (∃ a, r.buffer.agentBuffers[k]? = some a ∧ a.closed = true) ∧
      ∀ t : Nat, w.flushWG[t]? = some (some k) → r.tasks[t]? = some []
  returned : w.returned = true → r.buffer.closed = true ∧
    ∀ k < r.buffer.agentBuffers.length, k ∈ w.drained

theorem inv_init (batchMaxBytes : Nat) : Inv {} (ClusterRun.init (W := W) batchMaxBytes) where
  taken := ClusterRun.takenInv_init batchMaxBytes
  shaped := List.forall_mem_nil _
  length := rfl
  counted _ _ _ found := by cases found
  flushes _ _ _ found := by cases found
  closing := rfl
  drained := List.forall_mem_nil _
  returned done := by cases done

omit [RoutedBatch W] in
theorem flushWGOf_eq_some {task : List (Op W)} {agent : Nat} (counted : flushWGOf task = some agent) :
    ∃ index entries rest, task = .flush agent index entries :: rest := by
  unfold flushWGOf at counted
  split at counted
  · rename_i k index entries rest
    obtain rfl := Option.some.inj counted
    exact ⟨index, entries, rest, rfl⟩
  · cases counted

/-- A goroutine of the next state is one that goes on or a new one. -/
theorem Inv.task (inv : Inv w r) (follows : r.Follows r') {t : Nat} {owner : Option Nat}
    {ops : List (Op W)} (group : (w.follow r r').flushWG[t]? = some owner)
    (found : r'.tasks[t]? = some ops) :
    (∃ before, w.flushWG[t]? = some owner ∧ r.tasks[t]? = some before ∧ ClusterRun.Continues before ops) ∨
      owner = flushWGOf ops ∧ ops ∈ r'.tasks.drop r.tasks.length := by
  simp only [follow] at group
  by_cases old : t < r.tasks.length
  · left
    obtain ⟨ops', found', continues⟩ := follows.old t r.tasks[t] (List.getElem?_eq_getElem old)
    obtain rfl := Option.some.inj (found.symm.trans found')
    rw [List.getElem?_append_left (by rw [inv.length]; exact old)] at group
    exact ⟨r.tasks[t], group, List.getElem?_eq_getElem old, continues⟩
  · right
    have here : (r'.tasks.drop r.tasks.length)[t - r.tasks.length]? = some ops := by
      rw [List.getElem?_drop, Nat.add_sub_cancel' (Nat.le_of_not_lt old)]
      exact found
    rw [List.getElem?_append_right (by rw [inv.length]; omega), inv.length, List.getElem?_map, here]
      at group
    exact ⟨(Option.some.inj group).symm, List.mem_of_getElem? here⟩

theorem Inv.length_follow (inv : Inv w r) (follows : r.Follows r') :
    (w.follow r r').flushWG.length = r'.tasks.length := by
  have longer : r.tasks.length ≤ r'.tasks.length := by
    by_contra shorter
    have last : r'.tasks.length < r.tasks.length := by omega
    obtain ⟨ops, found, -⟩ := follows.old _ _ (List.getElem?_eq_getElem last)
    exact absurd (List.getElem?_eq_some_iff.mp found).1 (Nat.lt_irrefl _)
  simp only [CloseWait.follow, List.length_append, List.length_map, List.length_drop, inv.length]
  omega

theorem Inv.follow (inv : Inv w r) (follows : r.Follows r') (taken : r'.TakenInv) :
    Inv (w.follow r r') r' where
  taken := taken
  shaped := follows.shaped
  length := inv.length_follow follows
  counted t owner ops group found op mem flush := by
    have kept (k : Nat) (inside : k < r.buffer.agentBuffers.length) :
        k < r'.buffer.agentBuffers.length := by
      obtain ⟨a', found', -⟩ := follows.agents k _ (List.getElem?_eq_getElem inside)
      exact (List.getElem?_eq_some_iff.mp found').1
    rcases inv.task follows group found with ⟨before, group', found', continues⟩ | ⟨same, new⟩
    · obtain ⟨old, member, was⟩ := (continues.2 op mem).1 flush
      obtain ⟨k, owner, inside⟩ := inv.counted t owner before group' found' old member was
      exact ⟨k, owner, kept k inside⟩
    · rcases follows.new ops new with quiet | ⟨agent, index, entries, a, rfl, place, -⟩
      · rw [quiet op mem] at flush
        cases flush
      · exact ⟨agent, same, kept agent (List.getElem?_eq_some_iff.mp place).1⟩
  flushes t owner ops group found agent index entries mem := by
    rcases inv.task follows group found with ⟨before, group', found', continues⟩ | ⟨same, new⟩
    · exact inv.flushes t owner before group' found' agent index entries
        ((continues.2 _ mem).2 agent index entries rfl)
    · rcases follows.new ops new with quiet | ⟨agent', index', entries', a, rfl, -⟩
      · cases quiet _ mem
      · obtain ⟨rfl, -, -⟩ := Op.flush.inj (List.mem_singleton.mp mem)
        exact same
  closing := by
    simp only [CloseWait.follow, inv.closing]
    cases now : r'.buffer.closed with
    | false =>
        have before : r.buffer.closed = false := by
          by_contra closed
          cases now.symm.trans (follows.closed (by simpa using closed))
        simp [before]
    | true => cases r.buffer.closed <;> simp [follows.fixed now]
  drained k mem := by
    obtain ⟨⟨a, found, closed⟩, finished⟩ := inv.drained k mem
    obtain ⟨a', found', same⟩ := follows.agents k a found
    obtain rfl := same closed
    refine ⟨⟨a', found', closed⟩, fun t group => ?_⟩
    have inside : t < r'.tasks.length := by
      rw [← inv.length_follow follows]
      exact (List.getElem?_eq_some_iff.mp group).1
    have place := List.getElem?_eq_getElem inside
    rcases inv.task follows group place with ⟨before, group', was, continues⟩ | ⟨same, new⟩
    · obtain rfl := Option.some.inj (was.symm.trans (finished t group'))
      rw [place, continues.1 rfl]
    · -- a new goroutine flushes an open buffer
      rcases follows.new _ new with quiet | ⟨agent, index, entries, b, one, there, isOpen⟩
      · obtain ⟨index, entries, rest, starts⟩ := flushWGOf_eq_some same.symm
        rw [starts] at quiet
        cases quiet _ List.mem_cons_self
      · rw [one] at same
        obtain rfl := Option.some.inj same
        obtain rfl := Option.some.inj (found.symm.trans there)
        cases closed.symm.trans isOpen
  returned done := by
    obtain ⟨closed, all⟩ := inv.returned done
    have now := follows.closed closed
    refine ⟨now, fun k below => all k ?_⟩
    rw [← follows.fixed now]
    exact below

omit [RoutedBatch W] in
theorem finished_of_running {agent : Nat} (length : w.flushWG.length = r.tasks.length)
    (none : w.running r agent = 0) {t : Nat} (group : w.flushWG[t]? = some (some agent)) :
    r.tasks[t]? = some [] := by
  have inside : t < r.tasks.length := by
    rw [← length]
    exact (List.getElem?_eq_some_iff.mp group).1
  have place := List.getElem?_eq_getElem inside
  have paired : (some agent, r.tasks[t]) ∈ w.flushWG.zip r.tasks :=
    List.mem_of_getElem? (List.getElem?_zip_eq_some.mpr ⟨group, place⟩)
  have idle := List.countP_eq_zero.mp none _ paired
  have empty : r.tasks[t] = [] := by simpa using idle
  rw [place, empty]

theorem Inv.drain (inv : Inv w r) {agent : Nat} (drains : w.drain r agent = some w') : Inv w' r := by
  simp only [CloseWait.drain, Option.bind_eq_bind, Option.bind_eq_some_iff] at drains
  obtain ⟨a, found, eq⟩ := drains
  split at eq
  · rename_i done
    simp only [Bool.and_eq_true, decide_eq_true_eq] at done
    obtain rfl := Option.some.inj eq
    refine { inv with drained := fun k mem => ?_, returned := fun returned => ?_ }
    · rcases List.mem_append.mp mem with old | new
      · exact inv.drained k old
      · obtain rfl := List.mem_singleton.mp new
        exact ⟨⟨a, found, done.1⟩, fun t group => finished_of_running inv.length done.2 group⟩
    · obtain ⟨closed, all⟩ := inv.returned returned
      exact ⟨closed, fun k below => List.mem_append_left _ (all k below)⟩
  · cases eq

omit [RoutedBatch W] in
theorem returned_drain {agent : Nat} (drains : w.drain r agent = some w') :
    w'.returned = w.returned := by
  simp only [CloseWait.drain, Option.bind_eq_bind, Option.bind_eq_some_iff] at drains
  obtain ⟨a, -, eq⟩ := drains
  split at eq
  · obtain rfl := Option.some.inj eq
    rfl
  · cases eq

theorem returned_finish (finishes : w.finish = some w') : w'.returned = true := by
  simp only [CloseWait.finish, Option.bind_eq_bind, Option.bind_eq_some_iff] at finishes
  obtain ⟨agents, -, eq⟩ := finishes
  split at eq
  · obtain rfl := Option.some.inj eq
    rfl
  · cases eq

theorem Inv.finish (inv : Inv w r) (finishes : w.finish = some w') : Inv w' r := by
  simp only [CloseWait.finish, Option.bind_eq_bind, Option.bind_eq_some_iff] at finishes
  obtain ⟨agents, closing, eq⟩ := finishes
  split at eq
  · rename_i all
    obtain rfl := Option.some.inj eq
    refine { inv with returned := fun _ => ?_ }
    have took := inv.closing
    rw [closing] at took
    split at took
    · rename_i closed
      obtain rfl := Option.some.inj took
      refine ⟨closed, fun k below => ?_⟩
      simpa using List.all_eq_true.mp all k (List.mem_range.mpr below)
    · cases took
  · cases eq

/-- One of the waits has ended. -/
def Passes (w : CloseWait) (r : ClusterRun W) (w' : CloseWait) : Prop :=
  (∃ agent, w.drain r agent = some w') ∨ w.finish = some w'

theorem Inv.pass (inv : Inv w r) (passes : w.Passes r w') : Inv w' r := by
  rcases passes with ⟨agent, drains⟩ | finishes
  · exact inv.drain drains
  · exact inv.finish finishes

omit [RoutedBatch W] in
theorem Passes.returned (passes : w.Passes r w') (done : w.returned = true) : w'.returned = true := by
  rcases passes with ⟨agent, drains⟩ | finishes
  · exact (returned_drain drains).trans done
  · exact returned_finish finishes

theorem Inv.running_eq_zero (inv : Inv w r) {agent : Nat} (drained : agent ∈ w.drained) :
    w.running r agent = 0 := by
  refine List.countP_eq_zero.mpr fun g mem => ?_
  obtain ⟨t, place⟩ := List.mem_iff_getElem?.mp mem
  obtain ⟨group, task⟩ := List.getElem?_zip_eq_some.mp place
  simp only [Bool.and_eq_true, decide_eq_true_eq, Bool.not_eq_true', not_and, Bool.not_eq_false,
    List.isEmpty_iff]
  intro same
  rw [same] at group
  exact Option.some.inj (task.symm.trans ((inv.drained agent drained).2 t group))

/-- Once `Close` has returned every buffer is closed with nothing pending. -/
theorem Inv.idle (inv : Inv w r) (done : w.returned = true) :
    ∀ a ∈ r.buffer.agentBuffers, a.closed = true ∧ a.nextProduceItems = [] := by
  intro a mem
  obtain ⟨k, found⟩ := List.mem_iff_getElem?.mp mem
  have drained := (inv.returned done).2 k (List.getElem?_eq_some_iff.mp found).1
  obtain ⟨⟨b, found', closed⟩, -⟩ := inv.drained k drained
  obtain rfl := Option.some.inj (found.symm.trans found')
  obtain ⟨shape, idle⟩ := inv.shaped a mem
  refine ⟨closed, ?_⟩
  by_contra pending
  exact shape.pending_iff.mp pending (idle closed)

/-- And no goroutine has anything to do with a flush. -/
theorem Inv.quiet (inv : Inv w r) (done : w.returned = true) :
    ∀ op ∈ r.tasks.flatten, op.fromFlush = false := by
  intro op mem
  obtain ⟨ops, inside, here⟩ := List.mem_flatten.mp mem
  obtain ⟨t, found⟩ := List.mem_iff_getElem?.mp inside
  have bound : t < w.flushWG.length := by
    rw [inv.length]
    exact (List.getElem?_eq_some_iff.mp found).1
  have group := List.getElem?_eq_getElem bound
  by_contra flush
  obtain ⟨k, owner, below⟩ := inv.counted t _ ops group found op here (by simpa using flush)
  rw [owner] at group
  have finished := (inv.drained k ((inv.returned done).2 k below)).2 t group
  obtain rfl := Option.some.inj (found.symm.trans finished)
  cases here

/-- From then on the agents' buffers stay as they are. -/
theorem Inv.agents_eq (inv : Inv w r) (done : w.returned = true) (follows : r.Follows r') :
    r'.buffer.agentBuffers = r.buffer.agentBuffers := by
  refine List.ext_getElem? fun k => ?_
  have fixed := follows.fixed (follows.closed (inv.returned done).1)
  cases found : r.buffer.agentBuffers[k]? with
  | none =>
      rw [List.getElem?_eq_none_iff] at found ⊢
      exact fixed ▸ found
  | some a =>
      obtain ⟨a', found', same⟩ := follows.agents k a found
      rw [found', same (inv.idle done a (List.mem_of_getElem? found)).1]

theorem Inv.closed (inv : Inv w r) (done : w.returned = true) : r.Closed where
  idle := inv.idle done
  flushes agent index a f found started := by
    refine (inv.taken.origins.log agent a index f found started).resolve_right fun mem => ?_
    cases inv.quiet done _ mem
  quiet := inv.quiet done
  items i taken :=
    inv.taken.completed (fun a mem => (inv.idle done a mem).2) (inv.quiet done) taken

end CloseWait

/-- The items that a caller adds have records. -/
def ClosingAction.HasRecords {W : Type} [RoutedBatch W] : ClosingAction W → Prop
  | .buffer action => action.HasRecords
  | _ => True

namespace ClosingBuffer

variable {W : Type} [RoutedBatch W] [DecidableEq W] [LawfulSplit W] {s s' : ClosingBuffer W}

theorem inv_step (s : ClosingBuffer W) (action : ClosingAction W) (s' : ClosingBuffer W)
    (inv : s.wait.Inv s.run) (records : action.HasRecords) (stepped : s.step action = some s') :
    s'.wait.Inv s'.run := by
  cases action with
  | buffer action =>
      obtain ⟨run, moved, rfl⟩ := Option.map_eq_some_iff.mp stepped
      exact inv.follow (ClusterRun.follows_of_step inv.taken inv.shaped moved)
        (ClusterRun.takenInv_step s.run action run inv.taken records moved)
  | drained agent =>
      obtain ⟨wait, drains, rfl⟩ := Option.map_eq_some_iff.mp stepped
      exact inv.drain drains
  | closed =>
      obtain ⟨wait, finishes, rfl⟩ := Option.map_eq_some_iff.mp stepped
      exact inv.finish finishes

/-- After `Close` has returned the agents' buffers stay as they are. -/
theorem agents_step (s : ClosingBuffer W) (action : ClosingAction W) (s' : ClosingBuffer W)
    (inv : s.wait.Inv s.run) (done : s.wait.returned = true) (stepped : s.step action = some s') :
    s'.wait.returned = true ∧ s'.run.buffer.agentBuffers = s.run.buffer.agentBuffers := by
  cases action with
  | buffer action =>
      obtain ⟨run, moved, rfl⟩ := Option.map_eq_some_iff.mp stepped
      exact ⟨done, inv.agents_eq done (ClusterRun.follows_of_step inv.taken inv.shaped moved)⟩
  | drained agent =>
      obtain ⟨wait, drains, rfl⟩ := Option.map_eq_some_iff.mp stepped
      exact ⟨(CloseWait.returned_drain drains).trans done, rfl⟩
  | closed =>
      obtain ⟨wait, finishes, rfl⟩ := Option.map_eq_some_iff.mp stepped
      exact ⟨CloseWait.returned_finish finishes, rfl⟩

end ClosingBuffer

/-- Whatever the buffer's goroutines do while it is closed: a flush context is cancelled only
when no goroutine of that agent's flushes is left, and none follows. Once `Close` has returned
the buffer is drained, and no step after that starts a flush. -/
theorem clusterBuffer_close_drains {W : Type} [RoutedBatch W] [DecidableEq W] [LawfulSplit W]
    {batchMaxBytes : Nat} {actions : List (ClosingAction W)} {s : ClosingBuffer W}
    (records : ∀ action ∈ actions, action.HasRecords)
    (runs : Machine.run ClosingBuffer.step (ClosingBuffer.init batchMaxBytes) actions = some s) :
    (∀ agent ∈ s.wait.drained, s.wait.running s.run agent = 0) ∧
    (s.wait.returned = true → s.run.Closed ∧
      ∀ more s', (∀ action ∈ more, ClosingAction.HasRecords action) →
        Machine.run ClosingBuffer.step s more = some s' →
          s'.run.buffer.agentBuffers = s.run.buffer.agentBuffers) := by
  have inv : s.wait.Inv s.run := Machine.invariant_run_of_mem ClosingAction.HasRecords
    (fun s => s.wait.Inv s.run) ClosingBuffer.inv_step (CloseWait.inv_init batchMaxBytes) records runs
  refine ⟨fun agent drained => inv.running_eq_zero drained, fun done => ⟨inv.closed done, ?_⟩⟩
  intro more s' all later
  have kept := Machine.invariant_run_of_mem ClosingAction.HasRecords
    (fun now : ClosingBuffer W => now.wait.Inv now.run ∧ now.wait.returned = true ∧
      now.run.buffer.agentBuffers = s.run.buffer.agentBuffers)
    (fun now action next held records stepped => by
      obtain ⟨inv, done, same⟩ := held
      obtain ⟨still, kept⟩ := ClosingBuffer.agents_step now action next inv done stepped
      exact ⟨ClosingBuffer.inv_step now action next inv records stepped, still, kept.trans same⟩)
    ⟨inv, done, rfl⟩ all later
  exact kept.2.2

/-- Two items of one agent, the second of which is cancelled while its flush runs: `Close` has
to wait for the flush, and both are reported. -/
def closeRun : List (ClosingAction RoutedTopicPartitionRecords) :=
  let item : RoutedTopicPartitionRecords := ⟨"t", 0, [{}], 1, .healthy⟩
  [.buffer (.add none item), .buffer (.run 0 {}), .buffer (.run 0 {}), .buffer (.run 0 {}),
    .buffer (.run 0 {}), .buffer (.add (some 0) item), .buffer (.run 1 {}), .buffer (.run 1 {}),
    .buffer (.run 1 {}), .buffer (.run 1 {}), .buffer .close, .buffer (.run 2 {}),
    .buffer (.cancel 0 GoError.contextCanceled), .buffer (.run 3 {}), .buffer (.run 3 {}),
    .buffer (.run 3 {}), .buffer (.watchFires 1), .buffer (.run 4 {}), .buffer (.run 3 {}),
    .buffer (.run 3 {}), .drained 0, .closed]

theorem clusterBuffer_close_drains_cancelled :
    ∃ s, Machine.run ClosingBuffer.step (ClosingBuffer.init 1000) closeRun = some s ∧
      s.wait.returned = true ∧ s.run.buffer.Taken 0 ∧
      ∃ it, s.run.buffer.items[0]? = some it ∧ it.reported = 1 ∧ it.completions.length = 1 := by
  have state : (Machine.run ClosingBuffer.step (ClosingBuffer.init 1000) closeRun).map (fun s =>
      (s.wait.returned, s.run.buffer.items.map Item.ctx, s.run.buffer.agentBuffers.map fun a =>
        a.flushes.map fun f => f.entries.map Promised.done)) =
      some (true, [none, some 0], [[[.wrapped 0, .wrapped 1]]]) := by decide +kernel
  obtain ⟨s, runs, eq⟩ := Option.map_eq_some_iff.mp state
  obtain ⟨done, ctxs, agents⟩ := Prod.mk.inj eq |>.imp_right Prod.mk.inj
  obtain ⟨a, only, flushes⟩ := List.map_eq_singleton_iff.mp agents
  obtain ⟨f, one, entries⟩ := List.map_eq_singleton_iff.mp flushes
  have entry : Callback.wrapped 0 ∈ f.entries.map Promised.done := by
    rw [entries]
    exact List.mem_cons_self
  obtain ⟨e, inside, reports⟩ := List.mem_map.mp entry
  have taken : s.run.buffer.Taken 0 := by
    refine ⟨a, only ▸ List.mem_singleton_self a, e, ?_, Or.inl reports⟩
    exact List.mem_append_left _ (List.mem_flatMap.mpr ⟨f, one ▸ List.mem_singleton_self f, inside⟩)
  have records : ∀ action ∈ closeRun, action.HasRecords := by
    simp [closeRun, ClosingAction.HasRecords, ClusterAction.HasRecords, RoutedBatch.recordCount]
  have closed := ((clusterBuffer_close_drains records runs).2 done).1
  obtain ⟨it, found, reported, completed⟩ := closed.items 0 taken
  refine ⟨s, runs, done, taken, it, found, reported, completed.resolve_right ?_⟩
  rintro ⟨n, err, ctx, -⟩
  have bare : (s.run.buffer.items.map Item.ctx)[0]? = some none := by rw [ctxs]; rfl
  rw [List.getElem?_map, found, Option.map_some, ctx] at bare
  cases Option.some.inj bare

end Warpstream
