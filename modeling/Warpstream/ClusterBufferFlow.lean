import Warpstream.ClusterBufferBins

set_option autoImplicit false

/- What flows through the cluster buffer. Give every item a weight that splitting it does not
increase: whatever the goroutines do, the weight that they and the pending produces hold and
the weight that flushes take out add up to no more than what was added. -/
namespace Warpstream

open RoutedBatch

section weigh

variable {W : Type} (weight : W → Nat)

def weigh (items : List W) : Nat := (items.map weight).sum

@[simp] theorem weigh_nil : weigh weight ([] : List W) = 0 := rfl

@[simp] theorem weigh_cons (w : W) (items : List W) :
    weigh weight (w :: items) = weight w + weigh weight items := rfl

@[simp] theorem weigh_append (left right : List W) :
    weigh weight (left ++ right) = weigh weight left + weigh weight right := by
  simp [weigh]

theorem weigh_perm {left right : List W} (perm : left.Perm right) :
    weigh weight left = weigh weight right :=
  (perm.map weight).sum_eq

end weigh

/-- The items that an operation has in hand. A flush has its entries as long as it is live. -/
def Op.carried {W : Type} (live : Nat × Nat → Bool) : Op W → List W
  | .add _ item => [item]
  | .multiAdd _ todo wrapped => todo ++ unpromise wrapped
  | .addToBuffers _ adding | .agentBufferFor _ adding | .agentAdd _ adding =>
      unpromise adding.items
  | .flush agent index entries => if live (agent, index) then unpromise entries else []
  | _ => []

/-- The items that the operation takes out of the buffer. -/
def Op.takenOut {W : Type} (live : Nat × Nat → Bool) : Op W → List W
  | .flush agent index entries => Op.carried live (.flush agent index entries)
  | _ => []

def ClusterAction.items {W : Type} : ClusterAction W → List W
  | .add _ item => [item]
  | .multiAdd _ items => items
  | _ => []

theorem ClusterAction.items_of_isInternal {W : Type} {action : ClusterAction W}
    (internal : action.isInternal = true) : action.items = [] := by
  cases action with
  | add | multiAdd => cases internal
  | cancel | watchFires | timerFlush | close | run => rfl

section chunks

variable {W : Type} [RoutedBatch W] {weight : W → Nat}

/-- Splitting an item does not add weight. -/
def Lossy (weight : W → Nat) : Prop := ∀ w max, weigh weight (splitByMaxBytes w max) ≤ weight w

theorem weigh_splitAll {D : Type} (lossy : Lossy weight) (max : Nat) (fanIn : Nat → D)
    (items : List (Promised W D)) :
    weigh weight (unpromise (AgentBuffer.splitAll max fanIn items)) ≤
      weigh weight (unpromise items) := by
  induction items generalizing fanIn with
  | nil => exact Nat.le_refl _
  | cons p rest ih =>
      have here : weigh weight (unpromise
          (splitPromisedRoutedBatchByBatchMaxBytes p max (fanIn 0))) ≤ weight p.item := by
        unfold splitPromisedRoutedBatchByBatchMaxBytes
        simp only
        split
        · simp [unpromise]
        · have same : unpromise ((splitByMaxBytes p.item max).map fun c => ⟨c, fanIn 0⟩) =
              splitByMaxBytes p.item max := by
            simp [unpromise, Function.comp_def]
          rw [same]
          exact lossy p.item max
      have later := ih fun k => fanIn (k + 1)
      rw [AgentBuffer.splitAll, unpromise, List.map_append, weigh_append]
      exact Nat.add_le_add here later

end chunks

namespace ClusterBuffer

variable {W : Type} [RoutedBatch W] {weight : W → Nat} {live : Nat × Nat → Bool}
  {c : ClusterBuffer W}

/-- What `Add` and `MultiAdd` hand to the buffer: nothing, the items as they are if they fit,
or their chunks. -/
theorem addTo_eq (a : AgentBuffer W Callback) (fanIn : Nat → Callback) (adding : Adding W) :
    addTo a fanIn adding = some (a, []) ∨ ∃ chunks, addTo a fanIn adding = a.addChunks chunks ∧
      (chunks = AgentBuffer.splitAll a.batchMaxBytes fanIn adding.items ∨
        chunks = adding.items ∧ ∀ p ∈ chunks, uncompressedWireBytes p.item ≤ a.batchMaxBytes) := by
  have many (items : List (Promised W Callback)) : a.multiAdd items fanIn = some (a, []) ∨
      a.multiAdd items fanIn = a.addChunks (AgentBuffer.splitAll a.batchMaxBytes fanIn items) := by
    unfold AgentBuffer.multiAdd
    split
    · exact Or.inl rfl
    · exact Or.inr rfl
  cases adding with
  | one p =>
      simp only [addTo, AgentBuffer.add]
      split
      · exact Or.inl rfl
      · split
        · exact (many [p]).imp_right fun eq => ⟨_, eq, Or.inl rfl⟩
        · rename_i fits
          refine Or.inr ⟨[p], rfl, Or.inr ⟨rfl, fun q mem => ?_⟩⟩
          rw [List.mem_singleton.mp mem]
          exact Nat.not_lt.mp fits
  | many items => exact (many items).imp_right fun eq => ⟨_, eq, Or.inl rfl⟩

/-- What is added is nothing, the items as they are if they fit, or their chunks. -/
theorem chunks_of_addTo {a after : AgentBuffer W Callback} {fanIn : Nat → Callback}
    {adding : Adding W} {refused : List Callback}
    (added : addTo a fanIn adding = some (after, refused)) :
    ∃ chunks, a.Moves chunks after ∧ (chunks = [] ∨
      chunks = AgentBuffer.splitAll a.batchMaxBytes fanIn adding.items ∨
      chunks = adding.items ∧ ∀ p ∈ chunks, uncompressedWireBytes p.item ≤ a.batchMaxBytes) := by
  rcases addTo_eq a fanIn adding with nothing | ⟨chunks, eq, which⟩
  · obtain ⟨rfl, -⟩ := Prod.mk.inj (Option.some.inj (nothing.symm.trans added))
    exact ⟨[], .refl, Or.inl rfl⟩
  · rcases AgentBuffer.addChunks_cases (eq.symm.trans added) with ⟨-, rfl, -⟩ | ⟨-, -, -, moves⟩
    · exact ⟨[], .refl, Or.inl rfl⟩
    · exact ⟨chunks, moves, Or.inr which⟩

/-- The weight of the pending produces. -/
def pendingWeight (weight : W → Nat) (c : ClusterBuffer W) : Nat :=
  (c.agentBuffers.map fun a => weigh weight (unpromise a.nextProduceItems)).sum

omit [RoutedBatch W] in
theorem weigh_flushTasks (weight : W → Nat) (live : Nat × Nat → Bool) (agent first : Nat)
    (flushes : List (Flush W Callback)) :
    weigh weight ((flushTasks agent first flushes).flatten.flatMap (Op.carried live)) ≤
      weigh weight (unpromise (flushes.flatMap Flush.entries)) := by
  induction flushes generalizing first with
  | nil => exact Nat.le_refl _
  | cons f rest ih =>
      have later := ih (first + 1)
      simp only [flushTasks, List.flatten_cons, List.flatMap_append, List.flatMap_cons,
        List.flatMap_nil, List.append_nil, unpromise, List.map_append, weigh_append] at later ⊢
      refine Nat.add_le_add ?_ later
      simp only [Op.carried]
      split
      · exact Nat.le_refl _
      · exact Nat.zero_le _

/-- What an agent's buffer had and was given is pending or in a flush that was started. -/
theorem weight_of_moves (weight : W → Nat) (live : Nat × Nat → Bool) {agent : Nat}
    {a after : AgentBuffer W Callback} {added : List (Promised W Callback)}
    (found : c.agentBuffers[agent]? = some a) (moves : a.Moves added after) (ops : List (Op W)) :
    weigh weight ((c.setAgent agent a after ops).spawned.flatten.flatMap (Op.carried live)) +
        (c.setAgent agent a after ops).next.pendingWeight weight ≤
      weigh weight (unpromise added) + c.pendingWeight weight := by
  obtain ⟨new, flushes, items⟩ := moves.started
  have started : after.flushes.drop a.flushes.length = new := by rw [flushes, List.drop_left]
  have set := Pool.sum_map_set
    (fun a : AgentBuffer W Callback => weigh weight (unpromise a.nextProduceItems)) found after
  have kept := congrArg (fun ps => weigh weight (unpromise ps)) items
  have flushed := weigh_flushTasks weight live agent a.flushes.length new
  simp only [unpromise, List.map_append, weigh_append] at kept set flushed ⊢
  simp only [setAgent, pendingWeight, started, unpromise]
  omega

omit [RoutedBatch W] in
@[simp] theorem carried_done {α : Type} (xs : List α) (cb : α → Callback) (d : Delivery) :
    (xs.map fun x => (.done (cb x) d : Op W)).flatMap (Op.carried live) = [] := by
  induction xs with
  | nil => rfl
  | cons x rest ih => exact ih

omit [RoutedBatch W] in
theorem weigh_bins (weight : W → Nat) {items : List (Promised W Callback)}
    {bins : List (Int × List (Promised W Callback))} {key : Promised W Callback → Int}
    (binned : bins.Perm (FirstSeen.groupBy key items)) :
    weigh weight ((bins.map fun b => (.agentBufferFor b.1 (.many b.2) : Op W)).flatMap
      (Op.carried live)) = weigh weight (unpromise items) := by
  have all : (bins.flatMap Prod.snd).Perm items :=
    (binned.flatMap_right _).trans (FirstSeen.flatMap_groupBy_perm key items)
  have carried : (bins.map fun b => (.agentBufferFor b.1 (.many b.2) : Op W)).flatMap
      (Op.carried live) = unpromise (bins.flatMap Prod.snd) := by
    rw [List.flatMap_map, unpromise, List.map_flatMap]
    rfl
  rw [carried]
  exact weigh_perm weight (all.map _)

/-- An operation adds no weight, and a flush takes its weight with it. -/
theorem weight_of_runs (lossy : Lossy weight) {ctxErr : Nat → Option GoError} {op : Op W}
    {effect : Effect W} (ran : Runs c ctxErr op effect) :
    weigh weight ((effect.ops ++ effect.spawned.flatten).flatMap (Op.carried live)) +
        effect.next.pendingWeight weight + weigh weight (op.takenOut live) ≤
      weigh weight (op.carried live) + c.pendingWeight weight := by
  cases ran with
  | add ctx item => simp [Op.carried, Op.takenOut, unpromise, Adding.items, wrap, pendingWeight]
  | wrapped ctx wrapped => simp [Op.carried, Op.takenOut, unpromise, Adding.items, pendingWeight]
  | wrap ctx item todo wrapped =>
      simp only [Op.carried, Op.takenOut, unpromise, ClusterBuffer.wrap, pendingWeight,
        List.flatten_nil, List.append_nil, List.flatMap_cons, List.flatMap_nil, List.map_append,
        List.map_cons, List.map_nil, List.cons_append, weigh_append, weigh_cons, weigh_nil]
      omega
  | addToBuffer ctx p => simp [Op.carried, Op.takenOut, unpromise, Adding.items]
  | addToBuffers ctx items bins binned =>
      simp only [List.flatten_nil, List.append_nil, weigh_bins weight binned, Op.takenOut, weigh_nil,
        Nat.add_zero, Op.carried, Adding.items, Nat.le_refl]
  | agentBuffer nodeID adding agent found => simp [Op.carried, Op.takenOut]
  | newAgentBuffer nodeID adding absent => simp [Op.carried, Op.takenOut, pendingWeight, unpromise]
  | agentAdd agent adding a after refused found added =>
      obtain ⟨chunks, moves, which⟩ := chunks_of_addTo added
      have lighter : weigh weight (unpromise chunks) ≤ weigh weight (unpromise adding.items) := by
        rcases which with rfl | rfl | ⟨rfl, -⟩
        · exact Nat.zero_le _
        · exact weigh_splitAll lossy _ _ _
        · exact Nat.le_refl _
      have moved := weight_of_moves weight live
        (c := { c with fanIns := c.fanIns ++ (splits a adding).map (newFanIn a.batchMaxBytes) })
        found moves (refused.map fun cb =>
          .done cb ⟨{ err := some GoError.errBufferClosed }, .closed⟩)
      have told : weigh weight ((refused.map fun cb => (.done cb
          ⟨{ err := some GoError.errBufferClosed }, .closed⟩ : Op W)).flatMap
            (Op.carried live)) = 0 := by simp
      simp only [Op.takenOut, weigh_nil, Nat.add_zero, List.flatMap_append, weigh_append]
      refine Nat.le_trans ?_ (Nat.le_trans moved (Nat.add_le_add_right lighter _))
      exact Nat.add_le_add_right (Nat.le_of_eq (by rw [setAgent, told, Nat.zero_add])) _
  | closeAgent agent a after found closing =>
      have moved := weight_of_moves weight live found (AgentBuffer.close_moves closing) []
      simpa [Op.takenOut, Op.carried, setAgent, unpromise] using moved
  | flush agent index entries res =>
      simp only [List.flatten_nil, List.append_nil, carried_done, weigh_nil, Nat.zero_add,
        Op.takenOut, pendingWeight]
      omega
  | ctxFailed | bufferClosed =>
      simp [ctxFailed, bufferClosed, Op.takenOut]
  | _ => simp [Op.carried, Op.takenOut, pendingWeight, settle]

end ClusterBuffer

namespace ClusterRun

variable {W : Type} [RoutedBatch W] {weight : W → Nat} {live : Nat × Nat → Bool}
  {r r' : ClusterRun W}

/-- The weight of what has been added and not been taken out or turned away. -/
def stock (live : Nat × Nat → Bool) (weight : W → Nat) (r : ClusterRun W) : Nat :=
  weigh weight (r.tasks.flatten.flatMap (Op.carried live)) + r.buffer.pendingWeight weight

/-- The items that an action takes out. -/
def takenOut (live : Nat × Nat → Bool) (r : ClusterRun W) : ClusterAction W → List W
  | .run task _ => ((r.tasks[task]?.bind List.head?).map (Op.takenOut live)).getD []
  | _ => []

omit [RoutedBatch W] in
theorem takenOut_of_flush {task agent index : Nat} {choice : Choice W}
    {entries : List (Promised W Callback)} {rest : List (Op W)}
    (found : r.tasks[task]? = some (.flush agent index entries :: rest))
    (isLive : live (agent, index) = true) :
    r.takenOut live (.run task choice) = unpromise entries := by
  simp [takenOut, found, Op.takenOut, Op.carried, isLive]

omit [RoutedBatch W] in
theorem stock_spawn (live : Nat × Nat → Bool) (weight : W → Nat) (tasks : List (List (Op W))) :
    (r.spawn tasks).stock live weight =
      r.stock live weight + weigh weight (tasks.flatten.flatMap (Op.carried live)) := by
  simp only [stock, spawn, List.flatten_append, List.flatMap_append, weigh_append]
  omega

omit [RoutedBatch W] in
theorem weigh_carried_mono {live' : Nat × Nat → Bool}
    (fewer : ∀ flush, live' flush = true → live flush = true) (weight : W → Nat) (ops : List (Op W)) :
    weigh weight (ops.flatMap (Op.carried live')) ≤ weigh weight (ops.flatMap (Op.carried live)) := by
  induction ops with
  | nil => exact Nat.le_refl _
  | cons op rest ih =>
      rw [List.flatMap_cons, List.flatMap_cons, weigh_append, weigh_append]
      refine Nat.add_le_add ?_ ih
      cases op with
      | flush agent index entries =>
          simp only [Op.carried]
          by_cases left : live' (agent, index) = true
          · rw [if_pos left, if_pos (fewer _ left)]
          · rw [if_neg left]
            exact Nat.zero_le _
      | _ => exact Nat.le_refl _

omit [RoutedBatch W] in
/-- A flush that is live no longer counts less. -/
theorem stock_narrow {live' : Nat × Nat → Bool} (weight : W → Nat)
    (fewer : ∀ flush, live' flush = true → live flush = true) {task agent index : Nat}
    {entries : List (Promised W Callback)} {rest : List (Op W)}
    (found : r.tasks[task]? = some (.flush agent index entries :: rest))
    (was : live (agent, index) = true) (now : live' (agent, index) = false) :
    r.stock live' weight + weigh weight (unpromise entries) ≤ r.stock live weight := by
  have others := weigh_carried_mono fewer weight (r.tasks.set task rest).flatten
  have before := weigh_perm weight ((Pool.flatten_perm found).flatMap_right (Op.carried live))
  have after := weigh_perm weight ((Pool.flatten_perm found).flatMap_right (Op.carried live'))
  simp only [List.flatMap_cons, weigh_append, Op.carried, was, now, Bool.false_eq_true, ↓reduceIte,
    weigh_nil] at before after
  simp only [stock]
  omega

theorem stock_step [DecidableEq W] (lossy : Lossy weight) {action : ClusterAction W}
    (stepped : r.step action = some r') :
    r'.stock live weight + weigh weight (r.takenOut live action) ≤
      r.stock live weight + weigh weight action.items := by
  cases steps_of_step stepped with
  | add ctx item => simp [stock_spawn, takenOut, ClusterAction.items, Op.carried]
  | multiAddNone ctx => simp [takenOut]
  | multiAdd ctx items =>
      simp [stock_spawn, takenOut, ClusterAction.items, Op.carried, unpromise]
  | cancel | closeAgain => simp [stock, takenOut]
  | watchFires i it ctx err found hasCtx ended =>
      rw [stock_spawn]
      simp [takenOut, Op.carried, stock, ClusterBuffer.pendingWeight]
  | timerFlush agent a after found started =>
      obtain ⟨moves, -⟩ := AgentBuffer.startFlushLocked_moves started
      have moved := ClusterBuffer.weight_of_moves weight live found moves []
      rw [stock_spawn]
      simp only [takenOut, ClusterAction.items, weigh_nil, unpromise, List.map_nil] at moved ⊢
      simp only [stock]
      omega
  | close =>
      have none : weigh weight ((((List.range r.buffer.agentBuffers.length).map fun agent =>
          [(.closeAgent agent : Op W)]).flatten).flatMap (Op.carried live)) = 0 := by
        induction List.range r.buffer.agentBuffers.length with
        | nil => rfl
        | cons _ _ ih => exact ih
      rw [stock_spawn, none]
      simp [takenOut, stock, ClusterBuffer.pendingWeight]
  | run task choice op rest effect found ran =>
      have moved : weigh weight ((effect.ops ++ effect.spawned.flatten).flatMap (Op.carried live)) +
          effect.next.pendingWeight weight + weigh weight (op.takenOut live) ≤
        weigh weight (op.carried live) + r.buffer.pendingWeight weight :=
        ClusterBuffer.weight_of_runs lossy ran
      have before := weigh_perm weight
        ((Pool.flatten_perm found).flatMap_right (Op.carried live))
      have after := weigh_perm weight
        ((Pool.flatten_run_perm found effect.ops effect.spawned).flatMap_right (Op.carried live))
      have out : r.takenOut live (.run task choice) = op.takenOut live := by
        simp [takenOut, found]
      rw [out]
      simp only [List.flatMap_cons, List.flatMap_append, weigh_append] at before after moved
      simp only [stock, ClusterAction.items, weigh_nil]
      omega

end ClusterRun

end Warpstream
