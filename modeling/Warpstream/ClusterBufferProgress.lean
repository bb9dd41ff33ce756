import Warpstream.ClusterBufferFlow
import Warpstream.ClusterBufferTaken

set_option autoImplicit false

/- The cluster buffer goes on. Every operation is priced by the steps it leads to. Each step of
a goroutine, a timer or a context watch uses up some of the price of what is left, and as long
as the buffer has not drained, one of them is possible. -/
namespace Warpstream

open RoutedBatch

/-- An upper bound on the steps that an operation leads to, for a weight of at least one for
every entry. An entry that is pending counts six times, one in a flush five times. -/
def Op.fuel {W : Type} (weight : W → Nat) : Op W → Nat
  | .add _ item => 6 * weight item + 8
  | .multiAdd _ todo wrapped =>
      6 * weigh weight todo + 8 * todo.length + 6 * weigh weight (unpromise wrapped) +
        3 * wrapped.length + 2
  | .addToBuffers _ adding =>
      6 * weigh weight (unpromise adding.items) + 3 * adding.items.length + 1
  | .agentBufferFor _ adding => 6 * weigh weight (unpromise adding.items) + 3
  | .agentAdd _ adding => 6 * weigh weight (unpromise adding.items) + 1
  | .done (.fanIn _) _ => 4
  | .done (.wrapped _) _ => 3
  | .fireOrigDone _ _ => 2
  | .origDone _ _ => 1
  | .flush _ _ entries => 5 * weigh weight (unpromise entries)
  | .closeAgent _ => 1

/-- The watch of the item may still start a goroutine. -/
def Item.watchFuel {W : Type} (it : Item W) : Nat := if it.watch = .armed then 3 else 0

section sums

variable {W : Type} {weight : W → Nat}

theorem fuel_done_le (weight : W → Nat) (cb : Callback) (d : Delivery) :
    (Op.done cb d : Op W).fuel weight ≤ 4 := by
  cases cb <;> simp [Op.fuel]

theorem weigh_fuel_done_le {α : Type} (weight : W → Nat) (xs : List α) (cb : α → Callback)
    (d : Delivery) :
    weigh (Op.fuel weight) (xs.map fun x => (.done (cb x) d : Op W)) ≤ 4 * xs.length := by
  induction xs with
  | nil => exact Nat.le_refl _
  | cons x rest ih =>
      have here := fuel_done_le weight (cb x) d
      simp only [List.map_cons, weigh_cons, List.length_cons] at ih ⊢
      omega

theorem length_le_weigh {items : List W} (heavy : ∀ w ∈ items, 0 < weight w) :
    items.length ≤ weigh weight items := by
  induction items with
  | nil => exact Nat.le_refl _
  | cons w rest ih =>
      have here := heavy w List.mem_cons_self
      have later := ih fun v mem => heavy v (List.mem_cons_of_mem _ mem)
      rw [weigh_cons, List.length_cons]
      omega

theorem length_le_weigh_unpromise {D : Type} {entries : List (Promised W D)}
    (heavy : ∀ p ∈ entries, 0 < weight p.item) :
    entries.length ≤ weigh weight (unpromise entries) := by
  have each : ∀ w ∈ unpromise entries, 0 < weight w := by
    intro w mem
    obtain ⟨p, inside, rfl⟩ := List.mem_map.mp mem
    exact heavy p inside
  simpa [unpromise] using length_le_weigh each

theorem weigh_watchFuel_append (items : List (Item W)) (ctx : Option Nat) (item : W) :
    weigh Item.watchFuel (items ++ [.new ctx item]) ≤ weigh Item.watchFuel items + 3 := by
  have new : (Item.new ctx item).watchFuel ≤ 3 := by
    unfold Item.watchFuel
    split <;> omega
  rw [weigh_append, weigh_cons, weigh_nil]
  omega

theorem weigh_watchFuel_set {items : List (Item W)} {i : Nat} {it after : Item W}
    (found : items[i]? = some it) (fewer : after.watchFuel ≤ it.watchFuel) :
    weigh Item.watchFuel (items.set i after) ≤ weigh Item.watchFuel items := by
  have sum := Pool.sum_map_set Item.watchFuel found after
  simp only [weigh]
  omega

theorem Item.watchFuel_settled (it : Item W) : it.settled.watchFuel ≤ it.watchFuel := by
  by_cases armed : it.watch = .armed <;> simp [watchFuel, settled, armed]

end sums

namespace AgentBuffer

variable {W D : Type} [RoutedBatch W] {Good : W → Prop} {a b : AgentBuffer W D}

/-- A flush takes all that is pending. -/
theorem Bin.flushes_pending (bin : a.Bin Good) (positive : ∀ w, Good w → 0 < recordCount w)
    (pending : a.nextProduceItems ≠ []) (started : a.startFlushLocked = some b) :
    (b.flushes.drop a.flushes.length).flatMap Flush.entries = a.nextProduceItems := by
  unfold AgentBuffer.startFlushLocked at started
  split at started
  · rename_i idle
    obtain ⟨p, mem⟩ := List.exists_mem_of_ne_nil _ pending
    have counted := bin.sums.records
    rw [idle] at counted
    have zero := List.sum_eq_zero_iff.mp counted.symm _
      (List.mem_map_of_mem (f := fun p => recordCount p.item) mem)
    have some := positive p.item (bin.pending p mem).1
    omega
  · obtain ⟨wire, -, rfl⟩ := Option.map_eq_some_iff.mp started
    simp [flushed]

end AgentBuffer

namespace ClusterBuffer

variable {W : Type} [RoutedBatch W] {weight : W → Nat} {Good : W → Prop} {max : Nat}
  {c : ClusterBuffer W}

/-- What `Close` may still start. -/
def closeFuel (c : ClusterBuffer W) : Nat := if c.closed then 0 else c.agentBuffers.length + 1

def fuel (weight : W → Nat) (c : ClusterBuffer W) : Nat :=
  6 * c.pendingWeight weight + weigh Item.watchFuel c.items + c.closeFuel

omit [RoutedBatch W] in
theorem fuel_congr (c' : ClusterBuffer W) (weight : W → Nat)
    (agents : c'.agentBuffers = c.agentBuffers) (closed : c'.closed = c.closed) :
    c'.fuel weight + weigh Item.watchFuel c.items =
      c.fuel weight + weigh Item.watchFuel c'.items := by
  simp only [fuel, pendingWeight, closeFuel, agents, closed]
  omega

theorem fuel_wrap (weight : W → Nat) (c : ClusterBuffer W) (ctx : Option Nat) (item : W) :
    (c.wrap ctx item).1.fuel weight ≤ c.fuel weight + 3 := by
  have same : (c.wrap ctx item).1.fuel weight + weigh Item.watchFuel c.items =
      c.fuel weight + weigh Item.watchFuel (c.items ++ [.new ctx item]) :=
    fuel_congr _ weight rfl rfl
  have watch := weigh_watchFuel_append c.items ctx item
  omega

omit [RoutedBatch W] in
theorem fuel_newAgent (weight : W → Nat) (c : ClusterBuffer W) (a : AgentBuffer W Callback)
    (empty : a.nextProduceItems = []) :
    fuel weight { c with agentBuffers := c.agentBuffers ++ [a] } ≤ c.fuel weight + 1 := by
  simp only [fuel, pendingWeight, closeFuel, List.map_append, List.sum_append, List.map_cons,
    List.map_nil, List.sum_cons, List.sum_nil, empty, unpromise, weigh_nil, List.length_append,
    List.length_cons, List.length_nil]
  split <;> omega

omit [RoutedBatch W] in
theorem fuel_setItem (c' : ClusterBuffer W) (weight : W → Nat) {i : Nat} {it after : Item W}
    (found : c.items[i]? = some it) (items : c'.items = c.items.set i after)
    (agents : c'.agentBuffers = c.agentBuffers) (closed : c'.closed = c.closed)
    (fewer : after.watchFuel ≤ it.watchFuel) : c'.fuel weight ≤ c.fuel weight := by
  have same := fuel_congr c' weight agents closed
  have watch := weigh_watchFuel_set found fewer
  rw [items] at same
  omega

omit [RoutedBatch W] in
theorem weigh_fuel_flushTasks (weight : W → Nat) (agent first : Nat)
    (flushes : List (Flush W Callback)) :
    weigh (Op.fuel weight) (flushTasks agent first flushes).flatten =
      5 * weigh weight (unpromise (flushes.flatMap Flush.entries)) := by
  induction flushes generalizing first with
  | nil => rfl
  | cons f rest ih =>
      have later := ih (first + 1)
      simp only [flushTasks, List.flatten_cons, List.flatMap_cons, unpromise, List.map_append,
        weigh_append, weigh_cons, weigh_nil, Op.fuel] at later ⊢
      omega

/-- A critical section of an agent's buffer: what it flushes counts less than before. -/
theorem fuel_of_moves (weight : W → Nat) {agent : Nat} {a after : AgentBuffer W Callback}
    {added : List (Promised W Callback)} (found : c.agentBuffers[agent]? = some a)
    (moves : a.Moves added after) (ops : List (Op W)) :
    weigh (Op.fuel weight) (c.setAgent agent a after ops).spawned.flatten +
        (c.setAgent agent a after ops).next.fuel weight +
        weigh weight (unpromise ((after.flushes.drop a.flushes.length).flatMap Flush.entries)) =
      6 * weigh weight (unpromise added) + c.fuel weight := by
  obtain ⟨new, flushes, items⟩ := moves.started
  have started : after.flushes.drop a.flushes.length = new := by rw [flushes, List.drop_left]
  have set := Pool.sum_map_set
    (fun a : AgentBuffer W Callback => weigh weight (unpromise a.nextProduceItems)) found after
  have kept := congrArg (fun ps => weigh weight (unpromise ps)) items
  have flushed := weigh_fuel_flushTasks weight agent a.flushes.length new
  simp only [unpromise, List.map_append, weigh_append] at kept set flushed ⊢
  simp only [setAgent, fuel, pendingWeight, closeFuel, List.length_set, started, unpromise]
  omega


/-- What is handed to an agent's buffer and refused leads to fewer steps than it was priced
at. -/
theorem length_refused_le (lossy : Lossy weight) (heavy : ∀ w, Good w → 0 < weight w)
    {a after : AgentBuffer W Callback} {fanIn : Nat → Callback} {adding : Adding W}
    {refused : List Callback} (safe : MergeSafe Good a.batchMaxBytes)
    (good : ∀ p ∈ adding.items, Good p.item ∧ getNodeID p.item = a.nodeID)
    (added : addTo a fanIn adding = some (after, refused)) :
    ∃ chunks, a.Moves chunks after ∧ weigh weight (unpromise chunks) + refused.length ≤
      weigh weight (unpromise adding.items) := by
  rcases addTo_eq a fanIn adding with nothing | ⟨chunks, eq, which⟩
  · obtain ⟨rfl, rfl⟩ := Prod.mk.inj (Option.some.inj (nothing.symm.trans added))
    exact ⟨[], .refl, Nat.zero_le _⟩
  · have lighter : weigh weight (unpromise chunks) ≤ weigh weight (unpromise adding.items) := by
      rcases which with rfl | ⟨rfl, -⟩
      · exact weigh_splitAll lossy _ _ _
      · exact Nat.le_refl _
    have fine : ∀ p ∈ chunks, 0 < weight p.item := by
      rcases which with rfl | ⟨rfl, -⟩
      · exact fun p mem => heavy _ (AgentBuffer.good_splitAll safe good fanIn p mem).1
      · exact fun p mem => heavy _ (good p mem).1
    rcases AgentBuffer.addChunks_cases (eq.symm.trans added) with ⟨-, rfl, rfl⟩ | ⟨-, -, rfl, moves⟩
    · refine ⟨[], .refl, ?_⟩
      have many := length_le_weigh_unpromise fine
      simp only [unpromise, List.map_nil, weigh_nil, List.length_map] at many lighter ⊢
      omega
    · exact ⟨chunks, moves, by simpa using lighter⟩

omit [RoutedBatch W] in
theorem weigh_fuel_bins (weight : W → Nat) {items : List (Promised W Callback)}
    {bins : List (Int × List (Promised W Callback))} {key : Promised W Callback → Int}
    (binned : bins.Perm (FirstSeen.groupBy key items)) :
    weigh (Op.fuel weight) (bins.map fun b => (.agentBufferFor b.1 (.many b.2) : Op W)) ≤
      6 * weigh weight (unpromise items) + 3 * items.length := by
  have carried : weigh weight ((bins.map fun b => (.agentBufferFor b.1 (.many b.2) : Op W)).flatMap
      (Op.carried fun _ => true)) = weigh weight (unpromise items) := weigh_bins weight binned
  have few : bins.length ≤ items.length :=
    binned.length_eq ▸ FirstSeen.length_groupBy_le key items
  have priced : weigh (Op.fuel weight) (bins.map fun b => (.agentBufferFor b.1 (.many b.2) : Op W)) =
      6 * weigh weight ((bins.map fun b => (.agentBufferFor b.1 (.many b.2) : Op W)).flatMap
        (Op.carried fun _ => true)) + 3 * bins.length := by
    clear carried binned few
    induction bins with
    | nil => rfl
    | cons b rest ih =>
        simp only [List.map_cons, weigh_cons, List.flatMap_cons, weigh_append, ih, Op.fuel, Op.carried,
          List.length_cons, Adding.items]
        omega
  omega

/-- Every operation uses up some of its price. -/
theorem fuel_of_runs (lossy : Lossy weight) (heavy : ∀ w, Good w → 0 < weight w)
    (safe : MergeSafe Good max) {ctxErr : Nat → Option GoError} {op : Op W} {ops : List (Op W)}
    {effect : Effect W} (binned : Binned Good max c (op :: ops))
    (origins : Origins c ctxErr (op :: ops)) (ran : Runs c ctxErr op effect) :
    weigh (Op.fuel weight) (effect.ops ++ effect.spawned.flatten) + effect.next.fuel weight <
      op.fuel weight + c.fuel weight := by
  have good := binned.sound op List.mem_cons_self
  have known := origins.sound op List.mem_cons_self
  cases ran with
  | add ctx item =>
      have next := fuel_wrap weight c ctx item
      simp only [List.flatten_nil, List.append_nil, weigh_cons, weigh_nil, Op.fuel, Adding.items,
        unpromise, List.map_cons, List.map_nil, List.length_cons, List.length_nil]
      omega
  | wrapped ctx wrapped =>
      simp only [List.flatten_nil, List.append_nil, weigh_cons, weigh_nil, Op.fuel, Adding.items,
        List.length_nil]
      omega
  | wrap ctx item todo wrapped =>
      have next := fuel_wrap weight c ctx item
      simp only [List.flatten_nil, List.append_nil, weigh_cons, weigh_nil, weigh_append, Op.fuel,
        unpromise, List.map_append, List.map_cons, List.map_nil, List.length_append,
        List.length_cons, List.length_nil]
      omega
  | ctxFailed n adding err ended =>
      have told := weigh_fuel_done_le weight adding.items Promised.done ⟨{ err := some err }, .ctx⟩
      have many := length_le_weigh_unpromise fun p mem => heavy _ (good p mem)
      simp only [ClusterBuffer.ctxFailed, List.flatten_nil, List.append_nil, Op.fuel]
      omega
  | addToBuffer ctx p =>
      simp only [List.flatten_nil, List.append_nil, weigh_cons, weigh_nil, Op.fuel, Adding.items,
        List.length_cons, List.length_nil]
      omega
  | addToBuffers ctx items bins perm =>
      have priced := weigh_fuel_bins weight perm
      simp only [List.flatten_nil, List.append_nil, Op.fuel, Adding.items]
      omega
  | bufferClosed nodeID adding closed =>
      have told := weigh_fuel_done_le weight adding.items Promised.done
        ⟨{ err := some GoError.errBufferClosed }, .closed⟩
      have many := length_le_weigh_unpromise fun p mem => heavy _ (good p mem).1
      simp only [ClusterBuffer.bufferClosed, List.flatten_nil, List.append_nil, Op.fuel]
      omega
  | agentBuffer nodeID adding agent found =>
      simp only [List.flatten_nil, List.append_nil, weigh_cons, weigh_nil, Op.fuel]
      omega
  | newAgentBuffer nodeID adding absent =>
      have next := fuel_newAgent weight c { nodeID := nodeID, batchMaxBytes := c.batchMaxBytes } rfl
      simp only [List.flatten_nil, List.append_nil, weigh_cons, weigh_nil, Op.fuel]
      omega
  | agentAdd agent adding a after refused found added =>
      obtain ⟨b, place, fine⟩ := good
      obtain rfl := Option.some.inj (found.symm.trans place)
      have size := (binned.agents a (List.mem_of_getElem? found)).1
      obtain ⟨chunks, moves, lighter⟩ := length_refused_le lossy heavy (size ▸ safe) fine added
      have told := weigh_fuel_done_le weight refused id
        ⟨{ err := some GoError.errBufferClosed }, .closed⟩
      have moved := fuel_of_moves weight
        (c := { c with fanIns := c.fanIns ++ (splits a adding).map (newFanIn a.batchMaxBytes) })
        found moves (refused.map fun cb =>
          .done cb ⟨{ err := some GoError.errBufferClosed }, .closed⟩)
      have same : fuel weight { c with
          fanIns := c.fanIns ++ (splits a adding).map (newFanIn a.batchMaxBytes) } =
            c.fuel weight := rfl
      have ops (c : ClusterBuffer W) (ops : List (Op W)) :
          (c.setAgent agent a after ops).ops = ops := rfl
      simp only [weigh_append, Op.fuel, ops, id] at told ⊢
      omega
  | doneBare i d it found bare =>
      have next := fuel_setItem (c.settle i it) weight found rfl rfl rfl it.watchFuel_settled
      simp only [List.flatten_nil, List.append_nil, weigh_cons, weigh_nil, Op.fuel]
      omega
  | done i d it found gated first =>
      have next := fuel_setItem (c.settle i it) weight found rfl rfl rfl it.watchFuel_settled
      simp only [List.flatten_nil, List.append_nil, weigh_cons, weigh_nil, Op.fuel]
      omega
  | doneAgain i d it found gated again =>
      have next := fuel_setItem { c with
        items := c.items.set i { it with reported := it.reported + 1 } } weight found rfl rfl rfl
        (Nat.le_refl _)
      simp only [List.flatten_nil, List.append_nil, weigh_cons, weigh_nil, Op.fuel]
      omega
  | fanIn j d f found more =>
      have next : fuel weight { c with fanIns := c.fanIns.set j (f.report d) } = c.fuel weight := rfl
      simp only [List.flatten_nil, List.append_nil, weigh_nil, Op.fuel]
      omega
  | fanInLast j d f result found last chosen =>
      obtain ⟨⟨i, behind⟩, -⟩ := origins.fanIns j f found
      have next : fuel weight { c with fanIns := c.fanIns.set j (f.report d) } = c.fuel weight := rfl
      simp only [List.flatten_nil, List.append_nil, weigh_cons, weigh_nil, FanIn.report_origDone,
        behind, Op.fuel]
      omega
  | fireLost i d it found fired =>
      simp only [List.flatten_nil, List.append_nil, weigh_nil, Op.fuel]
      omega
  | fireWon i d it found first =>
      have next := fuel_setItem { c with
        items := c.items.set i { it with origDoneFired := true } } weight found rfl rfl rfl
        (Nat.le_refl _)
      simp only [List.flatten_nil, List.append_nil, weigh_cons, weigh_nil, Op.fuel]
      omega
  | origDone i d it found =>
      have next := fuel_setItem { c with
        items := c.items.set i { it with completions := it.completions ++ [d] } } weight found rfl
        rfl rfl (Nat.le_refl _)
      simp only [List.flatten_nil, List.append_nil, weigh_nil, Op.fuel]
      omega
  | flush agent index entries res =>
      obtain ⟨a, f, found, started, rfl⟩ := known
      obtain ⟨-, bin⟩ := binned.agents a (List.mem_of_getElem? found)
      have inside := List.mem_of_getElem? started
      have told := weigh_fuel_done_le weight f.entries Promised.done ⟨res, .flush agent index⟩
      have many := length_le_weigh_unpromise fun p mem => heavy _ (bin.entries p
        (List.mem_append_left _ (List.mem_flatMap.mpr ⟨f, inside, mem⟩))).1
      have some := List.length_pos_iff.mpr (bin.sums.merged f inside).1
      have next : fuel weight { c with returned := c.returned ++ [⟨agent, index, res⟩] } =
        c.fuel weight := rfl
      simp only [List.flatten_nil, List.append_nil, Op.fuel]
      omega
  | closeAgent agent a after found closing =>
      have moved := fuel_of_moves weight found (AgentBuffer.close_moves closing) []
      have ops : (c.setAgent agent a after []).ops = [] := rfl
      have none : weigh weight (unpromise ([] : List (Promised W Callback))) = 0 := rfl
      simp only [ops, List.nil_append, Op.fuel]
      omega

omit [RoutedBatch W] in
theorem Ledger.item {ops : List (Op W)} (ledger : Ledger c ops) {i : Nat}
    (due : 0 < owedBy ops (.wrapped i)) : ∃ it, c.items[i]? = some it := by
  have books := ledger.books (.wrapped i)
  rw [expected_wrapped] at books
  cases found : c.items[i]? with
  | some it => exact ⟨it, rfl⟩
  | none =>
      simp only [owed, found, Option.map_none, Option.getD_none] at books
      omega

omit [RoutedBatch W] in
theorem not_closeAgent_flushTasks (k agent first : Nat) (flushes : List (Flush W Callback)) :
    .closeAgent k ∉ (flushTasks agent first flushes).flatten := by
  intro mem
  obtain ⟨index, f, -, same⟩ := mem_flushTasks.mp mem
  cases same

/-- Only `Close` closes the agents' buffers. -/
theorem not_closeAgent_of_runs {ctxErr : Nat → Option GoError} {op : Op W} {effect : Effect W}
    (ran : Runs c ctxErr op effect) (agent : Nat) :
    .closeAgent agent ∉ effect.ops ++ effect.spawned.flatten := by
  cases ran with
  | agentAdd k adding a after refused found added =>
      rw [List.mem_append, not_or]
      exact ⟨by simp [setAgent], not_closeAgent_flushTasks _ _ _ _⟩
  | closeAgent k a after found closing =>
      rw [List.mem_append, not_or]
      exact ⟨by simp [setAgent], not_closeAgent_flushTasks _ _ _ _⟩
  | _ => simp [ctxFailed, bufferClosed]

omit [RoutedBatch W] in
theorem Gates.item_of_fires {ops : List (Op W)} (gates : Gates c ops) {i : Nat} {d : Delivery}
    (mem : .fireOrigDone i d ∈ ops ∨ .origDone i d ∈ ops) : ∃ it, c.items[i]? = some it := by
  cases found : c.items[i]? with
  | some it => exact ⟨it, rfl⟩
  | none =>
      obtain ⟨noFires, noCompleting⟩ := gates.noItem i (List.getElem?_eq_none_iff.mp found)
      rcases mem with fires | completes
      · have none := List.countP_eq_zero.mp noFires _ fires
        simp at none
      · have none := List.countP_eq_zero.mp noCompleting _ completes
        simp at none

omit [RoutedBatch W] in
theorem fanInDone_isSome {j : Nat} {f : FanIn} (found : c.fanIns[j]? = some f) (d : Delivery) :
    (c.fanInDone j d).isSome := by
  have kept : (f.report d).chosen.isSome := by
    simp only [FanIn.report]
    split
    · rfl
    · split
      · rfl
      · rename_i chosen _
        simp [chosen]
  obtain ⟨result, chosen⟩ := Option.isSome_iff_exists.mp kept
  simp only [fanInDone, found, Option.bind_eq_bind, Option.bind_some, chosen]
  split <;> rfl

omit [RoutedBatch W] in
/-- An item stays what it is when another, or something else of it, is changed. -/
theorem completions_set {items : List (Item W)} {i k : Nat} {it before : Item W}
    (place : items[i]? = some it) (found : items[k]? = some before) (after : Item W)
    (item : after.item = before.item) (ctx : after.ctx = before.ctx)
    (kept : after.completions = before.completions) :
    ∃ it', (items.set k after)[i]? = some it' ∧ it'.item = it.item ∧ it'.ctx = it.ctx ∧
      it'.completions = it.completions := by
  by_cases same : k = i
  · subst same
    obtain rfl := Option.some.inj (place.symm.trans found)
    exact ⟨after, List.getElem?_set_self (List.getElem?_eq_some_iff.mp place).1, item, ctx, kept⟩
  · exact ⟨it, by rw [List.getElem?_set_ne same]; exact place, rfl, rfl, rfl⟩

/-- Only `origDone` of an item adds to its completions. -/
theorem Runs.completions_kept {c : ClusterBuffer W} {ctxErr : Nat → Option GoError} {op : Op W}
    {effect : Effect W} (ran : Runs c ctxErr op effect) {i : Nat} {it : Item W}
    (place : c.items[i]? = some it) (other : ∀ d, op ≠ .origDone i d) :
    ∃ it', effect.next.items[i]? = some it' ∧ it'.item = it.item ∧ it'.ctx = it.ctx ∧
      it'.completions = it.completions := by
  have wraps (ctx : Option Nat) (item : W) : ∃ it', (c.wrap ctx item).1.items[i]? = some it' ∧
      it'.item = it.item ∧ it'.ctx = it.ctx ∧ it'.completions = it.completions := by
    refine ⟨it, ?_, rfl, rfl, rfl⟩
    rw [ClusterBuffer.wrap, List.getElem?_append_left (List.getElem?_eq_some_iff.mp place).1]
    exact place
  cases ran with
  | add ctx item | wrap ctx item => exact wraps ctx item
  | doneBare k d before found | done k d before found | doneAgain k d before found
  | fireWon k d before found => exact completions_set place found _ rfl rfl rfl
  | origDone k d before found =>
      have apart : k ≠ i := fun same => other d (same ▸ rfl)
      exact ⟨it, by rw [List.getElem?_set_ne apart]; exact place, rfl, rfl, rfl⟩
  | _ => exact ⟨it, place, rfl, rfl, rfl⟩

end ClusterBuffer

namespace ClusterRun

open ClusterBuffer

variable {W : Type} [RoutedBatch W] {weight : W → Nat} {Good : W → Prop} {max : Nat}
  {r r' : ClusterRun W}

def fuel (weight : W → Nat) (r : ClusterRun W) : Nat :=
  weigh (Op.fuel weight) r.tasks.flatten + r.buffer.fuel weight

/-- The step of a goroutine, of a context watch, or of a linger timer that finds something
pending. -/
def works (r : ClusterRun W) : ClusterAction W → Bool
  | .run _ _ | .watchFires _ => true
  | .timerFlush agent => (r.buffer.agentBuffers[agent]?).any fun a => !a.nextProduceItems.isEmpty
  | _ => false

omit [RoutedBatch W] in
theorem fuel_spawn (weight : W → Nat) (tasks : List (List (Op W))) :
    (r.spawn tasks).fuel weight = r.fuel weight + weigh (Op.fuel weight) tasks.flatten := by
  simp only [fuel, spawn, List.flatten_append, weigh_append]
  omega

omit [RoutedBatch W] in
/-- Adding items costs sixteen steps for each unit of weight at most. -/
theorem fuel_multiAdd_le {items : List W} (some : items ≠ []) (heavy : ∀ w ∈ items, 0 < weight w)
    (ctx : Option Nat) : (Op.multiAdd ctx items []).fuel weight ≤ 16 * weigh weight items := by
  have many := length_le_weigh heavy
  have positive := List.length_pos_iff.mpr some
  simp only [Op.fuel, unpromise, List.map_nil, weigh_nil, List.length_nil]
  omega

/-- Every step that works uses up fuel, and only what is added brings new fuel. -/
theorem fuel_step [DecidableEq W] (lossy : Lossy weight) (heavy : ∀ w, Good w → 0 < weight w)
    (safe : MergeSafe Good max) (binned : r.buffer.Binned Good max r.tasks.flatten)
    (inv : Inv r) {action : ClusterAction W} (adds : action.Adds Good)
    (stepped : r.step action = some r') :
    r'.fuel weight + (if r.works action then 1 else 0) ≤
      r.fuel weight + 16 * weigh weight action.items := by
  cases action with
  | add ctx item =>
      obtain rfl := Option.some.inj stepped
      have positive := heavy item adds
      rw [fuel_spawn]
      simp only [works, ClusterAction.items, List.flatten_cons, List.flatten_nil, List.append_nil,
        weigh_cons, weigh_nil, Op.fuel, Bool.false_eq_true, ↓reduceIte]
      omega
  | multiAdd ctx items =>
      obtain rfl := Option.some.inj stepped
      split
      · exact Nat.le_add_right _ _
      · rename_i some
        have price := fuel_multiAdd_le some (fun w mem => heavy w (adds w mem)) ctx
        rw [fuel_spawn]
        simp only [works, ClusterAction.items, List.flatten_cons, List.flatten_nil, List.append_nil,
          weigh_cons, weigh_nil, Bool.false_eq_true, ↓reduceIte]
        omega
  | cancel ctx err =>
      simp only [step] at stepped
      split at stepped
      · obtain rfl := Option.some.inj stepped
        exact Nat.le_add_right _ _
      · cases stepped
  | watchFires i =>
      simp only [step, Option.bind_eq_bind, Option.bind_eq_some_iff] at stepped
      obtain ⟨it, found, ctx, hasCtx, err, ended, eq⟩ := stepped
      split at eq
      · rename_i armed
        obtain rfl := Option.some.inj eq
        have sum := Pool.sum_map_set Item.watchFuel found { it with watch := .started }
        have same := fuel_congr (c := r.buffer) { r.buffer with
          items := r.buffer.items.set i { it with watch := .started } } weight rfl rfl
        have before : it.watchFuel = 3 := by simp [Item.watchFuel, armed]
        have after : Item.watchFuel { it with watch := .started } = 0 := by simp [Item.watchFuel]
        rw [fuel_spawn]
        simp only [fuel, works, ClusterAction.items, weigh, List.flatten_cons, List.flatten_nil,
          List.append_nil, List.map_cons, List.map_nil, List.sum_cons, List.sum_nil, Op.fuel,
          ↓reduceIte] at same ⊢
        omega
      · cases eq
  | timerFlush agent =>
      simp only [step, Option.bind_eq_bind, Option.bind_eq_some_iff] at stepped
      obtain ⟨a, found, after, started, eq⟩ := stepped
      obtain rfl := Option.some.inj eq
      have moved := fuel_of_moves weight found (AgentBuffer.startFlushLocked_moves started).1 []
      have none : weigh weight (unpromise ([] : List (Promised W Callback))) = 0 := rfl
      have used : (if r.works (.timerFlush agent) then 1 else 0) ≤ weigh weight
          (unpromise ((after.flushes.drop a.flushes.length).flatMap Flush.entries)) := by
        split
        · rename_i busy
          have pending : a.nextProduceItems ≠ [] := by simpa [works, found] using busy
          obtain ⟨-, bin⟩ := binned.agents a (List.mem_of_getElem? found)
          rw [bin.flushes_pending safe.positive pending started]
          have many := length_le_weigh_unpromise fun p mem => heavy _ (bin.pending p mem).1
          have some := List.length_pos_iff.mpr pending
          omega
        · exact Nat.zero_le _
      rw [fuel_spawn]
      simp only [fuel, ClusterAction.items, weigh_nil] at used ⊢
      omega
  | close =>
      simp only [step] at stepped
      split at stepped
      · obtain rfl := Option.some.inj stepped
        exact Nat.le_add_right _ _
      · rename_i isOpen
        obtain rfl := Option.some.inj stepped
        have price (agents : List Nat) : weigh (Op.fuel weight)
            ((agents.map fun agent => [(.closeAgent agent : Op W)]).flatten) = agents.length := by
          induction agents with
          | nil => rfl
          | cons agent rest ih =>
              simp only [List.map_cons, List.flatten_cons, List.cons_append, List.nil_append,
                weigh_cons, ih, Op.fuel, List.length_cons]
              omega
        rw [fuel_spawn, price, List.length_range]
        simp only [fuel, ClusterBuffer.fuel, pendingWeight, closeFuel, works, ClusterAction.items,
          weigh_nil, isOpen, Bool.false_eq_true, ↓reduceIte]
        omega
  | run task choice =>
      cases steps_of_step stepped with
      | run _ _ op rest effect found ran =>
          have perm := Pool.flatten_perm found
          have used := fuel_of_runs lossy heavy safe (binned.perm perm) (inv.origins.perm perm) ran
          have before := weigh_perm (Op.fuel weight) perm
          have after := weigh_perm (Op.fuel weight)
            (Pool.flatten_run_perm found effect.ops effect.spawned)
          simp only [weigh_cons, weigh_append] at used before after
          simp only [fuel, works, ClusterAction.items, weigh_nil, ↓reduceIte]
          omega

/-- The buffers that `Close` closes exist. -/
def Closable (r : ClusterRun W) : Prop :=
  ∀ agent, .closeAgent agent ∈ r.tasks.flatten → ∃ a, r.buffer.agentBuffers[agent]? = some a

omit [RoutedBatch W] in
theorem Closable.mono (closable : r.Closable) (grows : Grows r.buffer r'.buffer)
    (old : ∀ agent, .closeAgent agent ∈ r'.tasks.flatten → .closeAgent agent ∈ r.tasks.flatten) :
    r'.Closable := by
  intro agent mem
  obtain ⟨a, found⟩ := closable agent (old agent mem)
  obtain ⟨a', new, found', -⟩ := grows.agents agent a found
  exact ⟨a', found'⟩

theorem closable_of_advances [DecidableEq W] (closable : r.Closable) (advances : r.Advances r') :
    r'.Closable := by
  cases advances with
  | stays => exact closable
  | adds tasks items =>
      refine closable.mono (.refl _) fun agent mem => ?_
      rw [spawn, List.flatten_append, List.mem_append] at mem
      refine mem.resolve_right fun new => ?_
      obtain ⟨ctx, todo, same, -⟩ := items _ new
      cases same
  | step action records stepped =>
      have steps := steps_of_step stepped
      have grows := steps.grows
      cases steps with
      | multiAddNone | cancel | closeAgain => exact closable.mono grows fun agent mem => mem
      | add ctx item => exact closable.mono grows fun agent mem => by simpa [spawn] using mem
      | multiAdd ctx items => exact closable.mono grows fun agent mem => by simpa [spawn] using mem
      | watchFires => exact closable.mono grows fun agent mem => by simpa [spawn] using mem
      | timerFlush agent a after found started =>
          refine closable.mono grows fun k mem => ?_
          rw [spawn, List.flatten_append, List.mem_append] at mem
          exact mem.resolve_right (not_closeAgent_flushTasks _ _ _ _)
      | close =>
          intro agent mem
          rw [spawn, List.flatten_append, List.mem_append] at mem
          rcases mem with old | new
          · exact closable agent old
          · have inside : agent < r.buffer.agentBuffers.length := by simpa using new
            exact ⟨_, List.getElem?_eq_getElem inside⟩
      | run task choice op rest effect found ran =>
          refine closable.mono grows fun agent mem => ?_
          have after := (Pool.flatten_run_perm found effect.ops effect.spawned).mem_iff.mpr mem
          have others := (List.mem_append.mp after).resolve_left (not_closeAgent_of_runs ran agent)
          exact (Pool.flatten_perm found).mem_iff.mpr (List.mem_cons_of_mem _ others)

/-- A goroutine that has something left to do can do it. -/
theorem exists_run [DecidableEq W] (safe : MergeSafe Good max)
    (binned : r.buffer.Binned Good max r.tasks.flatten) (inv : Inv r) (closable : r.Closable)
    {task : Nat} {op : Op W} {rest : List (Op W)} (found : r.tasks[task]? = some (op :: rest))
    (res : ProduceResult) : ∃ bins, (r.step (.run task ⟨bins, res⟩)).isSome := by
  have mem : op ∈ r.tasks.flatten :=
    List.mem_flatten.mpr ⟨_, List.mem_of_getElem? found, List.mem_cons_self⟩
  have known := inv.origins.sound op mem
  have calm := panics_eq_false binned safe (.run task {})
  suffices enabled : ∃ bins, (r.buffer.exec r.ctxErr ⟨bins, res⟩ op).isSome by
    obtain ⟨bins, isSome⟩ := enabled
    obtain ⟨effect, ran⟩ := Option.isSome_iff_exists.mp isSome
    exact ⟨bins, by simp [step, found, ran]⟩
  cases op with
  | add ctx item => exact ⟨[], rfl⟩
  | multiAdd ctx todo wrapped =>
      cases todo with
      | nil => exact ⟨[], rfl⟩
      | cons item todo => exact ⟨[], rfl⟩
  | addToBuffers ctx adding =>
      cases adding with
      | one p =>
          refine ⟨[], ?_⟩
          simp only [exec, ClusterBuffer.addToBuffers]
          split <;> rfl
      | many items =>
          refine ⟨FirstSeen.groupBy (fun p => getNodeID p.item) items, ?_⟩
          simp only [exec, ClusterBuffer.addToBuffers, List.Perm.refl, ↓reduceIte]
          split <;> rfl
  | agentBufferFor nodeID adding => exact ⟨[], rfl⟩
  | agentAdd agent adding =>
      obtain ⟨a, place, -⟩ := binned.sound _ mem
      simp only [panics, found, place, Option.any_some, Option.isNone_eq_false_iff] at calm
      obtain ⟨⟨after, refused⟩, added⟩ := Option.isSome_iff_exists.mp calm
      exact ⟨[], by simp [exec, ClusterBuffer.agentAdd, place, added]⟩
  | done cb d =>
      have due : 0 < owedBy r.tasks.flatten cb := owedBy_pos mem (List.mem_singleton_self cb)
      cases cb with
      | wrapped i =>
          obtain ⟨it, place⟩ := inv.ledger.item due
          refine ⟨[], ?_⟩
          simp only [exec, wrappedDone, place, Option.bind_eq_bind, Option.bind_some]
          split
          · rfl
          · split <;> rfl
      | fanIn j =>
          obtain ⟨f, place⟩ := inv.ledger.known due j rfl
          exact ⟨[], fanInDone_isSome place d⟩
  | fireOrigDone i d =>
      obtain ⟨it, place⟩ := inv.gates.item_of_fires (Or.inl mem)
      refine ⟨[], ?_⟩
      simp only [exec, place, Option.bind_eq_bind, Option.bind_some]
      split <;> rfl
  | origDone i d =>
      obtain ⟨it, place⟩ := inv.gates.item_of_fires (Or.inr mem)
      exact ⟨[], by simp [exec, place]⟩
  | flush agent index entries => exact ⟨[], rfl⟩
  | closeAgent agent =>
      obtain ⟨a, place⟩ := closable agent mem
      simp only [panics, found, place, Option.any_some, Option.isNone_eq_false_iff] at calm
      obtain ⟨after, closing⟩ := Option.isSome_iff_exists.mp calm
      exact ⟨[], by simp [exec, place, closing]⟩

theorem exists_timerFlush [DecidableEq W] (safe : MergeSafe Good max)
    (binned : r.buffer.Binned Good max r.tasks.flatten) {agent : Nat} {a : AgentBuffer W Callback}
    (found : r.buffer.agentBuffers[agent]? = some a) : (r.step (.timerFlush agent)).isSome := by
  obtain ⟨size, bin⟩ := binned.agents a (List.mem_of_getElem? found)
  obtain ⟨after, started⟩ := bin.startFlushLocked (size ▸ safe)
  simp [step, found, AgentBuffer.timerFlush, started]

omit [RoutedBatch W] in
/-- Until the buffer has drained, a goroutine has an operation left or an entry is pending. -/
theorem drained_or_busy (r : ClusterRun W) : r.Drained ∨
    (∃ (task : Nat) (op : Op W) (rest : List (Op W)), r.tasks[task]? = some (op :: rest)) ∨
    ∃ (agent : Nat) (a : AgentBuffer W Callback), r.buffer.agentBuffers[agent]? = some a ∧
      a.nextProduceItems ≠ [] := by
  by_cases idle : r.tasks.flatten = []
  · by_cases empty : ∀ a ∈ r.buffer.agentBuffers, a.nextProduceItems = []
    · exact Or.inl ⟨idle, empty⟩
    · obtain ⟨a, mem, pending⟩ := by simpa using empty
      obtain ⟨agent, found⟩ := List.mem_iff_getElem?.mp mem
      exact Or.inr (Or.inr ⟨agent, a, found, pending⟩)
  · obtain ⟨op, mem⟩ := List.exists_mem_of_ne_nil _ idle
    obtain ⟨ops, inside, here⟩ := List.mem_flatten.mp mem
    obtain ⟨task, found⟩ := List.mem_iff_getElem?.mp inside
    cases ops with
    | nil => cases here
    | cons first rest => exact Or.inr (Or.inl ⟨task, first, rest, found⟩)

/-- An item of the context is still to be wrapped, or its original callback to be called. -/
def Awaits (own : W → Prop) (ctx : Nat) (r : ClusterRun W) : Prop :=
  (∃ todo wrapped, .multiAdd (some ctx) todo wrapped ∈ r.tasks.flatten ∧ ∃ w ∈ todo, own w) ∨
    ∃ (i : Nat) (it : Item W), r.buffer.items[i]? = some it ∧ it.ctx = some ctx ∧ own it.item ∧
      it.completions = []

variable {own : W → Prop} {ctx : Nat}

omit [RoutedBatch W] in
theorem Awaits.spawn (awaits : r.Awaits own ctx) (tasks : List (List (Op W))) :
    (r.spawn tasks).Awaits own ctx := by
  rcases awaits with ⟨todo, wrapped, mem, owned⟩ | ⟨i, it, found, rest⟩
  · refine Or.inl ⟨todo, wrapped, ?_, owned⟩
    rw [ClusterRun.spawn, List.flatten_append]
    exact List.mem_append_left _ mem
  · exact Or.inr ⟨i, it, found, rest⟩

/-- An operation calls the original callback of the context's item, or it goes on waiting. -/
theorem Awaits.run (awaits : r.Awaits own ctx) {task : Nat} {op : Op W} {rest : List (Op W)}
    {effect : Effect W} (found : r.tasks[task]? = some (op :: rest))
    (ran : ClusterBuffer.Runs r.buffer r.ctxErr op effect) :
    Awaits own ctx { r with
      buffer := effect.next
      tasks := r.tasks.set task (effect.ops ++ rest) ++ effect.spawned } ∨
    ∃ (i : Nat) (it : Item W) (d : Delivery), op = .origDone i d ∧
      r.buffer.items[i]? = some it ∧ it.ctx = some ctx ∧ own it.item := by
  have after := Pool.flatten_run_perm found effect.ops effect.spawned
  rcases awaits with ⟨todo, wrapped, mem, w, inside, owned⟩ | ⟨i, it, place, gate, owned, none⟩
  · left
    rcases List.mem_cons.mp ((Pool.flatten_perm found).mem_iff.mp mem) with rfl | other
    · cases ran with
      | wrapped => cases inside
      | wrap _ item todo =>
          rcases List.mem_cons.mp inside with rfl | later
          · exact Or.inr ⟨r.buffer.items.length, .new (some ctx) w,
              List.getElem?_concat_length, rfl, owned, rfl⟩
          · exact Or.inl ⟨todo, _, after.mem_iff.mp (List.mem_append_left _
              (List.mem_append_left _ (List.mem_singleton_self _))), w, later, owned⟩
    · exact Or.inl ⟨todo, wrapped, after.mem_iff.mp (List.mem_append_right _ other), w, inside,
        owned⟩
  · by_cases fires : ∃ d, op = .origDone i d
    · obtain ⟨d, same⟩ := fires
      exact Or.inr ⟨i, it, d, same, place, gate, owned⟩
    · obtain ⟨it', place', item, gate', kept⟩ := ran.completions_kept place fun d same =>
        fires ⟨d, same⟩
      exact Or.inl (Or.inr ⟨i, it', place', gate'.trans gate, item ▸ owned, kept.trans none⟩)

theorem Awaits.step [DecidableEq W] (awaits : r.Awaits own ctx) {action : ClusterAction W}
    (stepped : r.step action = some r') : r'.Awaits own ctx ∨
      ∃ (task : Nat) (choice : Choice W) (rest : List (Op W)) (i : Nat) (it : Item W)
        (d : Delivery), action = .run task choice ∧
        r.tasks[task]? = some (.origDone i d :: rest) ∧ r.buffer.items[i]? = some it ∧
        it.ctx = some ctx ∧ own it.item := by
  cases steps_of_step stepped with
  | multiAddNone | closeAgain => exact Or.inl awaits
  | add | multiAdd => exact Or.inl (awaits.spawn _)
  | cancel => exact Or.inl awaits
  | close => exact Or.inl (Awaits.spawn awaits _)
  | timerFlush => exact Or.inl (Awaits.spawn awaits _)
  | watchFires i it n err found =>
      refine Or.inl (Awaits.spawn ?_ _)
      rcases awaits with adding | ⟨k, other, place, gate, owned, none⟩
      · exact Or.inl adding
      · obtain ⟨other', place', item, gate', kept⟩ :=
          completions_set place found { it with watch := .started } rfl rfl rfl
        exact Or.inr ⟨k, other', place', gate'.trans gate, item ▸ owned, kept.trans none⟩
  | run task choice op rest effect found ran =>
      rcases awaits.run found ran with waits | ⟨i, it, d, rfl, place, gate, owned⟩
      · exact Or.inl waits
      · exact Or.inr ⟨task, choice, rest, i, it, d, rfl, found, place, gate, owned⟩

end ClusterRun

end Warpstream
