import Warpstream.ClusterBufferOnce

set_option autoImplicit false

/- Items added by one `MultiAdd` for one agent. As long as no flush starts between two of
them, every flush carries all items of such a group or none. -/
namespace Warpstream

open RoutedBatch

namespace AgentBuffer

variable {W D : Type} [RoutedBatch W]

/-- None of the items overflows what is pending then. -/
def fitsAll (a : AgentBuffer W D) : List (Promised W D) → Bool
  | [] => true
  | p :: rest => !decide (a.overflows p.item) && (a.appendNextProduce p).fitsAll rest

/-- Only the first of the items may start a flush. -/
def keepsTogether (a : AgentBuffer W D) : List (Promised W D) → Bool
  | [] => true
  | p :: rest =>
      match a.addToNextProduceLocked p with
      | some b => b.fitsAll rest
      | none => true

/-- The entries of every flush, and those of the next one. -/
def batches (a : AgentBuffer W D) : List (List (Promised W D)) :=
  a.flushes.map Flush.entries ++ [a.nextProduceItems]

theorem foldlM_of_fitsAll {a b : AgentBuffer W D} {items : List (Promised W D)}
    (fits : a.fitsAll items = true) (added : items.foldlM addToNextProduceLocked a = some b) :
    b.flushes = a.flushes ∧ b.nextProduceItems = a.nextProduceItems ++ items := by
  induction items generalizing a with
  | nil =>
      obtain rfl : a = b := Option.some.inj added
      exact ⟨rfl, by simp⟩
  | cons p rest ih =>
      simp only [fitsAll, Bool.and_eq_true, Bool.not_eq_true', decide_eq_false_iff_not] at fits
      simp only [List.foldlM_cons, addToNextProduceLocked, fits.1, ↓reduceIte, Option.bind_eq_bind,
        Option.bind_some] at added
      obtain ⟨flushes, items⟩ := ih fits.2 added
      refine ⟨flushes, ?_⟩
      rw [items]
      simp [appendNextProduce]

/-- A flush makes the pending batch one of the flushes. -/
theorem batches_of_startFlushLocked {a b : AgentBuffer W D} (started : a.startFlushLocked = some b) :
    ∀ batch ∈ b.batches, batch ∈ [] :: a.batches := by
  intro batch mem
  unfold startFlushLocked at started
  split at started
  · obtain rfl : a = b := Option.some.inj started
    exact List.mem_cons_of_mem _ mem
  · obtain ⟨wire, -, rfl⟩ := Option.map_eq_some_iff.mp started
    simp only [batches, flushed, List.map_append, List.map_cons, List.map_nil] at mem
    rcases List.mem_append.mp mem with old | fresh
    · exact List.mem_cons_of_mem _ old
    · rw [List.mem_singleton.mp fresh]
      exact List.mem_cons_self

/-- Items that are kept together extend one batch. -/
theorem batches_of_keepsTogether {a b : AgentBuffer W D} {items : List (Promised W D)}
    (together : a.keepsTogether items = true)
    (added : items.foldlM addToNextProduceLocked a = some b) :
    ∀ batch ∈ b.batches, batch ∈ [] :: a.batches ∨ ∃ old ∈ [] :: a.batches, batch = old ++ items := by
  intro batch mem
  cases items with
  | nil =>
      obtain rfl : a = b := Option.some.inj added
      exact Or.inl (List.mem_cons_of_mem _ mem)
  | cons p rest =>
      simp only [List.foldlM_cons, Option.bind_eq_bind, Option.bind_eq_some_iff] at added
      obtain ⟨mid, first, later⟩ := added
      simp only [keepsTogether, first] at together
      obtain ⟨flushes, pending⟩ := foldlM_of_fitsAll together later
      obtain ⟨base, known, rfl⟩ : ∃ base : AgentBuffer W D,
          (∀ batch ∈ base.batches, batch ∈ [] :: a.batches) ∧ base.appendNextProduce p = mid := by
        unfold addToNextProduceLocked at first
        split at first
        · obtain ⟨idle, started, eq⟩ := Option.map_eq_some_iff.mp first
          exact ⟨idle, batches_of_startFlushLocked started, eq⟩
        · exact ⟨a, fun batch mem => List.mem_cons_of_mem _ mem, Option.some.inj first⟩
      rw [batches, flushes, pending, List.mem_append, List.mem_singleton] at mem
      rcases mem with old | rfl
      · exact Or.inl (known batch (List.mem_append_left _ old))
      · refine Or.inr ⟨base.nextProduceItems, known _ (by simp [batches]), ?_⟩
        simp [appendNextProduce]

/-- Items that are never split are handed on as they are. -/
theorem splitAll_eq_self {max : Nat} (whole : ∀ w : W, splitByMaxBytes w max = [w])
    (fanIn : Nat → D) (items : List (Promised W D)) : splitAll max fanIn items = items := by
  induction items generalizing fanIn with
  | nil => rfl
  | cons p rest ih =>
      simp [splitAll, splitPromisedRoutedBatchByBatchMaxBytes, whole, ih]

/-- `MultiAdd` of items that are kept together. -/
theorem batches_of_multiAdd {a b : AgentBuffer W D} {items : List (Promised W D)}
    {fanIn : Nat → D} {refused : List D} (whole : ∀ w : W, splitByMaxBytes w a.batchMaxBytes = [w])
    (together : a.keepsTogether items = true) (added : a.multiAdd items fanIn = some (b, refused)) :
    ∀ batch ∈ b.batches, batch ∈ [] :: a.batches ∨ ∃ old ∈ [] :: a.batches, batch = old ++ items := by
  intro batch mem
  unfold multiAdd at added
  split at added
  · obtain ⟨rfl, -⟩ := Prod.mk.inj (Option.some.inj added)
    exact Or.inl (List.mem_cons_of_mem _ mem)
  · rw [splitAll_eq_self whole, addChunks] at added
    split at added
    · obtain ⟨rfl, -⟩ := Prod.mk.inj (Option.some.inj added)
      exact Or.inl (List.mem_cons_of_mem _ mem)
    · simp only [Option.bind_eq_bind, Option.bind_eq_some_iff] at added
      obtain ⟨mid, folded, eq⟩ := added
      obtain ⟨rfl, -⟩ := Prod.mk.inj (Option.some.inj eq)
      rw [maybeStartNextFlushTimerLocked_eq] at mem
      exact batches_of_keepsTogether together folded batch mem

theorem batches_of_close {a b : AgentBuffer W D} (closing : a.close = some b) :
    ∀ batch ∈ b.batches, batch ∈ [] :: a.batches := by
  unfold close at closing
  split at closing
  · obtain rfl : a = b := Option.some.inj closing
    exact fun batch mem => List.mem_cons_of_mem _ mem
  · have known := batches_of_startFlushLocked closing
    exact known

end AgentBuffer

/-- The items that one `MultiAdd` gives to one agent. -/
structure Group (W : Type) where
  ctx : Nat
  nodeID : Int
  items : List W

namespace ClusterBuffer

variable {W : Type}

/-- An entry for an item of the group. -/
def InGroup (c : ClusterBuffer W) (g : Group W) (e : Promised W Callback) : Prop :=
  ∃ i it, e.done = .wrapped i ∧ c.items[i]? = some it ∧ it.ctx = some g.ctx ∧ it.item = e.item ∧
    e.item ∈ g.items

/-- The batch has an entry for every item of the group. -/
def Holds (c : ClusterBuffer W) (batch : List (Promised W Callback)) (g : Group W) : Prop :=
  ∀ w ∈ g.items, ∃ e ∈ batch, e.item = w ∧ c.InGroup g e

/-- A batch of whole groups. -/
def WholeGroups (c : ClusterBuffer W) (groups : List (Group W)) (batch : List (Promised W Callback)) :
    Prop :=
  ∀ e ∈ batch, ∃ g ∈ groups, c.InGroup g e ∧ c.Holds batch g

section whole

variable {c c' : ClusterBuffer W} {groups groups' : List (Group W)}
  {batch more : List (Promised W Callback)}

theorem InGroup.mono (grows : Grows c c') {g : Group W} {e : Promised W Callback}
    (inside : c.InGroup g e) : c'.InGroup g e := by
  obtain ⟨i, it, done, found, ctx, item, mem⟩ := inside
  obtain ⟨it', found', sameItem, sameCtx, -⟩ := grows.items i it found
  exact ⟨i, it', done, found', sameCtx.trans ctx, sameItem.trans item, mem⟩

theorem Holds.mono (grows : Grows c c') (sub : ∀ e ∈ batch, e ∈ more) {g : Group W}
    (holds : c.Holds batch g) : c'.Holds more g := by
  intro w mem
  obtain ⟨e, inside, item, own⟩ := holds w mem
  exact ⟨e, sub e inside, item, own.mono grows⟩

theorem WholeGroups.mono (grows : Grows c c') (sub : ∀ g ∈ groups, g ∈ groups')
    (whole : c.WholeGroups groups batch) : c'.WholeGroups groups' batch := by
  intro e mem
  obtain ⟨g, known, own, holds⟩ := whole e mem
  exact ⟨g, sub g known, own.mono grows, holds.mono grows fun e mem => mem⟩

theorem wholeGroups_nil (c : ClusterBuffer W) (groups : List (Group W)) :
    c.WholeGroups groups [] := by
  intro e mem
  cases mem

theorem WholeGroups.append (left : c.WholeGroups groups batch) (right : c.WholeGroups groups more) :
    c.WholeGroups groups (batch ++ more) := by
  intro e mem
  rcases List.mem_append.mp mem with inLeft | inRight
  · obtain ⟨g, known, own, holds⟩ := left e inLeft
    exact ⟨g, known, own, holds.mono (Grows.refl c) fun e mem => List.mem_append_left _ mem⟩
  · obtain ⟨g, known, own, holds⟩ := right e inRight
    exact ⟨g, known, own, holds.mono (Grows.refl c) fun e mem => List.mem_append_right _ mem⟩

end whole

variable [RoutedBatch W]

/-- The wrapped items of a whole group. -/
def AddsGroup (c : ClusterBuffer W) (g : Group W) (adding : Adding W) : Prop :=
  ∃ items, adding = .many items ∧ items.map Promised.item = g.items ∧
    ∀ p ∈ items, c.Wrapped (some g.ctx) p

/-- Operations add whole groups only. -/
def GroupOp (c : ClusterBuffer W) (groups : List (Group W)) : Op W → Prop
  | .add _ _ => False
  | .multiAdd ctx todo wrapped => ∃ g ∈ groups, ctx = some g.ctx ∧
      wrapped.map Promised.item ++ todo = g.items ∧ ∀ p ∈ wrapped, c.Wrapped (some g.ctx) p
  | .addToBuffers _ adding | .agentBufferFor _ adding | .agentAdd _ adding =>
      ∃ g ∈ groups, c.AddsGroup g adding
  | _ => True

structure Grouped (c : ClusterBuffer W) (groups : List (Group W)) (ops : List (Op W)) : Prop where
  sound : ∀ op ∈ ops, c.GroupOp groups op
  batches : ∀ (agent : Nat) (a : AgentBuffer W Callback), c.agentBuffers[agent]? = some a →
    ∀ batch ∈ a.batches, c.WholeGroups groups batch

section grouped

variable {c c' : ClusterBuffer W} {groups : List (Group W)} {ops ops' : List (Op W)}

theorem AddsGroup.mono (grows : Grows c c') {g : Group W} {adding : Adding W}
    (adds : c.AddsGroup g adding) : c'.AddsGroup g adding := by
  obtain ⟨items, rfl, all, wrapped⟩ := adds
  exact ⟨items, rfl, all, fun p mem => (wrapped p mem).mono grows⟩

theorem GroupOp.mono (grows : Grows c c') {groups' : List (Group W)}
    (sub : ∀ g ∈ groups, g ∈ groups') {op : Op W} (ok : c.GroupOp groups op) :
    c'.GroupOp groups' op := by
  cases op with
  | add ctx item => exact ok
  | multiAdd ctx todo wrapped =>
      obtain ⟨g, known, same, all, each⟩ := ok
      exact ⟨g, sub g known, same, all, fun p mem => (each p mem).mono grows⟩
  | addToBuffers ctx adding =>
      obtain ⟨g, known, adds⟩ := ok
      exact ⟨g, sub g known, adds.mono grows⟩
  | agentBufferFor nodeID adding =>
      obtain ⟨g, known, adds⟩ := ok
      exact ⟨g, sub g known, adds.mono grows⟩
  | agentAdd agent adding =>
      obtain ⟨g, known, adds⟩ := ok
      exact ⟨g, sub g known, adds.mono grows⟩
  | done | fireOrigDone | origDone | flush | closeAgent => trivial

theorem Grouped.perm (grouped : Grouped c groups ops) (perm : ops.Perm ops') :
    Grouped c groups ops' :=
  ⟨fun op mem => grouped.sound op (perm.mem_iff.mpr mem), grouped.batches⟩

/-- The groups after a step: only what is new has to be looked at. -/
theorem Grouped.grow {groups' : List (Group W)} (grouped : Grouped c groups ops)
    (grows : Grows c c') (sub : ∀ g ∈ groups, g ∈ groups')
    (newOps : ∀ op ∈ ops', op ∈ ops ∨ c'.GroupOp groups' op)
    (newBatches : ∀ (agent : Nat) (a : AgentBuffer W Callback), c'.agentBuffers[agent]? = some a →
      ∀ batch ∈ a.batches, (∃ old, c.agentBuffers[agent]? = some old ∧ batch ∈ old.batches) ∨
        c'.WholeGroups groups' batch) : Grouped c' groups' ops' where
  sound op mem := by
    rcases newOps op mem with old | ok
    · exact (grouped.sound op old).mono grows sub
    · exact ok
  batches agent a found batch mem := by
    rcases newBatches agent a found batch mem with ⟨old, found', mem'⟩ | whole
    · exact (grouped.batches agent old found' batch mem').mono grows sub
    · exact whole

/-- A critical section of an agent's buffer. -/
theorem Grouped.setAgent {agent : Nat} {a after : AgentBuffer W Callback}
    (grouped : Grouped c groups ops) (grows : Grows c c')
    (found : c.agentBuffers[agent]? = some a)
    (agents : c'.agentBuffers = c.agentBuffers.set agent after)
    (newOps : ∀ op ∈ ops', op ∈ ops ∨ c'.GroupOp groups op)
    (newBatches : ∀ batch ∈ after.batches, batch ∈ [] :: a.batches ∨ c'.WholeGroups groups batch) :
    Grouped c' groups ops' := by
  have inside : agent < c.agentBuffers.length := (List.getElem?_eq_some_iff.mp found).1
  refine grouped.grow grows (fun g mem => mem) newOps fun k b foundAgent batch mem => ?_
  rw [agents] at foundAgent
  by_cases same : k = agent
  · subst same
    rw [List.getElem?_set_self inside] at foundAgent
    obtain rfl := Option.some.inj foundAgent
    rcases newBatches batch mem with known | whole
    · rcases List.mem_cons.mp known with rfl | old
      · exact Or.inr (wholeGroups_nil c' groups)
      · exact Or.inl ⟨a, found, old⟩
    · exact Or.inr whole
  · rw [List.getElem?_set_ne (Ne.symm same)] at foundAgent
    exact Or.inl ⟨b, foundAgent, mem⟩

/-- The entries of a group that is added are a batch of whole groups. -/
theorem AddsGroup.wholeGroups {g : Group W} {items : List (Promised W Callback)} (known : g ∈ groups)
    (adds : c.AddsGroup g (.many items)) : c.WholeGroups groups items := by
  obtain ⟨_, same, all, wrapped⟩ := adds
  obtain rfl := Adding.many.inj same
  have own (e : Promised W Callback) (mem : e ∈ items) : c.InGroup g e := by
    obtain ⟨i, it, done, found, item, ctx, -⟩ := wrapped e mem
    exact ⟨i, it, done, found, ctx, item, all ▸ List.mem_map_of_mem mem⟩
  intro e mem
  refine ⟨g, known, own e mem, fun w inside => ?_⟩
  rw [← all] at inside
  obtain ⟨e', mem', rfl⟩ := List.mem_map.mp inside
  exact ⟨e', mem', rfl, own e' mem'⟩

/-- A group has one node, so `addToBuffers` keeps it in one bin. -/
theorem AddsGroup.bin {g : Group W} {items : List (Promised W Callback)}
    (adds : c.AddsGroup g (.many items)) (nodes : ∀ w ∈ g.items, getNodeID w = g.nodeID)
    {bins : List (Int × List (Promised W Callback))}
    (binned : bins.Perm (FirstSeen.groupBy (fun p => getNodeID p.item) items))
    {bin : Int × List (Promised W Callback)} (mem : bin ∈ bins) : bin.2 = items := by
  obtain ⟨_, same, all, -⟩ := adds
  obtain rfl := Adding.many.inj same
  have groups := FirstSeen.groups_groupBy (fun p : Promised W Callback => getNodeID p.item) items
  have inside : (bin.1, bin.2) ∈ FirstSeen.groupBy (fun p => getNodeID p.item) items :=
    binned.mem_iff.mp mem
  have members := groups.members bin.1 bin.2 inside
  have node (p : Promised W Callback) (mem : p ∈ items) : getNodeID p.item = g.nodeID :=
    nodes p.item (all ▸ List.mem_map_of_mem mem)
  obtain ⟨p, here⟩ := List.exists_mem_of_ne_nil _ (groups.nonempty bin.1 bin.2 inside)
  rw [members, List.mem_filter] at here
  have key : bin.1 = g.nodeID := (of_decide_eq_true here.2).symm.trans (node p here.1)
  rw [members, List.filter_eq_self]
  intro q mem
  rw [node q mem, key]
  exact decide_eq_true rfl

theorem Grouped.newAgentBuffer {nodeID : Int} {adding : Adding W}
    (grouped : Grouped c groups (.agentBufferFor nodeID adding :: ops))
    (grows : Grows c { c with
      agentBuffers := c.agentBuffers ++ [{ nodeID := nodeID, batchMaxBytes := c.batchMaxBytes }] }) :
    Grouped { c with
        agentBuffers := c.agentBuffers ++ [{ nodeID := nodeID, batchMaxBytes := c.batchMaxBytes }] }
      groups (.agentAdd c.agentBuffers.length adding :: ops) := by
  refine grouped.grow grows (fun g mem => mem) (fun op mem => ?_) fun k a found batch mem => ?_
  · rcases List.mem_cons.mp mem with rfl | old
    · obtain ⟨g, known, adds⟩ := grouped.sound _ List.mem_cons_self
      exact Or.inr ⟨g, known, adds.mono grows⟩
    · exact Or.inl (List.mem_cons_of_mem _ old)
  · simp only [List.getElem?_append] at found
    split at found
    · exact Or.inl ⟨a, found, mem⟩
    · obtain rfl := List.mem_singleton.mp (List.mem_of_getElem? found)
      rw [List.mem_singleton.mp mem]
      exact Or.inr (wholeGroups_nil _ groups)

/-- Every operation keeps whole groups together, provided that no flush starts between two
items of a group. -/
theorem Grouped.runs {ctxErr : Nat → Option GoError} {op : Op W} {effect : Effect W}
    (grouped : Grouped c groups (op :: ops))
    (unsplit : ∀ (w : W) (max : Nat), splitByMaxBytes w max = [w])
    (nodes : ∀ g ∈ groups, ∀ w ∈ g.items, getNodeID w = g.nodeID)
    (positive : ∀ g ∈ groups, ∀ w ∈ g.items, 0 < recordCount w)
    (together : ∀ agent adding a, op = .agentAdd agent adding → c.agentBuffers[agent]? = some a →
      a.keepsTogether adding.items = true)
    (ran : Runs c ctxErr op effect) :
    Grouped effect.next groups (effect.ops ++ effect.spawned.flatten ++ ops) := by
  have ok := grouped.sound op List.mem_cons_self
  have grows := ran.grows
  -- the agents' buffers stay as they are
  have turns (next : List (Op W)) (agents : effect.next.agentBuffers = c.agentBuffers)
      (new : ∀ op ∈ next, effect.next.GroupOp groups op) :
      Grouped effect.next groups (next ++ ops) := by
    refine grouped.grow grows (fun g mem => mem) (fun op mem => ?_) fun k a found batch mem => ?_
    · exact (List.mem_append.mp mem).symm.imp (List.mem_cons_of_mem _) (new op)
    · exact Or.inl ⟨a, agents ▸ found, mem⟩
  cases ran with
  | add ctx item => exact ok.elim
  | wrapped ctx wrapped =>
      obtain ⟨g, known, -, all, each⟩ := ok
      refine turns [_] rfl fun op mem => ?_
      obtain rfl := List.mem_singleton.mp mem
      exact ⟨g, known, wrapped, rfl, by simpa using all, each⟩
  | wrap ctx item todo wrapped =>
      obtain ⟨g, known, rfl, all, each⟩ := ok
      refine turns [_] rfl fun op mem => ?_
      obtain rfl := List.mem_singleton.mp mem
      refine ⟨g, known, rfl, by simpa using all, fun p inside => ?_⟩
      rcases List.mem_append.mp inside with old | new
      · exact (each p old).mono grows
      · obtain rfl := List.mem_singleton.mp new
        exact c.wrapped_wrap (some g.ctx) (positive g known item (by rw [← all]; simp))
  | ctxFailed n adding err ended =>
      rw [List.flatten_nil, List.append_nil]
      refine turns _ rfl fun op mem => ?_
      obtain ⟨p, -, rfl⟩ := List.mem_map.mp mem
      trivial
  | addToBuffer ctx p =>
      obtain ⟨g, -, items, same, -⟩ := ok
      cases same
  | addToBuffers ctx items bins binned =>
      obtain ⟨g, known, adds⟩ := ok
      rw [List.flatten_nil, List.append_nil]
      refine turns _ rfl fun op mem => ?_
      obtain ⟨bin, inside, rfl⟩ := List.mem_map.mp mem
      rw [adds.bin (nodes g known) binned inside]
      exact ⟨g, known, adds⟩
  | bufferClosed nodeID adding closed =>
      rw [List.flatten_nil, List.append_nil]
      refine turns _ rfl fun op mem => ?_
      obtain ⟨p, -, rfl⟩ := List.mem_map.mp mem
      trivial
  | agentBuffer nodeID adding agent found =>
      refine turns [_] rfl fun op mem => ?_
      obtain rfl := List.mem_singleton.mp mem
      exact ok
  | newAgentBuffer nodeID adding absent => exact grouped.newAgentBuffer grows
  | agentAdd agent adding a after refused found added =>
      obtain ⟨g, known, adds⟩ := ok
      have keeps := together agent adding a rfl found
      obtain ⟨items, rfl, -⟩ := id adds
      have whole := adds.wholeGroups known
      refine grouped.setAgent grows found rfl (fun op mem => ?_) fun batch mem => ?_
      · rcases List.mem_append.mp mem with new | old
        · rcases List.mem_append.mp new with refusal | flush
          · obtain ⟨cb, -, rfl⟩ := List.mem_map.mp refusal
            exact Or.inr trivial
          · obtain ⟨index, f, -, rfl⟩ := mem_flushTasks.mp flush
            exact Or.inr trivial
        · exact Or.inl (List.mem_cons_of_mem _ old)
      · rcases AgentBuffer.batches_of_multiAdd (fun w => unsplit w _) keeps added batch mem with
          old | ⟨old, place, rfl⟩
        · exact Or.inl old
        · refine Or.inr (WholeGroups.mono grows (fun g mem => mem) (WholeGroups.append ?_ whole))
          rcases List.mem_cons.mp place with rfl | inside
          · exact wholeGroups_nil c groups
          · exact grouped.batches agent a found old inside
  | doneBare | done | doneAgain =>
      refine turns [_] rfl fun op mem => ?_
      obtain rfl := List.mem_singleton.mp mem
      trivial
  | fanIn j d f found more => exact turns [] rfl (List.forall_mem_nil _)
  | fanInLast j d f result found last chosen =>
      refine turns [_] rfl fun op mem => ?_
      obtain rfl := List.mem_singleton.mp mem
      trivial
  | fireLost i d it found fired => exact turns [] rfl (List.forall_mem_nil _)
  | fireWon i d it found first =>
      refine turns [_] rfl fun op mem => ?_
      obtain rfl := List.mem_singleton.mp mem
      trivial
  | origDone i d it found => exact turns [] rfl (List.forall_mem_nil _)
  | flush agent index entries res =>
      rw [List.flatten_nil, List.append_nil]
      refine turns _ rfl fun op mem => ?_
      obtain ⟨e, -, rfl⟩ := List.mem_map.mp mem
      trivial
  | closeAgent agent a after found closing =>
      refine grouped.setAgent grows found rfl (fun op mem => ?_) fun batch mem => ?_
      · rcases List.mem_append.mp mem with flush | old
        · obtain ⟨index, f, -, rfl⟩ := mem_flushTasks.mp flush
          exact Or.inr trivial
        · exact Or.inl (List.mem_cons_of_mem _ old)
      · exact Or.inl (AgentBuffer.batches_of_close closing batch mem)

end grouped

end ClusterBuffer

/-- The actions that are not calls of `Add` or `MultiAdd`. -/
def ClusterAction.isInternal {W : Type} : ClusterAction W → Bool
  | .add _ _ | .multiAdd _ _ => false
  | _ => true

theorem ClusterAction.hasRecords_of_isInternal {W : Type} [RoutedBatch W]
    {action : ClusterAction W} (internal : action.isInternal = true) : action.HasRecords := by
  cases action with
  | add | multiAdd => cases internal
  | cancel | watchFires | timerFlush | close | run => trivial

namespace ClusterRun

open ClusterBuffer

variable {W : Type} [RoutedBatch W]

/-- No flush starts between two items that the action adds together. -/
def keepsTogether (r : ClusterRun W) : ClusterAction W → Bool
  | .run task _ =>
      match r.tasks[task]? with
      | some (.agentAdd agent adding :: _) =>
          match r.buffer.agentBuffers[agent]? with
          | some a => a.keepsTogether adding.items
          | none => true
      | _ => true
  | _ => true

variable {r r' : ClusterRun W} {action : ClusterAction W}

theorem Steps.grows (steps : Steps r action r') : Grows r.buffer r'.buffer := by
  cases steps with
  | add | multiAddNone | multiAdd | cancel | closeAgain => exact Grows.refl _
  | watchFires i it ctx err found hasCtx ended =>
      exact grows_setItem r.buffer found { it with watch := .started } rfl rfl (Nat.le_refl _)
  | timerFlush agent a after found started =>
      have grows := grows_setAgent r.buffer found (AgentBuffer.startFlushLocked_moves started).1 []
      rw [List.append_nil] at grows
      exact grows
  | close => exact grows_append [] (List.append_nil _).symm rfl rfl rfl fun _ => rfl
  | run task choice op rest effect found ran => exact ran.grows

theorem Steps.ctxErr_mono (steps : Steps r action r') {n : Nat} {err : GoError}
    (ended : r.ctxErr n = some err) : r'.ctxErr n = some err := by
  cases steps with
  | cancel ctx err' running =>
      have apart : n ≠ ctx := by
        rintro rfl
        cases running.symm.trans ended
      change (if n = ctx then some err' else r.ctxErr n) = some err
      rw [if_neg apart]
      exact ended
  | add | multiAddNone | multiAdd | watchFires | timerFlush | closeAgain | close | run => exact ended

theorem Steps.grouped {groups : List (Group W)} (steps : Steps r action r')
    (grouped : Grouped r.buffer groups r.tasks.flatten) (internal : action.isInternal = true)
    (together : r.keepsTogether action = true)
    (unsplit : ∀ (w : W) (max : Nat), splitByMaxBytes w max = [w])
    (nodes : ∀ g ∈ groups, ∀ w ∈ g.items, getNodeID w = g.nodeID)
    (positive : ∀ g ∈ groups, ∀ w ∈ g.items, 0 < recordCount w) :
    Grouped r'.buffer groups r'.tasks.flatten := by
  have grows := steps.grows
  cases steps with
  | add | multiAddNone | multiAdd => cases internal
  | cancel | closeAgain => exact grouped
  | watchFires i it ctx err found hasCtx ended =>
      refine grouped.grow grows (fun g mem => mem) (fun op mem => ?_)
        fun k a place batch mem => Or.inl ⟨a, place, mem⟩
      rw [ClusterRun.spawn, List.flatten_append, List.mem_append] at mem
      refine mem.imp_right fun new => ?_
      obtain rfl : op = .fireOrigDone i ⟨{ err := some err }, .ctx⟩ := by simpa using new
      trivial
  | timerFlush agent a after found started =>
      refine grouped.setAgent grows found rfl (fun op mem => ?_) fun batch mem => ?_
      · rw [ClusterRun.spawn, List.flatten_append, List.mem_append] at mem
        refine mem.imp_right fun new => ?_
        obtain ⟨index, f, -, rfl⟩ := mem_flushTasks.mp new
        trivial
      · exact Or.inl (AgentBuffer.batches_of_startFlushLocked started batch mem)
  | close =>
      refine grouped.grow grows (fun g mem => mem) (fun op mem => ?_)
        fun k a place batch mem => Or.inl ⟨a, place, mem⟩
      rw [ClusterRun.spawn, List.flatten_append, List.mem_append] at mem
      refine mem.imp_right fun new => ?_
      obtain ⟨task, inside, here⟩ := List.mem_flatten.mp new
      obtain ⟨agent, -, rfl⟩ := List.mem_map.mp inside
      obtain rfl := List.mem_singleton.mp here
      trivial
  | run task choice op rest effect found ran =>
      have before := grouped.perm (Pool.flatten_perm found)
      refine (before.runs unsplit nodes positive ?_ ran).perm (Pool.flatten_run_perm found _ _)
      rintro agent adding a rfl place
      simpa only [keepsTogether, found, place] using together

end ClusterRun

end Warpstream
