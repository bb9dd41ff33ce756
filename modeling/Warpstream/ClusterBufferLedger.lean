import Warpstream.ClusterBuffer

set_option autoImplicit false

/- The books of the cluster buffer: every callback is owed exactly as often as the
variables behind it still expect to be called. -/
namespace Warpstream

open RoutedBatch

/-- The callbacks that an operation will run or hand on. -/
def Op.callbacks {W : Type} : Op W → List Callback
  | .multiAdd _ _ wrapped => wrapped.map Promised.done
  | .addToBuffers _ adding | .agentBufferFor _ adding | .agentAdd _ adding =>
      adding.items.map Promised.done
  | .done cb _ => [cb]
  | .flush _ _ entries => entries.map Promised.done
  | _ => []

/-- How often the operations will call `cb`. -/
def owedBy {W : Type} (ops : List (Op W)) (cb : Callback) : Nat :=
  (ops.flatMap Op.callbacks).count cb

section owedBy

variable {W : Type}

@[simp] theorem owedBy_nil (cb : Callback) : owedBy ([] : List (Op W)) cb = 0 := rfl

theorem owedBy_cons (op : Op W) (ops : List (Op W)) (cb : Callback) :
    owedBy (op :: ops) cb = op.callbacks.count cb + owedBy ops cb := by
  simp [owedBy]

theorem owedBy_done_cons (cb' : Callback) (d : Delivery) (ops : List (Op W)) (cb : Callback) :
    owedBy (.done cb' d :: ops) cb = (if cb = cb' then 1 else 0) + owedBy ops cb := by
  rw [owedBy_cons]
  by_cases same : cb = cb'
  · simp [Op.callbacks, same]
  · simp [Op.callbacks, same, Ne.symm same]

theorem owedBy_append (left right : List (Op W)) (cb : Callback) :
    owedBy (left ++ right) cb = owedBy left cb + owedBy right cb := by
  simp [owedBy]

theorem owedBy_perm {left right : List (Op W)} (perm : left.Perm right) (cb : Callback) :
    owedBy left cb = owedBy right cb :=
  (perm.flatMap_right _).count_eq cb

theorem owedBy_done {α : Type} (xs : List α) (f : α → Callback) (d : Delivery) (cb : Callback) :
    owedBy (xs.map fun x => (.done (f x) d : Op W)) cb = (xs.map f).count cb := by
  induction xs with
  | nil => rfl
  | cons x rest ih =>
      rw [List.map_cons, List.map_cons, owedBy_done_cons, ih, List.count_cons, Nat.add_comm]
      simp only [beq_iff_eq, @eq_comm _ (f x) cb]

theorem owedBy_flushTasks (agent first : Nat) (flushes : List (Flush W Callback)) (cb : Callback) :
    owedBy (ClusterBuffer.flushTasks agent first flushes).flatten cb =
      ((flushes.flatMap Flush.entries).map Promised.done).count cb := by
  induction flushes generalizing first with
  | nil => rfl
  | cons f rest ih =>
      simp only [ClusterBuffer.flushTasks, List.flatten_cons, owedBy_append, ih,
        List.flatMap_cons, List.map_append, List.count_append]
      rw [owedBy_cons, owedBy_nil, Nat.add_zero]
      rfl

end owedBy

/-- The fan-ins that still wait for a chunk and will then call `cb`. -/
def openFanIns (fanIns : List FanIn) (cb : Callback) : Nat :=
  (fanIns.map fun f => if f.origDone = cb ∧ 0 < f.remaining then 1 else 0).sum

/-- How often the fan-ins from index `first` on expect `cb` to be called. -/
def expectedByFanIns (first : Nat) (fanIns : List FanIn) (cb : Callback) : Nat :=
  Pool.tallyFrom (fun j f => if cb = .fanIn j then f.remaining else 0) first fanIns

namespace FanIn

@[simp] theorem report_remaining (f : FanIn) (d : Delivery) :
    (f.report d).remaining = f.remaining - 1 := by
  simp only [report]
  split
  · rfl
  · split <;> rfl

@[simp] theorem report_origDone (f : FanIn) (d : Delivery) : (f.report d).origDone = f.origDone := by
  simp only [report]
  split
  · rfl
  · split <;> rfl

end FanIn

namespace ClusterBuffer

variable {W : Type}

/-- How often the pending entries of the agents' buffers will call `cb`. -/
def held (c : ClusterBuffer W) (cb : Callback) : Nat :=
  (c.agentBuffers.map fun a => (a.nextProduceItems.map Promised.done).count cb).sum

def owed (c : ClusterBuffer W) (ops : List (Op W)) (cb : Callback) : Nat :=
  owedBy ops cb + c.held cb + openFanIns c.fanIns cb

/-- An item expects one call of its wrapped callback, a fan-in one for each chunk left. -/
def expected (c : ClusterBuffer W) (cb : Callback) : Nat :=
  Pool.tallyFrom (fun i it => if cb = .wrapped i then 1 - it.reported else 0) 0 c.items +
    expectedByFanIns 0 c.fanIns cb

structure Ledger (c : ClusterBuffer W) (ops : List (Op W)) : Prop where
  books : ∀ cb, c.owed ops cb = c.expected cb
  once : ∀ it ∈ c.items, it.reported ≤ 1

theorem Ledger.perm {c : ClusterBuffer W} {ops ops' : List (Op W)} (ledger : Ledger c ops)
    (perm : ops.Perm ops') : Ledger c ops' := by
  refine ⟨fun cb => ?_, ledger.once⟩
  rw [owed, ← owedBy_perm perm]
  exact ledger.books cb

theorem expected_wrapped (c : ClusterBuffer W) (i : Nat) :
    c.expected (.wrapped i) = ((c.items[i]?).map fun it => 1 - it.reported).getD 0 := by
  have items := Pool.tallyFrom_index (fun it : Item W => 1 - it.reported) 0 i c.items
  simp only [expected, expectedByFanIns, Callback.wrapped.injEq, reduceCtorEq, ↓reduceIte,
    Pool.tallyFrom_zero, Nat.add_zero]
  simpa [eq_comm] using items

theorem expected_fanIn (c : ClusterBuffer W) (j : Nat) :
    c.expected (.fanIn j) = ((c.fanIns[j]?).map FanIn.remaining).getD 0 := by
  have fanIns := Pool.tallyFrom_index FanIn.remaining 0 j c.fanIns
  simp only [expected, expectedByFanIns, Callback.fanIn.injEq, reduceCtorEq, ↓reduceIte,
    Pool.tallyFrom_zero, Nat.zero_add]
  simpa [eq_comm] using fanIns

theorem expected_setItem (c : ClusterBuffer W) {i : Nat} {it : Item W} (found : c.items[i]? = some it)
    (after : Item W) (cb : Callback) :
    expected { c with items := c.items.set i after } cb +
        (if cb = .wrapped i then 1 - it.reported else 0) =
      c.expected cb + if cb = .wrapped i then 1 - after.reported else 0 := by
  have set := Pool.tallyFrom_set (fun i (it : Item W) => if cb = .wrapped i then 1 - it.reported else 0)
    0 found after
  simp only [Nat.zero_add] at set
  simp only [expected]
  omega

theorem expected_append (c : ClusterBuffer W) (new : Item W) (cb : Callback) :
    expected { c with items := c.items ++ [new] } cb =
      c.expected cb + if cb = .wrapped c.items.length then 1 - new.reported else 0 := by
  simp only [expected, Pool.tallyFrom_append, Pool.tallyFrom, Nat.zero_add, Nat.add_zero]
  omega

/-- Changing variables of an item that the books do not count. -/
theorem Ledger.setItem {c : ClusterBuffer W} {ops : List (Op W)} (ledger : Ledger c ops) {i : Nat}
    {it : Item W} (found : c.items[i]? = some it) (after : Item W)
    (same : after.reported = it.reported) :
    Ledger { c with items := c.items.set i after } ops := by
  refine ⟨fun cb => ?_, ?_⟩
  · have set := expected_setItem c found after cb
    rw [same] at set
    have books := ledger.books cb
    change c.owed ops cb = _
    omega
  · intro other mem
    rcases List.mem_or_eq_of_mem_set mem with old | rfl
    · exact ledger.once other old
    · rw [same]
      exact ledger.once it (List.mem_of_getElem? found)

/-- A call that is owed is the first one. -/
theorem Ledger.unreported {c : ClusterBuffer W} {ops : List (Op W)} (ledger : Ledger c ops) {i : Nat}
    (due : 0 < c.owed ops (.wrapped i)) : ∃ it, c.items[i]? = some it ∧ it.reported = 0 := by
  rw [ledger.books, expected_wrapped] at due
  cases found : c.items[i]? with
  | none => simp [found] at due
  | some it =>
      simp only [found, Option.map_some, Option.getD_some] at due
      exact ⟨it, rfl, by omega⟩

/-- One owed call of a wrapped callback is made. -/
theorem Ledger.report {c : ClusterBuffer W} {ops : List (Op W)} {i : Nat} {it : Item W}
    {d : Delivery} (ledger : Ledger c (.done (.wrapped i) d :: ops)) (found : c.items[i]? = some it)
    (after : Item W) (counted : after.reported = it.reported + 1) :
    it.reported = 0 ∧ Ledger { c with items := c.items.set i after } ops := by
  have due : 0 < c.owed (.done (.wrapped i) d :: ops) (.wrapped i) := by
    simp only [owed, owedBy_done_cons, ↓reduceIte]
    omega
  obtain ⟨it', found', zero⟩ := ledger.unreported due
  obtain rfl : it = it' := Option.some.inj (found.symm.trans found')
  refine ⟨zero, fun cb => ?_, ?_⟩
  · have books := ledger.books cb
    have set := expected_setItem c found after cb
    rw [counted, zero] at set
    change c.owed ops cb = _
    by_cases same : cb = .wrapped i
    · subst same
      simp only [owed, owedBy_done_cons, ↓reduceIte] at books set ⊢
      omega
    · simp only [owed, owedBy_done_cons, same, ↓reduceIte] at books set ⊢
      omega
  · intro other mem
    rcases List.mem_or_eq_of_mem_set mem with old | rfl
    · exact ledger.once other old
    · omega

/-- One owed call of a fan-in is made. The last one makes the callback behind it due. -/
theorem Ledger.fanInReport {c : ClusterBuffer W} {ops : List (Op W)} {j : Nat} {f : FanIn}
    {d : Delivery} (ledger : Ledger c (.done (.fanIn j) d :: ops)) (found : c.fanIns[j]? = some f)
    (next : List (Op W))
    (forwards : ∀ cb, owedBy next cb =
      if (f.report d).remaining = 0 ∧ cb = f.origDone then 1 else 0) :
    Ledger { c with fanIns := c.fanIns.set j (f.report d) } (next ++ ops) := by
  have due := ledger.books (.fanIn j)
  simp only [owed, owedBy_done_cons, ↓reduceIte, expected_fanIn, found, Option.map_some,
    Option.getD_some] at due
  refine ⟨fun cb => ?_, ledger.once⟩
  have books := ledger.books cb
  have expects := Pool.tallyFrom_set (fun j (f : FanIn) => if cb = .fanIn j then f.remaining else 0)
    0 found (f.report d)
  have opened := Pool.sum_map_set
    (fun f : FanIn => if f.origDone = cb ∧ 0 < f.remaining then 1 else 0) found (f.report d)
  simp only [FanIn.report_remaining, FanIn.report_origDone] at forwards opened
  simp only [Nat.zero_add, FanIn.report_remaining] at expects
  simp only [owed, expected, owedBy_append, owedBy_done_cons, forwards cb, openFanIns,
    expectedByFanIns, held] at books expects opened ⊢
  have positive : 0 < f.remaining := by omega
  have symm : (cb = f.origDone) = (f.origDone = cb) := propext eq_comm
  by_cases last : f.remaining = 1
  · simp only [last, symm, Nat.sub_self, Nat.lt_irrefl, and_false, and_true, true_and, ↓reduceIte,
      Nat.zero_lt_one, ite_self] at books expects opened ⊢
    omega
  · have more : ¬ f.remaining - 1 = 0 := by omega
    have left : 0 < f.remaining - 1 := by omega
    simp only [more, left, positive, and_true, false_and, ↓reduceIte] at books expects opened ⊢
    by_cases here : cb = .fanIn j
    · simp only [here, ↓reduceIte] at books expects opened ⊢
      omega
    · simp only [here, ↓reduceIte] at books expects ⊢
      omega

section agent

variable [RoutedBatch W]

/-- The chunks of an item and its fan-in owe what the item owed, and what the new fan-in
expects. -/
theorem split_owed (max first : Nat) (p : Promised W Callback) (cb : Callback) :
    ((splitPromisedRoutedBatchByBatchMaxBytes p max (.fanIn first)).map Promised.done).count cb +
        openFanIns [newFanIn max p] cb =
      [p.done].count cb + expectedByFanIns first [newFanIn max p] cb := by
  unfold splitPromisedRoutedBatchByBatchMaxBytes newFanIn openFanIns expectedByFanIns
  simp only [List.map_cons, List.map_nil, List.sum_cons, List.sum_nil, Pool.tallyFrom, Nat.add_zero]
  split
  · simp
  · rename_i several
    have positive : 0 < (splitByMaxBytes p.item max).length := by omega
    have shared : ((splitByMaxBytes p.item max).map fun c =>
        (⟨c, .fanIn first⟩ : Promised W Callback)).map Promised.done = List.replicate (splitByMaxBytes p.item max).length (.fanIn first) := by
      simp [List.map_map, Function.comp_def]
    rw [shared, List.count_replicate, List.count_singleton]
    simp only [positive, and_true, beq_iff_eq, @eq_comm _ cb]
    omega

theorem splitAll_owed (max first : Nat) (items : List (Promised W Callback)) (cb : Callback) :
    ((AgentBuffer.splitAll max (fun k => .fanIn (first + k)) items).map Promised.done).count cb +
        openFanIns (items.map (newFanIn max)) cb =
      (items.map Promised.done).count cb + expectedByFanIns first (items.map (newFanIn max)) cb := by
  induction items generalizing first with
  | nil => rfl
  | cons p rest ih =>
      have here := split_owed max first p cb
      have later := ih (first + 1)
      have shift : (fun k => Callback.fanIn (first + 1 + k)) = fun k => .fanIn (first + (k + 1)) := by
        funext k
        rw [Nat.add_assoc, Nat.add_comm 1]
      rw [shift] at later
      simp only [AgentBuffer.splitAll, Nat.add_zero, List.map_append, List.count_append,
        List.map_cons, List.count_cons, openFanIns, expectedByFanIns, Pool.tallyFrom, List.sum_cons,
        List.map_nil, List.sum_nil, List.count_nil] at here later ⊢
      omega

theorem addTo_moves {a after : AgentBuffer W Callback} {fanIn : Nat → Callback} {adding : Adding W}
    {refused : List Callback} (added : addTo a fanIn adding = some (after, refused)) :
    ∃ chunks, a.Moves chunks after := by
  have taken {chunks : List (Promised W Callback)}
      (added : a.addChunks chunks = some (after, refused)) : ∃ chunks, a.Moves chunks after := by
    rcases AgentBuffer.addChunks_cases added with ⟨-, rfl, -⟩ | ⟨-, -, -, moves⟩
    · exact ⟨[], .refl⟩
    · exact ⟨chunks, moves⟩
  have many {items : List (Promised W Callback)}
      (added : a.multiAdd items fanIn = some (after, refused)) : ∃ chunks, a.Moves chunks after := by
    unfold AgentBuffer.multiAdd at added
    split at added
    · obtain ⟨rfl, -⟩ := Prod.mk.inj (Option.some.inj added)
      exact ⟨[], .refl⟩
    · exact taken added
  cases adding with
  | one p =>
      simp only [addTo, AgentBuffer.add] at added
      split at added
      · obtain ⟨rfl, -⟩ := Prod.mk.inj (Option.some.inj added)
        exact ⟨[], .refl⟩
      · split at added
        · exact many added
        · exact taken added
  | many items => exact many added

/-- A chunk is an item as it was given, or a part of one that reports to the item's fan-in. -/
theorem mem_splitAll {max first : Nat} {items : List (Promised W Callback)}
    {chunk : Promised W Callback}
    (mem : chunk ∈ AgentBuffer.splitAll max (fun k => .fanIn (first + k)) items) :
    ∃ p ∈ items, chunk = p ∨ ∃ k, (items.map (newFanIn max))[k]? = some (newFanIn max p) ∧
      chunk.done = .fanIn (first + k) ∧ chunk.item ∈ splitByMaxBytes p.item max := by
  induction items generalizing first with
  | nil => cases mem
  | cons p rest ih =>
      have shift : (fun k => Callback.fanIn (first + (k + 1))) = fun k => .fanIn (first + 1 + k) := by
        funext k
        rw [Nat.add_assoc, Nat.add_comm 1]
      rw [AgentBuffer.splitAll, shift] at mem
      rcases List.mem_append.mp mem with here | later
      · refine ⟨p, List.mem_cons_self, ?_⟩
        unfold splitPromisedRoutedBatchByBatchMaxBytes at here
        simp only at here
        split at here
        · exact Or.inl (List.mem_singleton.mp here)
        · obtain ⟨part, inside, rfl⟩ := List.mem_map.mp here
          exact Or.inr ⟨0, rfl, rfl, inside⟩
      · obtain ⟨q, inside, whole | ⟨k, found, done, part⟩⟩ := ih later
        · exact ⟨q, List.mem_cons_of_mem _ inside, Or.inl whole⟩
        · refine ⟨q, List.mem_cons_of_mem _ inside, Or.inr ⟨k + 1, found, ?_, part⟩⟩
          rw [done, Nat.add_assoc, Nat.add_comm 1]

/-- Adding items with records hands their chunks to the buffer, or back if it is closed. -/
theorem addTo_cases {a after : AgentBuffer W Callback} {adding : Adding W} {refused : List Callback}
    {first : Nat} (positive : ∀ p ∈ adding.items, 0 < recordCount p.item)
    (added : addTo a (fun k => .fanIn (first + k)) adding = some (after, refused)) :
    ∃ chunks, (a.Moves chunks after ∧ refused = [] ∧ after.closed = a.closed ∨
        a.closed = true ∧ after = a ∧ refused = chunks.map Promised.done) ∧
      (∀ cb, (chunks.map Promised.done).count cb +
          openFanIns ((splits a adding).map (newFanIn a.batchMaxBytes)) cb =
        (adding.items.map Promised.done).count cb +
          expectedByFanIns first ((splits a adding).map (newFanIn a.batchMaxBytes)) cb) ∧
      ∀ chunk ∈ chunks, ∃ p ∈ adding.items, chunk = p ∨
        ∃ k, ((splits a adding).map (newFanIn a.batchMaxBytes))[k]? =
            some (newFanIn a.batchMaxBytes p) ∧
          chunk.done = .fanIn (first + k) ∧ chunk.item ∈ splitByMaxBytes p.item a.batchMaxBytes := by
  have taken {chunks : List (Promised W Callback)}
      (added : a.addChunks chunks = some (after, refused)) :
      a.Moves chunks after ∧ refused = [] ∧ after.closed = a.closed ∨
        a.closed = true ∧ after = a ∧ refused = chunks.map Promised.done := by
    rcases AgentBuffer.addChunks_cases added with ⟨closed, rfl, rfl⟩ | ⟨was, isOpen, rfl, moves⟩
    · exact Or.inr ⟨closed, rfl, rfl⟩
    · exact Or.inl ⟨moves, rfl, isOpen.trans was.symm⟩
  cases adding with
  | one p =>
      have some : ¬ recordCount p.item = 0 := by
        have := positive p (by simp [Adding.items])
        omega
      simp only [addTo, AgentBuffer.add, some, ↓reduceIte] at added
      split at added
      · rename_i large
        have total : ¬ ([p].map fun p => recordCount p.item).sum = 0 := by simpa using some
        have small : ¬ (recordCount p.item = 0 ∨ uncompressedWireBytes p.item ≤ a.batchMaxBytes) := by
          omega
        simp only [AgentBuffer.multiAdd, total, ↓reduceIte] at added
        simp only [splits, small, ↓reduceIte]
        exact ⟨_, taken added, splitAll_owed _ first [p], fun chunk mem => mem_splitAll mem⟩
      · rename_i fits
        simp only [splits, Nat.not_lt.mp fits, or_true, ↓reduceIte]
        exact ⟨_, taken added, fun cb => rfl, fun chunk mem => ⟨chunk, mem, Or.inl rfl⟩⟩
  | many items =>
      simp only [addTo, AgentBuffer.multiAdd] at added
      split at added
      · rename_i none
        obtain ⟨rfl, rfl⟩ := Prod.mk.inj (Option.some.inj added)
        have empty : items = [] := by
          cases items with
          | nil => rfl
          | cons p rest =>
              have := positive p (by simp [Adding.items])
              simp only [List.map_cons, List.sum_cons] at none
              omega
        subst empty
        exact ⟨[], Or.inl ⟨.refl, rfl, rfl⟩, fun cb => rfl, List.forall_mem_nil _⟩
      · rename_i some
        simp only [splits, some, ↓reduceIte]
        exact ⟨_, taken added, splitAll_owed _ first items, fun chunk mem => mem_splitAll mem⟩

/-- What an agent's buffer held and was given is held or in a flush that was started. -/
theorem held_setAgent {c : ClusterBuffer W} {agent : Nat} {a after : AgentBuffer W Callback}
    {added : List (Promised W Callback)} (found : c.agentBuffers[agent]? = some a)
    (moves : a.Moves added after) (cb : Callback) :
    held { c with agentBuffers := c.agentBuffers.set agent after } cb +
        owedBy (flushTasks agent a.flushes.length
          (after.flushes.drop a.flushes.length)).flatten cb =
      c.held cb + (added.map Promised.done).count cb := by
  obtain ⟨new, flushes, items⟩ := moves.started
  have started : after.flushes.drop a.flushes.length = new := by rw [flushes, List.drop_left]
  have set := Pool.sum_map_set
    (fun a : AgentBuffer W Callback => (a.nextProduceItems.map Promised.done).count cb) found after
  have kept := congrArg (fun ps => (ps.map Promised.done).count cb) items
  simp only [List.map_append, List.count_append] at kept
  rw [started, owedBy_flushTasks]
  simp only [held]
  omega

theorem Ledger.agentAdd {c : ClusterBuffer W} {ops : List (Op W)} {agent : Nat} {adding : Adding W}
    {a after : AgentBuffer W Callback} {refused : List Callback}
    (ledger : Ledger c (.agentAdd agent adding :: ops))
    (positive : ∀ p ∈ adding.items, 0 < recordCount p.item)
    (found : c.agentBuffers[agent]? = some a)
    (added : addTo a (fun k => .fanIn (c.fanIns.length + k)) adding = some (after, refused)) :
    let effect := ClusterBuffer.setAgent
      { c with fanIns := c.fanIns ++ (splits a adding).map (newFanIn a.batchMaxBytes) } agent a
      after (refused.map fun cb => .done cb ⟨{ err := some GoError.errBufferClosed }, .closed⟩)
    Ledger effect.next (effect.ops ++ effect.spawned.flatten ++ ops) := by
  obtain ⟨chunks, taken, balance, -⟩ := addTo_cases positive added
  refine ⟨fun cb => ?_, ledger.once⟩
  have books := ledger.books cb
  have chunk := balance cb
  have opened : openFanIns (c.fanIns ++ (splits a adding).map (newFanIn a.batchMaxBytes)) cb =
      openFanIns c.fanIns cb + openFanIns ((splits a adding).map (newFanIn a.batchMaxBytes)) cb := by
    simp only [openFanIns, List.map_append, List.sum_append]
  have expects : expectedByFanIns 0 (c.fanIns ++ (splits a adding).map (newFanIn a.batchMaxBytes)) cb =
      expectedByFanIns 0 c.fanIns cb +
        expectedByFanIns c.fanIns.length ((splits a adding).map (newFanIn a.batchMaxBytes)) cb := by
    simp only [expectedByFanIns, Pool.tallyFrom_append, Nat.zero_add]
  rw [owed, owedBy_cons] at books
  change owedBy _ cb + held { c with agentBuffers := c.agentBuffers.set agent after } cb +
    openFanIns (c.fanIns ++ _) cb = Pool.tallyFrom _ 0 c.items + expectedByFanIns 0 (c.fanIns ++ _) cb
  simp only [setAgent, owedBy_append, owedBy_done, List.map_id', opened, expects]
  simp only [expected, Op.callbacks] at books
  rcases taken with ⟨moves, rfl, -⟩ | ⟨-, rfl, rfl⟩
  · have kept := held_setAgent found moves cb
    simp only [List.count_nil]
    omega
  · have kept := held_setAgent found .refl cb
    simp only [List.map_nil, List.count_nil] at kept
    omega

omit [RoutedBatch W] in
/-- Passing callbacks on changes no books. -/
theorem Ledger.pass {c c' : ClusterBuffer W} {ops ops' : List (Op W)} (ledger : Ledger c ops)
    (items : c'.items = c.items) (fanIns : c'.fanIns = c.fanIns)
    (passed : ∀ cb, owedBy ops' cb + c'.held cb = owedBy ops cb + c.held cb) : Ledger c' ops' := by
  refine ⟨fun cb => ?_, by rw [items]; exact ledger.once⟩
  have books := ledger.books cb
  simp only [owed, expected] at books ⊢
  rw [items, fanIns, passed cb]
  exact books

/-- A critical section of an agent's buffer that takes no new entries. -/
theorem Ledger.setAgent {c : ClusterBuffer W} {ops ops' : List (Op W)} (ledger : Ledger c ops)
    {agent : Nat} {a after : AgentBuffer W Callback} (found : c.agentBuffers[agent]? = some a)
    (moves : a.Moves [] after) (silent : ∀ cb, owedBy ops' cb = owedBy ops cb) :
    Ledger (c.setAgent agent a after []).next
      ((c.setAgent agent a after []).spawned.flatten ++ ops') := by
  refine ledger.pass rfl rfl fun cb => ?_
  have kept := held_setAgent found moves cb
  simp only [List.map_nil, List.count_nil] at kept
  have due := silent cb
  rw [owedBy_append]
  simp only [ClusterBuffer.setAgent]
  omega

theorem Ledger.wrap {c : ClusterBuffer W} {ops ops' : List (Op W)} (ledger : Ledger c ops)
    (ctx : Option Nat) (item : W)
    (added : ∀ cb, owedBy ops' cb = owedBy ops cb + [.wrapped c.items.length].count cb) :
    Ledger (c.wrap ctx item).1 ops' := by
  refine ⟨fun cb => ?_, ?_⟩
  · have books := ledger.books cb
    have more := expected_append c (.new ctx item) cb
    have due := added cb
    simp only [List.count_singleton, beq_iff_eq, @eq_comm _ _ cb] at due
    change owedBy ops' cb + c.held cb + openFanIns c.fanIns cb =
      expected { c with items := c.items ++ [.new ctx item] } cb
    simp only [owed] at books
    simp only [Item.new, Nat.sub_zero] at more ⊢
    omega
  · intro it mem
    rcases List.mem_append.mp mem with old | new
    · exact ledger.once it old
    · rw [List.mem_singleton.mp new]
      exact Nat.zero_le 1

/-- Every operation keeps the books. -/
theorem Ledger.runs {c : ClusterBuffer W} {ops : List (Op W)} {op : Op W}
    {ctxErr : Nat → Option GoError} {effect : Effect W} (ledger : Ledger c (op :: ops))
    (positive : ∀ agent adding, op = .agentAdd agent adding →
      ∀ p ∈ adding.items, 0 < recordCount p.item)
    (ran : Runs c ctxErr op effect) :
    Ledger effect.next (effect.ops ++ effect.spawned.flatten ++ ops) := by
  cases ran with
  | add ctx item =>
      refine ledger.wrap ctx item fun cb => ?_
      simp only [List.flatten_nil, List.append_nil, owedBy_append, owedBy_cons, owedBy_nil]
      simp [Op.callbacks, Adding.items, Nat.add_comm]
  | wrapped ctx wrapped => exact ledger.pass rfl rfl fun cb => rfl
  | wrap ctx item todo wrapped =>
      refine ledger.wrap ctx item fun cb => ?_
      simp only [List.flatten_nil, List.append_nil, owedBy_append, owedBy_cons, owedBy_nil,
        Op.callbacks, List.map_append, List.count_append, List.map_cons, List.map_nil]
      omega
  | ctxFailed n adding err ended =>
      refine ledger.pass rfl rfl fun cb => ?_
      simp [owedBy_append, owedBy_cons, ClusterBuffer.ctxFailed, owedBy_done, Op.callbacks]
  | addToBuffer ctx p => exact ledger.pass rfl rfl fun cb => rfl
  | addToBuffers ctx items bins binned =>
      refine ledger.pass rfl rfl fun cb => ?_
      have flat : owedBy (bins.map fun b => (.agentBufferFor b.1 (.many b.2) : Op W)) cb =
          ((bins.flatMap Prod.snd).map Promised.done).count cb := by
        simp only [owedBy, List.flatMap_map, Op.callbacks, Adding.items, List.map_flatMap]
      have all := ((binned.flatMap_right Prod.snd).trans
        (FirstSeen.flatMap_groupBy_perm _ items)).map Promised.done
      simp [owedBy_append, owedBy_cons, flat, all.count_eq, Op.callbacks, Adding.items]
  | bufferClosed nodeID adding closed =>
      refine ledger.pass rfl rfl fun cb => ?_
      simp [owedBy_append, owedBy_cons, ClusterBuffer.bufferClosed, owedBy_done, Op.callbacks]
  | agentBuffer nodeID adding agent found => exact ledger.pass rfl rfl fun cb => rfl
  | newAgentBuffer nodeID adding absent =>
      refine ledger.pass rfl rfl fun cb => ?_
      have fresh : held { c with agentBuffers := c.agentBuffers ++
          [{ nodeID := nodeID, batchMaxBytes := c.batchMaxBytes }] } cb = c.held cb := by
        simp [held]
      rw [fresh]
      rfl
  | agentAdd agent adding a after refused found added =>
      exact ledger.agentAdd (positive agent adding rfl) found added
  | doneBare i d it found bare =>
      exact (ledger.report found it.settled rfl).2.pass rfl rfl fun cb => rfl
  | done i d it found gated first =>
      exact (ledger.report found it.settled rfl).2.pass rfl rfl fun cb => rfl
  | doneAgain i d it found gated again =>
      exact (ledger.report found { it with reported := it.reported + 1 } rfl).2.pass rfl rfl
        fun cb => rfl
  | fanIn j d f found more =>
      refine ledger.fanInReport found _ fun cb => ?_
      simp only [more, false_and, ↓reduceIte, List.flatten_nil, List.append_nil, owedBy_nil]
  | fanInLast j d f result found last chosen =>
      refine ledger.fanInReport found _ fun cb => ?_
      simp only [last, FanIn.report_origDone, true_and, List.flatten_nil, List.append_nil,
        owedBy_done_cons, owedBy_nil, Nat.add_zero]
  | fireLost i d it found fired => exact ledger.pass rfl rfl fun cb => rfl
  | fireWon i d it found first =>
      exact (ledger.setItem found { it with origDoneFired := true } rfl).pass rfl rfl fun cb => rfl
  | origDone i d it found =>
      exact (ledger.setItem found { it with completions := it.completions ++ [d] } rfl).pass rfl rfl
        fun cb => rfl
  | flush agent index entries res =>
      refine ledger.pass rfl rfl fun cb => ?_
      simp [owedBy_append, owedBy_cons, owedBy_done, Op.callbacks, held]
  | closeAgent agent a after found closing =>
      exact ledger.setAgent found (AgentBuffer.close_moves closing) fun cb => rfl

end agent

end ClusterBuffer

end Warpstream
