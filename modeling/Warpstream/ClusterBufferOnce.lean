import Warpstream.ClusterBufferOrigins
import Warpstream.Lib.Machine
import Warpstream.RoutedTopicPartition

set_option autoImplicit false

/- Runs of the cluster buffer: every item is completed once, after its flushes, and the
counters are those of the items on their way. -/
namespace Warpstream

open RoutedBatch

section counts

variable {W : Type}

theorem owedBy_pos {ops : List (Op W)} {op : Op W} {cb : Callback} (mem : op ∈ ops)
    (owes : cb ∈ op.callbacks) : 0 < owedBy ops cb :=
  List.count_pos_iff.mpr (List.mem_flatMap.mpr ⟨op, mem, owes⟩)

theorem openFanIns_pos {fanIns : List FanIn} {j : Nat} {f : FanIn} (found : fanIns[j]? = some f)
    (waits : 0 < f.remaining) : 0 < openFanIns fanIns f.origDone := by
  have counted : 1 ∈ fanIns.map fun g => if g.origDone = f.origDone ∧ 0 < g.remaining then 1 else 0 :=
    List.mem_map.mpr ⟨f, List.mem_of_getElem? found, if_pos ⟨rfl, waits⟩⟩
  exact List.single_le_sum (fun x _ => Nat.zero_le x) 1 counted

theorem openFanIns_eq_zero {fanIns : List FanIn} {cb : Callback}
    (none : ∀ f ∈ fanIns, f.origDone = cb → f.remaining = 0) : openFanIns fanIns cb = 0 := by
  unfold openFanIns
  rw [List.sum_eq_zero_iff]
  intro n mem
  obtain ⟨f, inside, rfl⟩ := List.mem_map.mp mem
  refine if_neg fun waits => ?_
  have := none f inside waits.1
  omega

end counts

namespace ClusterBuffer

variable {W : Type}

theorem Gates.perm {c : ClusterBuffer W} {ops ops' : List (Op W)} (gates : Gates c ops)
    (perm : ops.Perm ops') : Gates c ops' :=
  gates.pass rfl (fun _ => (perm.countP_eq _).symm) fun _ => (perm.countP_eq _).symm

section settled

variable {c : ClusterBuffer W} {ctxErr : Nat → Option GoError} {ops : List (Op W)}

/-- A chunk that is still owed keeps its item owed. -/
theorem owed_of_reportsTo (ledger : Ledger c ops) {cb : Callback} {i : Nat}
    (reports : c.ReportsTo cb (.wrapped i)) (due : 0 < c.owed ops cb) :
    0 < c.owed ops (.wrapped i) := by
  rcases reports with rfl | ⟨j, f, rfl, found, same⟩
  · exact due
  · rw [ledger.books, expected_fanIn, found] at due
    have opened := openFanIns_pos found due
    rw [same] at opened
    simp only [owed]
    omega

variable [RoutedBatch W]

/-- The flushes that carry an item nothing owes have returned. -/
theorem returned_of_settled (ledger : Ledger c ops) (origins : Origins c ctxErr ops) {i : Nat}
    (settled : c.owed ops (.wrapped i) = 0) {agent index : Nat}
    (carries : c.Carries agent index (.wrapped i)) : c.FlushReturned agent index := by
  obtain ⟨a, f, e, found, flush, mem, reports⟩ := carries
  rcases origins.log agent a index f found flush with returned | waiting
  · exact returned
  · have due : 0 < owedBy ops e.done := owedBy_pos waiting (List.mem_map.mpr ⟨e, mem, rfl⟩)
    have owes := owed_of_reportsTo ledger reports (by simp only [owed]; omega)
    omega

/-- With no operation left and nothing pending, nothing is owed. -/
theorem owed_eq_zero (ledger : Ledger c []) (origins : Origins c ctxErr [])
    (idle : ∀ a ∈ c.agentBuffers, a.nextProduceItems = []) (i : Nat) :
    c.owed [] (.wrapped i) = 0 := by
  have empty (cb : Callback) : c.held cb = 0 := by
    unfold held
    rw [List.sum_eq_zero_iff]
    intro n mem
    obtain ⟨a, inside, rfl⟩ := List.mem_map.mp mem
    rw [idle a inside]
    rfl
  -- a fan-in reports to an item, never to another fan-in
  have unowed (j : Nat) : c.owed [] (.fanIn j) = 0 := by
    simp only [owed, owedBy_nil, empty, Nat.zero_add]
    refine openFanIns_eq_zero fun f mem same => ?_
    obtain ⟨k, found⟩ := List.mem_iff_getElem?.mp mem
    obtain ⟨⟨n, wrapped⟩, -⟩ := origins.fanIns k f found
    cases same.symm.trans wrapped
  simp only [owed, owedBy_nil, empty, Nat.zero_add]
  refine openFanIns_eq_zero fun f mem _ => ?_
  obtain ⟨j, found⟩ := List.mem_iff_getElem?.mp mem
  have books := ledger.books (.fanIn j)
  rw [unowed, expected_fanIn, found] at books
  exact books.symm

end settled

end ClusterBuffer

theorem Item.Gate.watch {W : Type} {it : Item W} {f c : Nat} (gate : it.Gate f c)
    (gated : it.ctx ≠ none) : Item.Gate { it with watch := .started } (f + 1) c where
  bare none := absurd none gated
  gated := gate.gated
  tried _ _ := Or.inr (Nat.succ_pos f)
  settled := gate.settled

/-- What an operation has still to wrap, with its context. -/
def Op.unwrapped {W : Type} : Op W → List (Option Nat × W)
  | .add ctx item => [(ctx, item)]
  | .multiAdd ctx todo _ => todo.map fun item => (ctx, item)
  | _ => []

/-- What a caller hands over, with its context. -/
def ClusterAction.added {W : Type} : ClusterAction W → List (Option Nat × W)
  | .add ctx item => [(ctx, item)]
  | .multiAdd ctx items => items.map fun item => (ctx, item)
  | _ => []

namespace ClusterBuffer

section wrapped

variable {W : Type}

/-- The items wrapped so far, with their contexts. -/
def wrappedItems (c : ClusterBuffer W) : List (Option Nat × W) :=
  c.items.map fun it => (it.ctx, it.item)

theorem wrappedItems_set {items : List (Item W)} {i : Nat} {it : Item W}
    (found : items[i]? = some it) (after : Item W) (ctx : after.ctx = it.ctx)
    (item : after.item = it.item) :
    (items.set i after).map (fun it => (it.ctx, it.item)) =
      items.map fun it => (it.ctx, it.item) :=
  Pool.map_set_of_eq _ found (by rw [ctx, item])

theorem unwrapped_flushTasks (agent first : Nat) (flushes : List (Flush W Callback)) :
    (flushTasks agent first flushes).flatten.flatMap Op.unwrapped = [] := by
  induction flushes generalizing first with
  | nil => rfl
  | cons f rest ih => simpa [flushTasks, Op.unwrapped] using ih (first + 1)

/-- An operation wraps what it is done with, and starts no goroutine that wraps. -/
theorem Runs.wrappedItems [RoutedBatch W] {c : ClusterBuffer W} {ctxErr : Nat → Option GoError}
    {op : Op W} {effect : Effect W} (ran : Runs c ctxErr op effect) :
    effect.next.wrappedItems ++ effect.ops.flatMap Op.unwrapped = c.wrappedItems ++ op.unwrapped ∧
      effect.spawned.flatten.flatMap Op.unwrapped = [] := by
  cases ran with
  | add ctx item | wrap ctx item =>
      simp [ClusterBuffer.wrappedItems, ClusterBuffer.wrap, Item.new, Op.unwrapped]
  | wrapped | addToBuffer | agentBuffer | fireLost | fanIn | fanInLast =>
      simp [ClusterBuffer.wrappedItems, Op.unwrapped]
  | newAgentBuffer => simp [ClusterBuffer.wrappedItems, Op.unwrapped]
  | ctxFailed | bufferClosed | addToBuffers | flush =>
      simp [ClusterBuffer.wrappedItems, Op.unwrapped, ClusterBuffer.ctxFailed,
        ClusterBuffer.bufferClosed, List.flatMap_map]
  | agentAdd | closeAgent =>
      simp [ClusterBuffer.wrappedItems, Op.unwrapped, setAgent, unwrapped_flushTasks,
        List.flatMap_map]
  | doneBare i d it found | done i d it found =>
      simp [ClusterBuffer.wrappedItems, ClusterBuffer.settle, Op.unwrapped,
        wrappedItems_set found it.settled rfl rfl]
  | doneAgain i d it found =>
      simp [ClusterBuffer.wrappedItems, Op.unwrapped,
        wrappedItems_set found { it with reported := it.reported + 1 } rfl rfl]
  | fireWon i d it found =>
      simp [ClusterBuffer.wrappedItems, Op.unwrapped,
        wrappedItems_set found { it with origDoneFired := true } rfl rfl]
  | origDone i d it found =>
      simp [ClusterBuffer.wrappedItems, Op.unwrapped,
        wrappedItems_set found { it with completions := it.completions ++ [d] } rfl rfl]

end wrapped

end ClusterBuffer

/-- The items that a caller adds have records. -/
def ClusterAction.HasRecords {W : Type} [RoutedBatch W] : ClusterAction W → Prop
  | .add _ item => 0 < recordCount item
  | .multiAdd _ items => ∀ item ∈ items, 0 < recordCount item
  | _ => True

namespace ClusterRun

open ClusterBuffer

variable {W : Type} [RoutedBatch W]

structure Inv (r : ClusterRun W) : Prop where
  ledger : r.buffer.Ledger r.tasks.flatten
  gates : r.buffer.Gates r.tasks.flatten
  accounts : r.buffer.Accounts
  origins : r.buffer.Origins r.ctxErr r.tasks.flatten

theorem inv_init (batchMaxBytes : Nat) : Inv (ClusterRun.init (W := W) batchMaxBytes) where
  ledger := ⟨fun _ => rfl, List.forall_mem_nil _⟩
  gates := ⟨fun _ _ found => (by cases found), fun _ _ => ⟨rfl, rfl⟩⟩
  accounts := ⟨rfl, rfl⟩
  origins := ⟨List.forall_mem_nil _, fun _ _ found => (by cases found),
    fun _ _ found => (by cases found), fun _ _ found => (by cases found),
    fun _ _ _ _ found => (by cases found), fun _ _ found => (by cases found)⟩

variable {r : ClusterRun W}

/-- New goroutines that owe no callback yet. -/
theorem Inv.spawn (inv : Inv r) (tasks : List (List (Op W)))
    (silent : ∀ op ∈ tasks.flatten, op.callbacks = [])
    (fresh : ∀ op ∈ tasks.flatten, ∀ i d, op ≠ .fireOrigDone i d ∧ op ≠ .origDone i d)
    (ok : ∀ op ∈ tasks.flatten, r.buffer.OpOk r.ctxErr op) : Inv (r.spawn tasks) := by
  have owes (cb : Callback) : owedBy tasks.flatten cb = 0 := by
    refine List.count_eq_zero.mpr fun mem => ?_
    obtain ⟨op, inside, owed⟩ := List.mem_flatMap.mp mem
    rw [silent op inside] at owed
    cases owed
  have noFires (i : Nat) : fires i tasks.flatten = 0 := by
    refine List.countP_eq_zero.mpr fun op mem => ?_
    cases op with
    | fireOrigDone k d => exact absurd rfl (fresh _ mem k d).1
    | _ => simp
  have noCompleting (i : Nat) : completing i tasks.flatten = 0 := by
    refine List.countP_eq_zero.mpr fun op mem => ?_
    cases op with
    | origDone k d => exact absurd rfl (fresh _ mem k d).2
    | _ => simp
  have all : (r.spawn tasks).tasks.flatten = r.tasks.flatten ++ tasks.flatten := by
    simp [ClusterRun.spawn]
  refine ⟨?_, ?_, inv.accounts, ?_⟩
  · refine inv.ledger.pass rfl rfl fun cb => ?_
    rw [all, owedBy_append, owes]
    rfl
  · refine inv.gates.pass rfl (fun i => ?_) fun i => ?_
    · rw [all, fires_append, noFires]
      rfl
    · rw [all, completing_append, noCompleting]
      rfl
  · rw [all]
    refine inv.origins.grow (Grows.refl _) (fun _ _ same => same) ?_
      (fun i it found d mem => Or.inl ⟨it, found, mem⟩) (fun j f found => Or.inl found)
      (fun k a found e mem => Or.inl ⟨a, found, rfl, mem⟩)
      (fun k a index f found flush => Or.inl ⟨a, found, flush⟩)
      (fun k a found closed => Or.inr ⟨a, found, closed⟩)
      (fun k index entries mem => Or.inr (List.mem_append_left _ mem))
    intro op mem
    exact (List.mem_append.mp mem).imp_right (ok op)

theorem Inv.cancel (inv : Inv r) {ctx : Nat} (err : GoError) (running : r.ctxErr ctx = none) :
    Inv { r with ctxErr := fun n => if n = ctx then some err else r.ctxErr n } := by
  refine ⟨inv.ledger, inv.gates, inv.accounts, ?_⟩
  refine inv.origins.grow (Grows.refl _) ?_ (fun op mem => Or.inl mem)
    (fun i it found d mem => Or.inl ⟨it, found, mem⟩) (fun j f found => Or.inl found)
    (fun k a found e mem => Or.inl ⟨a, found, rfl, mem⟩)
    (fun k a index f found flush => Or.inl ⟨a, found, flush⟩)
    (fun k a found closed => Or.inr ⟨a, found, closed⟩) (fun k index entries mem => Or.inr mem)
  intro n err' ended
  have apart : n ≠ ctx := by
    rintro rfl
    cases running.symm.trans ended
  change (if n = ctx then some err else r.ctxErr n) = some err'
  rw [if_neg apart]
  exact ended

/-- The watch of an ended context starts. -/
theorem Inv.watchFires (inv : Inv r) {i ctx : Nat} {it : Item W} {err : GoError}
    (found : r.buffer.items[i]? = some it) (hasCtx : it.ctx = some ctx)
    (ended : r.ctxErr ctx = some err) :
    Inv (ClusterRun.spawn { r with buffer := { r.buffer with
      items := r.buffer.items.set i { it with watch := .started } } }
      [[.fireOrigDone i ⟨{ err := some err }, .ctx⟩]]) := by
  set fire : Op W := .fireOrigDone i ⟨{ err := some err }, .ctx⟩ with fire_eq
  have all : (r.tasks ++ [[fire]]).flatten = r.tasks.flatten ++ [fire] := by simp
  have grows := grows_setItem r.buffer found { it with watch := .started } rfl rfl (Nat.le_refl _)
  have inside : i < r.buffer.items.length := (List.getElem?_eq_some_iff.mp found).1
  constructor
  · refine (inv.ledger.setItem found { it with watch := .started } rfl).pass rfl rfl fun cb => ?_
    rw [ClusterRun.spawn, all, owedBy_append]
    rfl
  · have fired (k : Nat) : fires k (r.tasks ++ [[fire]]).flatten =
        fires k r.tasks.flatten + if i = k then 1 else 0 := by
      rw [all, fires_append, fire_eq, fires_cons_fire]
      simp [fires]
    have quiet (k : Nat) :
        completing k (r.tasks ++ [[fire]]).flatten = completing k r.tasks.flatten := by
      rw [all, completing_append]
      rfl
    refine inv.gates.setItem found { it with watch := .started } rfl (fun k apart => ⟨?_, quiet k⟩) ?_
    · refine (fired k).trans ?_
      rw [if_neg (Ne.symm apart)]
      rfl
    · change Item.Gate _ (fires i (r.tasks ++ _).flatten) (completing i (r.tasks ++ _).flatten)
      rw [fired, quiet, if_pos rfl]
      exact (inv.gates.item i it found).watch (by simp [hasCtx])
  · exact inv.accounts.setItem found { it with watch := .started } rfl rfl
  · rw [ClusterRun.spawn, all]
    refine inv.origins.grow grows (fun _ _ same => same) ?_ ?_ (fun j f found => Or.inl found)
      (fun k a found e mem => Or.inl ⟨a, found, rfl, mem⟩)
      (fun k a index f found flush => Or.inl ⟨a, found, flush⟩)
      (fun k a found closed => Or.inr ⟨a, found, closed⟩)
      (fun k index entries mem => Or.inr (List.mem_append_left _ mem))
    · intro op mem
      refine (List.mem_append.mp mem).imp_right fun new => ?_
      obtain rfl := List.mem_singleton.mp new
      refine ⟨⟨i, { it with watch := .started }, ctx, err, rfl, ?_, hasCtx, ended, rfl⟩, ?_⟩
      · exact List.getElem?_set_self inside
      · exact fun late => absurd rfl late
    · intro k it' found' d mem
      rcases completion_of_set found found' mem with old | ⟨-, new, absent⟩
      · exact Or.inl old
      · exact absurd new absent

/-- A timer starts the flush of what is pending. -/
theorem Inv.timerFlush (inv : Inv r) {agent : Nat} {a after : AgentBuffer W Callback}
    (found : r.buffer.agentBuffers[agent]? = some a) (moves : a.Moves [] after)
    (same : after.closed = a.closed) :
    Inv (ClusterRun.spawn { r with buffer := (r.buffer.setAgent agent a after []).next }
      (r.buffer.setAgent agent a after []).spawned) := by
  have all : ((r.buffer.setAgent agent a after []).spawned.flatten ++ r.tasks.flatten).Perm
      (r.tasks ++ (r.buffer.setAgent agent a after []).spawned).flatten := by
    rw [List.flatten_append]
    exact List.perm_append_comm
  refine ⟨(inv.ledger.setAgent found moves fun cb => rfl).perm all, ?_, ?_, ?_⟩
  · refine Gates.perm (inv.gates.pass rfl (fun i => ?_) fun i => ?_) all
    · rw [fires_append]
      simp only [ClusterBuffer.setAgent, fires_flushTasks]
      exact Nat.zero_add _
    · rw [completing_append]
      simp only [ClusterBuffer.setAgent, completing_flushTasks]
      exact Nat.zero_add _
  · exact ⟨inv.accounts.bytes, inv.accounts.records⟩
  · refine Origins.perm (inv.origins.setAgent [] r.tasks.flatten found moves
      (by simp [ClusterBuffer.setAgent, ClusterRun.spawn])
      (fun closed => inv.origins.closing agent a found (same ▸ closed))
      (List.forall_mem_nil _) (List.forall_mem_nil _)
      (fun op mem => Or.inl mem) fun _ _ _ mem => mem) all

theorem Inv.close (inv : Inv r) :
    Inv (ClusterRun.spawn { r with buffer := { r.buffer with closed := true } }
      ((List.range r.buffer.agentBuffers.length).map fun agent => [.closeAgent agent])) := by
  have marked : Inv { r with buffer := { r.buffer with closed := true } } :=
    ⟨inv.ledger.pass rfl rfl fun cb => rfl, inv.gates.pass rfl (fun i => rfl) fun i => rfl,
      ⟨inv.accounts.bytes, inv.accounts.records⟩,
      inv.origins.grow (grows_append [] (by simp) rfl rfl rfl fun _ => rfl) (fun _ _ same => same)
        (fun op mem => Or.inl mem) (fun i it found d mem => Or.inl ⟨it, found, mem⟩)
        (fun j f found => Or.inl found) (fun k a found e mem => Or.inl ⟨a, found, rfl, mem⟩)
        (fun k a index f found flush => Or.inl ⟨a, found, flush⟩)
        (fun k a found closed => Or.inr ⟨a, found, closed⟩)
        (fun k index entries mem => Or.inr mem)⟩
  have only (op : Op W) (mem : op ∈ ((List.range r.buffer.agentBuffers.length).map
      fun agent => [Op.closeAgent (W := W) agent]).flatten) : ∃ agent, op = .closeAgent agent := by
    obtain ⟨task, inside, here⟩ := List.mem_flatten.mp mem
    obtain ⟨agent, -, rfl⟩ := List.mem_map.mp inside
    exact ⟨agent, List.mem_singleton.mp here⟩
  refine marked.spawn _ ?_ ?_ ?_
  · intro op mem
    obtain ⟨agent, rfl⟩ := only op mem
    rfl
  · intro op mem i d
    obtain ⟨agent, rfl⟩ := only op mem
    exact ⟨fun same => (by cases same), fun same => (by cases same)⟩
  · intro op mem
    obtain ⟨agent, rfl⟩ := only op mem
    exact rfl

/-- One operation of a goroutine runs. -/
theorem Inv.run (inv : Inv r) {task : Nat} {op : Op W} {rest : List (Op W)} {effect : Effect W}
    (found : r.tasks[task]? = some (op :: rest)) (ran : Runs r.buffer r.ctxErr op effect) :
    Inv { r with
      buffer := effect.next
      tasks := r.tasks.set task (effect.ops ++ rest) ++ effect.spawned } := by
  have before := Pool.flatten_perm found
  have after := Pool.flatten_run_perm found effect.ops effect.spawned
  have ledger := inv.ledger.perm before
  have gates := inv.gates.perm before
  have origins := inv.origins.perm before
  refine ⟨(ledger.runs ?_ ran).perm after, (gates.runs ledger ran).perm after,
    inv.accounts.runs ledger gates ran, (origins.runs ran).perm after⟩
  rintro agent adding rfl p mem
  obtain ⟨ctx, wrapped⟩ := origins.sound _ List.mem_cons_self
  obtain ⟨_, _, -, -, -, -, positive⟩ := wrapped p mem
  exact positive

theorem inv_step [DecidableEq W] (r : ClusterRun W) (action : ClusterAction W) (r' : ClusterRun W)
    (inv : Inv r) (records : action.HasRecords) (stepped : r.step action = some r') : Inv r' := by
  cases steps_of_step stepped with
  | add ctx item =>
      refine inv.spawn [[.add ctx item]] ?_ ?_ ?_
      · simp [Op.callbacks]
      · simp
      · simpa [OpOk, ClusterAction.HasRecords] using records
  | multiAddNone ctx => exact inv
  | multiAdd ctx items =>
      refine inv.spawn [[.multiAdd ctx items []]] ?_ ?_ ?_
      · simp [Op.callbacks]
      · simp
      · simpa [OpOk, ClusterAction.HasRecords] using records
  | cancel ctx err running => exact inv.cancel err running
  | watchFires i it ctx err found hasCtx ended => exact inv.watchFires found hasCtx ended
  | timerFlush agent a after found started =>
      obtain ⟨moves, -, same⟩ := AgentBuffer.startFlushLocked_moves started
      exact inv.timerFlush found moves same
  | closeAgain => exact inv
  | close => exact inv.close
  | run task choice op rest effect found ran => exact inv.run found ran

theorem inv_run [DecidableEq W] {batchMaxBytes : Nat} {actions : List (ClusterAction W)}
    (records : ∀ action ∈ actions, action.HasRecords)
    (runs : Machine.run step (ClusterRun.init batchMaxBytes) actions = some r) : Inv r :=
  Machine.invariant_run_of_mem ClusterAction.HasRecords Inv inv_step (inv_init batchMaxBytes) records
    runs

/-- The item is on its way to an agent's buffer, pending in one, in a flush that has not
reported to it, or split with chunks left: its flushes have not all completed. -/
def outstanding (r : ClusterRun W) (i : Nat) : Bool :=
  decide (0 < r.buffer.owed r.tasks.flatten (.wrapped i))

/-- The sum of a size over the outstanding items. -/
def outstandingTotal (r : ClusterRun W) (size : W → Nat) : Nat :=
  Pool.tallyFrom (fun i it => if r.outstanding i then size it.item else 0) 0 r.buffer.items

/-- No goroutine has anything left to do, and no agent's buffer holds entries. -/
structure Drained (r : ClusterRun W) : Prop where
  idle : r.tasks.flatten = []
  empty : ∀ a ∈ r.buffer.agentBuffers, a.nextProduceItems = []

theorem Inv.outstanding_iff (inv : Inv r) {i : Nat} {it : Item W}
    (found : r.buffer.items[i]? = some it) : r.outstanding i = true ↔ it.reported = 0 := by
  rw [outstanding, decide_eq_true_iff, inv.ledger.books, expected_wrapped, found, Option.map_some,
    Option.getD_some]
  omega

theorem Inv.outstandingTotal_eq (inv : Inv r) (size : W → Nat) :
    outstandingSum size r.buffer.items = r.outstandingTotal size := by
  have all (items : List (Item W)) (first : Nat)
      (place : ∀ (k : Nat) (it : Item W), items[k]? = some it → r.buffer.items[first + k]? = some it) :
      outstandingSum size items = (Pool.tallyFrom
        (fun i (it : Item W) => if r.outstanding i then size it.item else 0) first items : Nat) := by
    induction items generalizing first with
    | nil => rfl
    | cons it rest ih =>
        have here := inv.outstanding_iff (place 0 it rfl)
        have later := ih (first + 1) fun k it' found => by
          rw [Nat.add_assoc, Nat.add_comm 1]
          exact place (k + 1) it' (by simpa using found)
        simp only [outstandingSum] at later
        simp only [outstandingSum, List.map_cons, List.sum_cons, Pool.tallyFrom, Nat.cast_add, later]
        simp only [Nat.add_zero] at here
        by_cases reported : it.reported = 0
        · rw [if_pos reported, if_pos (here.mpr reported)]
        · rw [if_neg reported, if_neg fun due => reported (here.mp due)]
          rfl
  exact all r.buffer.items 0 fun k it found => by rwa [Nat.zero_add]

theorem Inv.completions_le_one (inv : Inv r) {i : Nat} {it : Item W}
    (found : r.buffer.items[i]? = some it) : it.completions.length ≤ 1 := by
  have gate := inv.gates.item i it found
  cases ctx : it.ctx with
  | none =>
      have balance := (gate.bare ctx).2
      have once := inv.ledger.once it (List.mem_of_getElem? found)
      omega
  | some n =>
      have balance := gate.gated (by simp [ctx])
      split at balance <;> omega

theorem Inv.not_outstanding_of_drained (inv : Inv r) (drained : r.Drained) (i : Nat) :
    r.outstanding i = false := by
  have ledger := inv.ledger
  have origins := inv.origins
  rw [drained.idle] at ledger origins
  rw [outstanding, drained.idle, owed_eq_zero ledger origins drained.empty i]
  rfl

theorem Inv.completions_of_drained (inv : Inv r) (drained : r.Drained) {i : Nat} {it : Item W}
    (found : r.buffer.items[i]? = some it) : it.completions.length = 1 := by
  have settled : it.reported ≠ 0 := by
    rw [Ne, ← inv.outstanding_iff found, inv.not_outstanding_of_drained drained]
    exact Bool.false_ne_true
  have once := inv.ledger.once it (List.mem_of_getElem? found)
  have gate := inv.gates.item i it found
  have noFires : fires i r.tasks.flatten = 0 := by rw [drained.idle]; rfl
  have noCompleting : completing i r.tasks.flatten = 0 := by rw [drained.idle]; rfl
  rw [noFires, noCompleting] at gate
  cases ctx : it.ctx with
  | none =>
      have balance := (gate.bare ctx).2
      omega
  | some n =>
      have some : it.ctx ≠ none := by simp [ctx]
      have balance := gate.gated some
      rcases gate.tried some (by omega) with fired | impossible
      · rw [fired, if_pos rfl] at balance
        omega
      · omega

/-- A result other than the end of the context comes after every flush of the item. -/
theorem Inv.returned_of_completion (inv : Inv r) {i : Nat} {it : Item W} {d : Delivery}
    (found : r.buffer.items[i]? = some it) (mem : d ∈ it.completions) (late : d.cause ≠ .ctx) :
    r.outstanding i = false ∧
      ∀ agent index, r.buffer.Carries agent index (.wrapped i) →
        r.buffer.FlushReturned agent index := by
  obtain ⟨it', found', positive⟩ := (inv.origins.items i it found d mem).2 late
  obtain rfl := Option.some.inj (found.symm.trans found')
  have settled : r.outstanding i = false := by
    rw [← Bool.not_eq_true, inv.outstanding_iff found]
    omega
  refine ⟨settled, fun agent index => returned_of_settled inv.ledger inv.origins ?_⟩
  have zero := of_decide_eq_false settled
  omega

/-- Everything handed over so far: the items that are wrapped and those still to be. -/
def handedOver (r : ClusterRun W) : List (Option Nat × W) :=
  r.buffer.wrappedItems ++ r.tasks.flatten.flatMap Op.unwrapped

omit [RoutedBatch W] in
theorem handedOver_spawn (r : ClusterRun W) (tasks : List (List (Op W))) :
    (r.spawn tasks).handedOver = r.handedOver ++ tasks.flatten.flatMap Op.unwrapped := by
  simp [handedOver, ClusterRun.spawn]

/-- A step adds what its action hands over, and loses nothing. -/
theorem handedOver_step [DecidableEq W] {action : ClusterAction W} {r' : ClusterRun W}
    (stepped : r.step action = some r') : r'.handedOver.Perm (r.handedOver ++ action.added) := by
  cases steps_of_step stepped with
  | add ctx item => simp [handedOver_spawn, Op.unwrapped, ClusterAction.added]
  | multiAddNone ctx => simp [ClusterAction.added]
  | multiAdd ctx items => simp [handedOver_spawn, Op.unwrapped, ClusterAction.added]
  | cancel | closeAgain => simp [handedOver, ClusterAction.added]
  | watchFires i it ctx err found hasCtx ended =>
      rw [handedOver_spawn]
      simp [handedOver, ClusterBuffer.wrappedItems, Op.unwrapped, ClusterAction.added,
        wrappedItems_set found { it with watch := .started } rfl rfl]
  | timerFlush agent a after found started =>
      rw [handedOver_spawn]
      simp [handedOver, ClusterBuffer.wrappedItems, ClusterBuffer.setAgent, ClusterAction.added,
        unwrapped_flushTasks]
  | close =>
      have none : (((List.range r.buffer.agentBuffers.length).map fun agent =>
          [(.closeAgent agent : Op W)]).flatten).flatMap Op.unwrapped = [] := by
        induction List.range r.buffer.agentBuffers.length with
        | nil => rfl
        | cons _ _ ih => exact ih
      rw [handedOver_spawn, none]
      exact (List.append_nil _).symm ▸ List.Perm.refl _
  | run task choice op rest effect found ran =>
      obtain ⟨same, none⟩ := ran.wrappedItems
      have before := (Pool.flatten_perm found).flatMap_right Op.unwrapped
      have after := (Pool.flatten_run_perm found effect.ops effect.spawned).flatMap_right Op.unwrapped
      rw [List.flatMap_cons] at before
      rw [List.flatMap_append, List.flatMap_append, none, List.append_nil] at after
      simp only [ClusterAction.added, List.append_nil, handedOver]
      -- what the operation wrapped has moved from the goroutines to the registry
      refine (after.symm.append_left _).trans ?_
      rw [← List.append_assoc, same, List.append_assoc]
      exact before.symm.append_left _

theorem handedOver_run [DecidableEq W] {batchMaxBytes : Nat} {actions : List (ClusterAction W)}
    (runs : Machine.run step (ClusterRun.init batchMaxBytes) actions = some r) :
    r.handedOver.Perm (actions.flatMap ClusterAction.added) := by
  refine Machine.history_run
    (fun done r => r.handedOver.Perm (done.flatMap ClusterAction.added)) ?_ (.refl _) runs
  intro done r action r' kept stepped
  rw [List.flatMap_append, List.flatMap_singleton]
  exact (handedOver_step stepped).trans (kept.append_right _)

omit [RoutedBatch W] in
theorem Drained.handedOver_eq (drained : r.Drained) : r.handedOver = r.buffer.wrappedItems := by
  rw [handedOver, drained.idle, List.flatMap_nil, List.append_nil]

end ClusterRun

/-- Whatever callers, timers, flushes, context ends and `Close` do, the callback of every
item is called at most once, and once when everything has drained; other than for its
context it is called after every flush with a chunk of the item has returned, or when a
closed buffer refused it; and the counters are the sums over the items whose flushes have
not all completed. No item is lost on the way: those wrapped and those still to be wrapped are
the ones handed to `Add` and `MultiAdd`, each with its context, and once drained all are
wrapped. -/
theorem clusterBuffer_completes_each_item_once {W : Type} [RoutedBatch W] [DecidableEq W]
    {batchMaxBytes : Nat} {actions : List (ClusterAction W)} {r : ClusterRun W}
    (records : ∀ action ∈ actions, action.HasRecords)
    (runs : Machine.run ClusterRun.step (ClusterRun.init batchMaxBytes) actions = some r) :
    (∀ (i : Nat) (it : Item W), r.buffer.items[i]? = some it →
      it.completions.length ≤ 1 ∧ (r.Drained → it.completions.length = 1) ∧
      ∀ d ∈ it.completions, r.buffer.Sourced r.ctxErr (.wrapped i) d ∧
        (d.cause ≠ .ctx → r.outstanding i = false ∧ ∀ agent index,
          r.buffer.Carries agent index (.wrapped i) → r.buffer.FlushReturned agent index)) ∧
    (∀ (agent : Nat) (a : AgentBuffer W Callback), r.buffer.agentBuffers[agent]? = some a →
      ∀ e ∈ a.entries, r.buffer.ChunkOf a.batchMaxBytes e) ∧
    r.buffer.bufferedBytes = r.outstandingTotal payloadBytes ∧
    r.buffer.bufferedRecords = r.outstandingTotal recordCount ∧
    r.handedOver.Perm (actions.flatMap ClusterAction.added) ∧
    (r.Drained → r.buffer.bufferedBytes = 0 ∧ r.buffer.bufferedRecords = 0 ∧
      (r.buffer.items.map fun it => (it.ctx, it.item)).Perm
        (actions.flatMap ClusterAction.added)) := by
  have inv := ClusterRun.inv_run records runs
  have bytes := inv.accounts.bytes.trans (inv.outstandingTotal_eq payloadBytes)
  have counted := inv.accounts.records.trans (inv.outstandingTotal_eq recordCount)
  have handed := ClusterRun.handedOver_run runs
  refine ⟨fun i it found => ⟨inv.completions_le_one found,
    fun drained => inv.completions_of_drained drained found, fun d mem => ?_⟩,
    inv.origins.entries, bytes, counted, handed, fun drained => ?_⟩
  · exact ⟨(inv.origins.items i it found d mem).1, inv.returned_of_completion found mem⟩
  · have none (size : W → Nat) : r.outstandingTotal size = 0 := by
      simp only [ClusterRun.outstandingTotal, inv.not_outstanding_of_drained drained,
        Bool.false_eq_true, ↓reduceIte, Pool.tallyFrom_zero]
    rw [drained.handedOver_eq] at handed
    rw [bytes, counted, none, none]
    exact ⟨rfl, rfl, handed⟩

/-- An item of one record. -/
def oneRecordItem (nodeID : Int) : RoutedTopicPartitionRecords := ⟨"t", 0, [{}], nodeID, .healthy⟩

/-- An item that is split at 180 bytes. -/
def splitItem : RoutedTopicPartitionRecords :=
  ⟨"t", 1, List.replicate 4 { value := some (List.replicate 30 0) }, 1, .healthy⟩

/-- The next operations of a goroutine, none of which chooses anything. -/
def runOps (task n : Nat) : List (ClusterAction RoutedTopicPartitionRecords) :=
  List.replicate n (.run task {})

/-- A flush is acknowledged and reports to its items. -/
def ackedFlush (task n : Nat) : List (ClusterAction RoutedTopicPartitionRecords) :=
  .run task { res := { resp := some { topics := [⟨"t", 0, [⟨0, 0⟩, ⟨1, 0⟩]⟩] } } } ::
    runOps task n

/-- An `Add` and a `MultiAdd` for two agents, one item of which is split and flushes the first.
The first item's context ends before its flush returns, `Close` flushes the rest, and an `Add`
after it is refused. -/
def addCancelClose : List (ClusterAction RoutedTopicPartitionRecords) :=
  [.add (some 0) (oneRecordItem 1), .multiAdd (some 1) [splitItem, oneRecordItem 2]] ++
    runOps 0 4 ++ runOps 1 3 ++
    [.run 1 { bins := [(1, [⟨splitItem, .wrapped 1⟩]), (2, [⟨oneRecordItem 2, .wrapped 2⟩])] }] ++
    runOps 1 4 ++ [.cancel 0 GoError.contextCanceled, .watchFires 0] ++ runOps 4 2 ++
    ackedFlush 2 2 ++ ackedFlush 3 1 ++ [.close] ++ runOps 5 1 ++ runOps 6 1 ++
    ackedFlush 7 4 ++ ackedFlush 8 3 ++ [.add none (oneRecordItem 1)] ++ runOps 9 5

theorem clusterBuffer_completes_each_item_once_closed :
    ∃ r, Machine.run ClusterRun.step (ClusterRun.init 180) addCancelClose = some r ∧
      (r.buffer.items.map fun it => it.completions.map Delivery.cause) =
        [[.ctx], [.flush 0 1], [.flush 1 0], [.closed]] ∧
      (∀ it ∈ r.buffer.items, it.completions.length = 1) ∧
      r.buffer.bufferedBytes = 0 ∧ r.buffer.bufferedRecords = 0 ∧
      (r.buffer.items.map fun it => (it.ctx, it.item)).Perm
        [(some 0, oneRecordItem 1), (some 1, splitItem), (some 1, oneRecordItem 2),
          (none, oneRecordItem 1)] := by
  have state : (Machine.run ClusterRun.step (ClusterRun.init 180) addCancelClose).map (fun r =>
      (r.tasks.flatten, r.buffer.agentBuffers.flatMap AgentBuffer.nextProduceItems,
        r.buffer.items.map fun it => it.completions.map Delivery.cause)) =
      some ([], [], [[.ctx], [.flush 0 1], [.flush 1 0], [.closed]]) := by
    decide
  obtain ⟨r, runs, eq⟩ := Option.map_eq_some_iff.mp state
  obtain ⟨idle, eq⟩ := Prod.mk.inj eq
  obtain ⟨pending, causes⟩ := Prod.mk.inj eq
  have drained : r.Drained := ⟨idle, List.flatMap_eq_nil_iff.mp pending⟩
  obtain ⟨once, -, -, -, -, zero⟩ := clusterBuffer_completes_each_item_once
    (by simp [addCancelClose, runOps, ackedFlush, ClusterAction.HasRecords, RoutedBatch.recordCount,
      oneRecordItem, splitItem]) runs
  obtain ⟨bytes, records, handed⟩ := zero drained
  refine ⟨r, runs, causes, fun it mem => ?_, bytes, records, handed⟩
  obtain ⟨i, found⟩ := List.mem_iff_getElem?.mp mem
  exact (once i it found).2.1 drained

end Warpstream
