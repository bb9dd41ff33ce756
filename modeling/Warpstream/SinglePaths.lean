import Warpstream.AgentBufferTimers
import Warpstream.ClientMetrics
import Warpstream.ClusterBuffer
import Warpstream.RouteLoop
import Warpstream.RoutedTopicPartition

set_option autoImplicit false

/- The copies of the batch paths for a single item: `routeRecord`, `ClusterBuffer.Add` and
`AgentBuffer.Add` against `routeRecords` and the two `MultiAdd`. -/
namespace Warpstream

open RoutedBatch

section AgentBuffer

variable {W D : Type} [RoutedBatch W] [LawfulSplit W]

theorem split_of_fits {p : Promised W D} {max : Nat} (fits : uncompressedWireBytes p.item ≤ max)
    (fanIn : D) : splitPromisedRoutedBatchByBatchMaxBytes p max fanIn = [p] := by
  unfold splitPromisedRoutedBatchByBatchMaxBytes
  exact if_pos (LawfulSplit.fits p.item max fits)

theorem splitAll_singleton {p : Promised W D} {max : Nat}
    (fits : uncompressedWireBytes p.item ≤ max) (fanIn : Nat → D) :
    AgentBuffer.splitAll max fanIn [p] = [p] := by
  rw [AgentBuffer.splitAll, AgentBuffer.splitAll, split_of_fits fits, List.append_nil]

omit [LawfulSplit W] in
theorem sum_singleton_ne_zero {p : Promised W D} (filled : 0 < recordCount p.item) :
    ¬ ([p].map fun p => recordCount p.item).sum = 0 := by
  rw [List.map_singleton, List.sum_singleton]
  omega

theorem AgentBuffer.add_eq_multiAdd (a : AgentBuffer W D) {p : Promised W D} (fanIn : Nat → D)
    (filled : 0 < recordCount p.item) : a.add p fanIn = a.multiAdd [p] fanIn := by
  unfold AgentBuffer.add
  rw [if_neg (by omega)]
  split
  · rfl
  · rename_i fits
    rw [AgentBuffer.multiAdd, if_neg (sum_singleton_ne_zero filled), splitAll_singleton (by omega)]

theorem TimedBuffer.add_eq_multiAdd (t : TimedBuffer W D) {p : Promised W D} (fanIn : Nat → D)
    (filled : 0 < recordCount p.item) : t.add p fanIn = t.multiAdd [p] fanIn := by
  unfold TimedBuffer.add
  rw [if_neg (by omega)]
  split
  · rfl
  · rename_i fits
    rw [TimedBuffer.multiAdd, if_neg (sum_singleton_ne_zero filled), splitAll_singleton (by omega)]

end AgentBuffer

namespace ClusterBuffer

variable {W : Type} [RoutedBatch W] [DecidableEq W]

/-- A goroutine that runs its operations alone, to their end. -/
inductive Executes (ctxErr : Nat → Option GoError) :
    ClusterBuffer W → List (Op W) → ClusterBuffer W → List (List (Op W)) → Prop where
  | done (c : ClusterBuffer W) : Executes ctxErr c [] c []
  | step {c c' : ClusterBuffer W} {op : Op W} {rest : List (Op W)} {choice : Choice W}
      {effect : Effect W} {spawned : List (List (Op W))}
      (ran : c.exec ctxErr choice op = some effect)
      (later : Executes ctxErr effect.next (effect.ops ++ rest) c' spawned) :
      Executes ctxErr c (op :: rest) c' (effect.spawned ++ spawned)

variable {ctxErr : Nat → Option GoError} {c c' : ClusterBuffer W} {op : Op W}
  {rest ops : List (Op W)} {effect : Effect W} {spawned : List (List (Op W))}

theorem executes_cons : Executes ctxErr c (op :: rest) c' spawned ↔
    ∃ choice effect more, c.exec ctxErr choice op = some effect ∧
      Executes ctxErr effect.next (effect.ops ++ rest) c' more ∧
      spawned = effect.spawned ++ more := by
  constructor
  · intro executes
    cases executes with
    | step ran later => exact ⟨_, _, _, ran, later, rfl⟩
  · rintro ⟨choice, effect, more, ran, later, rfl⟩
    exact .step ran later

/-- A last operation with one possible effect, which starts no goroutine. -/
theorem executes_only {next : ClusterBuffer W} {ops : List (Op W)}
    (possible : ∃ choice, c.exec ctxErr choice op = some { next := next, ops := ops })
    (only : ∀ choice e, c.exec ctxErr choice op = some e → e = { next := next, ops := ops }) :
    Executes ctxErr c [op] c' spawned ↔ Executes ctxErr next ops c' spawned := by
  rw [executes_cons]
  constructor
  · rintro ⟨choice, e, more, ran, later, rfl⟩
    obtain rfl := only choice e ran
    rwa [List.append_nil] at later
  · intro later
    obtain ⟨choice, ran⟩ := possible
    refine ⟨choice, _, spawned, ran, ?_, rfl⟩
    rwa [List.append_nil]

/-- The same for an operation to which nothing is left open. -/
theorem executes_determined {next : ClusterBuffer W} {ops : List (Op W)}
    (ran : ∀ choice, c.exec ctxErr choice op = some { next := next, ops := ops }) :
    Executes ctxErr c [op] c' spawned ↔ Executes ctxErr next ops c' spawned := by
  refine executes_only ⟨{}, ran {}⟩ fun choice e other => ?_
  exact Option.some.inj (other.symm.trans (ran choice))

section FanIns

/-- The operations that complete an item which was not split. -/
def Plain : Op W → Prop
  | .done (.wrapped _) _ | .fireOrigDone .. | .origDone .. => True
  | _ => False

/-- They neither read nor write the fan-ins. -/
theorem exec_plain {choice : Choice W} (plain : Plain op)
    (ran : c.exec ctxErr choice op = some effect) :
    effect.next.fanIns = c.fanIns ∧ (∀ op ∈ effect.ops, Plain op) ∧
      ∀ fanIns, exec { c with fanIns := fanIns } ctxErr choice op =
        some { effect with next := { effect.next with fanIns := fanIns } } := by
  cases op with
  | done cb d =>
      cases cb with
      | fanIn j => exact plain.elim
      | wrapped i =>
          simp only [exec, wrappedDone, Option.bind_eq_bind, Option.bind_eq_some_iff] at ran ⊢
          obtain ⟨it, found, eq⟩ := ran
          split at eq
          · rename_i bare
            obtain rfl := Option.some.inj eq
            refine ⟨rfl, by simp [Plain], fun fanIns => ⟨it, found, ?_⟩⟩
            simp only [bare]
            rfl
          · rename_i n gated
            split at eq
            · rename_i again
              obtain rfl := Option.some.inj eq
              refine ⟨rfl, by simp [Plain], fun fanIns => ⟨it, found, ?_⟩⟩
              simp only [gated, again, ↓reduceIte]
            · rename_i first
              obtain rfl := Option.some.inj eq
              refine ⟨rfl, by simp [Plain], fun fanIns => ⟨it, found, ?_⟩⟩
              simp only [gated, first]
              rfl
  | fireOrigDone i d =>
      simp only [exec, Option.bind_eq_bind, Option.bind_eq_some_iff] at ran ⊢
      obtain ⟨it, found, eq⟩ := ran
      split at eq
      · rename_i fired
        obtain rfl := Option.some.inj eq
        refine ⟨rfl, by simp, fun fanIns => ⟨it, found, ?_⟩⟩
        simp only [fired, ↓reduceIte]
      · rename_i first
        obtain rfl := Option.some.inj eq
        refine ⟨rfl, by simp [Plain], fun fanIns => ⟨it, found, ?_⟩⟩
        simp only [first]
        rfl
  | origDone i d =>
      simp only [exec, Option.bind_eq_bind, Option.bind_eq_some_iff] at ran ⊢
      obtain ⟨it, found, eq⟩ := ran
      obtain rfl := Option.some.inj eq
      exact ⟨rfl, by simp, fun fanIns => ⟨it, found, rfl⟩⟩
  | add _ _ => exact plain.elim
  | multiAdd _ _ _ => exact plain.elim
  | addToBuffers _ _ => exact plain.elim
  | agentBufferFor _ _ => exact plain.elim
  | agentAdd _ _ => exact plain.elim
  | flush _ _ _ => exact plain.elim
  | closeAgent _ => exact plain.elim

theorem Executes.withFanIns (executes : Executes ctxErr c ops c' spawned)
    (plain : ∀ op ∈ ops, Plain op) (fanIns : List FanIn) :
    c'.fanIns = c.fanIns ∧
      Executes ctxErr { c with fanIns := fanIns } ops { c' with fanIns := fanIns } spawned := by
  induction executes with
  | done c => exact ⟨rfl, .done _⟩
  | step ran later ih =>
      obtain ⟨same, more, moved⟩ := exec_plain (plain _ List.mem_cons_self) ran
      obtain ⟨kept, executes⟩ := ih fun op mem => by
        rcases List.mem_append.mp mem with new | old
        · exact more op new
        · exact plain op (List.mem_cons_of_mem _ old)
      exact ⟨kept.trans same, executes_cons.mpr ⟨_, _, _, moved fanIns, executes, rfl⟩⟩

end FanIns

/-- Two states that agree in all that the calls leave behind. The fan-in of an item that is not
split is never used. -/
structure SameAfter (c₁ c₂ : ClusterBuffer W) : Prop where
  state : c₂ = { c₁ with fanIns := c₂.fanIns }
  fanIns : c₂.fanIns = c₁.fanIns ∨ ∃ f, c₂.fanIns = c₁.fanIns ++ [f] ∧ f.remaining = 0

omit [RoutedBatch W] [DecidableEq W] in
theorem SameAfter.refl (c : ClusterBuffer W) : SameAfter c c := ⟨rfl, Or.inl rfl⟩

/-- Every way in which `one` can end is one in which `many` can, and the other way round. -/
def SameEnds (ctxErr : Nat → Option GoError) (c : ClusterBuffer W) (one many : List (Op W)) :
    Prop :=
  (∀ c₁ spawned, Executes ctxErr c one c₁ spawned →
      ∃ c₂, Executes ctxErr c many c₂ spawned ∧ SameAfter c₁ c₂) ∧
    ∀ c₂ spawned, Executes ctxErr c many c₂ spawned →
      ∃ c₁, Executes ctxErr c one c₁ spawned ∧ SameAfter c₁ c₂

theorem SameEnds.refl (c : ClusterBuffer W) (ops : List (Op W)) : SameEnds ctxErr c ops ops :=
  ⟨fun c₁ _ executes => ⟨c₁, executes, .refl c₁⟩, fun c₂ _ executes => ⟨c₂, executes, .refl c₂⟩⟩

/-- Both calls may be followed to the point where they have the next operations to run. -/
theorem SameEnds.of_steps {c next : ClusterBuffer W} {one many one' many' : List (Op W)}
    (first : ∀ c' spawned, Executes ctxErr c one c' spawned ↔
      Executes ctxErr next one' c' spawned)
    (second : ∀ c' spawned, Executes ctxErr c many c' spawned ↔
      Executes ctxErr next many' c' spawned)
    (same : SameEnds ctxErr next one' many') : SameEnds ctxErr c one many := by
  constructor
  · intro c₁ spawned executes
    obtain ⟨c₂, ends, after⟩ := same.1 c₁ spawned ((first c₁ spawned).mp executes)
    exact ⟨c₂, (second c₂ spawned).mpr ends, after⟩
  · intro c₂ spawned executes
    obtain ⟨c₁, ends, after⟩ := same.2 c₂ spawned ((second c₂ spawned).mp executes)
    exact ⟨c₁, (first c₁ spawned).mpr ends, after⟩

theorem SameEnds.of_exec {c next : ClusterBuffer W} {op op' : Op W} {one many : List (Op W)}
    (first : ∀ choice, c.exec ctxErr choice op = some { next := next, ops := one })
    (second : ∀ choice, c.exec ctxErr choice op' = some { next := next, ops := many })
    (same : SameEnds ctxErr next one many) : SameEnds ctxErr c [op] [op'] :=
  .of_steps (fun _ _ => executes_determined first) (fun _ _ => executes_determined second) same

theorem executes_agentAdd {agent : Nat} {adding : Adding W} :
    Executes ctxErr c [.agentAdd agent adding] c' spawned ↔
      ∃ effect more, c.agentAdd agent adding = some effect ∧
        Executes ctxErr effect.next effect.ops c' more ∧ spawned = effect.spawned ++ more := by
  rw [executes_cons]
  constructor
  · rintro ⟨choice, effect, more, ran, later, eq⟩
    rw [List.append_nil] at later
    exact ⟨effect, more, ran, later, eq⟩
  · rintro ⟨effect, more, ran, later, eq⟩
    refine ⟨{}, effect, more, ran, ?_, eq⟩
    rwa [List.append_nil]

variable [LawfulSplit W]

section AgentAdd

omit [DecidableEq W]

variable {agent : Nat} {a : AgentBuffer W Callback} {item : W} {i : Nat}

omit [LawfulSplit W] in
theorem splits_many (filled : 0 < recordCount item) :
    splits a (.many [⟨item, .wrapped i⟩]) = [⟨item, .wrapped i⟩] := by
  apply if_neg
  rw [List.map_singleton, List.sum_singleton]
  exact Nat.ne_of_gt filled

/-- An item that fits is added the same way; only the list has a fan-in made for it. -/
theorem agentAdd_many_of_fits (found : c.agentBuffers[agent]? = some a)
    (filled : 0 < recordCount item) (fits : uncompressedWireBytes item ≤ a.batchMaxBytes) :
    c.agentAdd agent (.many [⟨item, .wrapped i⟩]) =
      (c.agentAdd agent (.one ⟨item, .wrapped i⟩)).map fun e =>
        { e with
          next :=
            { e.next with
              fanIns := e.next.fanIns ++ [newFanIn a.batchMaxBytes ⟨item, .wrapped i⟩] } } := by
  have one : splits a (.one ⟨item, .wrapped i⟩) = [] := if_pos (Or.inr fits)
  have same (fanIn : Nat → Callback) :
      a.add ⟨item, .wrapped i⟩ fanIn = a.multiAdd [⟨item, .wrapped i⟩] fanIn :=
    a.add_eq_multiAdd fanIn filled
  simp only [agentAdd, found, addTo, same, one, splits_many filled, Option.bind_eq_bind,
    Option.bind_some, Option.map_bind, List.map_nil, List.append_nil]
  rfl

/-- An item that does not fit takes the path of the list. -/
theorem agentAdd_many_of_splits (found : c.agentBuffers[agent]? = some a)
    (filled : 0 < recordCount item) (large : ¬ uncompressedWireBytes item ≤ a.batchMaxBytes) :
    c.agentAdd agent (.many [⟨item, .wrapped i⟩]) =
      c.agentAdd agent (.one ⟨item, .wrapped i⟩) := by
  have one : splits a (.one ⟨item, .wrapped i⟩) = [⟨item, .wrapped i⟩] := by
    apply if_neg
    rintro (none | fits)
    · exact Nat.ne_of_gt filled none
    · exact large fits
  have same (fanIn : Nat → Callback) :
      a.add ⟨item, .wrapped i⟩ fanIn = a.multiAdd [⟨item, .wrapped i⟩] fanIn :=
    a.add_eq_multiAdd fanIn filled
  simp only [agentAdd, found, addTo, same, one, splits_many filled, Option.bind_eq_bind,
    Option.bind_some]

omit [LawfulSplit W] in
theorem plain_agentAdd (found : c.agentBuffers[agent]? = some a)
    (filled : 0 < recordCount item) (fits : uncompressedWireBytes item ≤ a.batchMaxBytes)
    (added : c.agentAdd agent (.one ⟨item, .wrapped i⟩) = some effect) :
    ∀ op ∈ effect.ops, Plain op := by
  have counted : ¬ recordCount item = 0 := by omega
  simp only [agentAdd, found, addTo, AgentBuffer.add, counted, if_neg (Nat.not_lt.mpr fits),
    ↓reduceIte, Option.bind_eq_bind, Option.bind_some, Option.bind_eq_some_iff] at added
  obtain ⟨⟨after, refused⟩, chunks, eq⟩ := added
  obtain rfl := Option.some.inj eq
  intro op mem
  obtain ⟨cb, inside, rfl⟩ := List.mem_map.mp mem
  rcases AgentBuffer.addChunks_cases chunks with ⟨-, -, all⟩ | ⟨-, -, none, -⟩
  · rw [all, List.map_singleton, List.mem_singleton] at inside
    rw [inside]
    trivial
  · rw [none] at inside
    cases inside

end AgentAdd

/-- The critical section of the agent's buffer. -/
theorem sameEnds_agentAdd (c : ClusterBuffer W) (agent : Nat) {item : W} (i : Nat)
    (filled : 0 < recordCount item) :
    SameEnds ctxErr c [.agentAdd agent (.one ⟨item, .wrapped i⟩)]
      [.agentAdd agent (.many [⟨item, .wrapped i⟩])] := by
  cases found : c.agentBuffers[agent]? with
  | none =>
      have nobody (adding : Adding W) : c.agentAdd agent adding = none := by
        simp [agentAdd, found]
      constructor
      · intro c₁ spawned executes
        obtain ⟨effect, more, ran, -⟩ := executes_agentAdd.mp executes
        rw [nobody] at ran
        cases ran
      · intro c₂ spawned executes
        obtain ⟨effect, more, ran, -⟩ := executes_agentAdd.mp executes
        rw [nobody] at ran
        cases ran
  | some a =>
      by_cases fits : uncompressedWireBytes item ≤ a.batchMaxBytes
      · have many := agentAdd_many_of_fits (i := i) found filled fits
        have unused : (newFanIn a.batchMaxBytes ⟨item, .wrapped i⟩).remaining = 0 :=
          if_pos (LawfulSplit.fits item a.batchMaxBytes fits)
        constructor
        · intro c₁ spawned executes
          obtain ⟨effect, more, ran, later, eq⟩ := executes_agentAdd.mp executes
          have plain := plain_agentAdd found filled fits ran
          rw [ran] at many
          obtain ⟨kept, moved⟩ := later.withFanIns plain
            (effect.next.fanIns ++ [newFanIn a.batchMaxBytes ⟨item, .wrapped i⟩])
          refine ⟨_, executes_agentAdd.mpr ⟨_, more, many, moved, eq⟩, rfl, Or.inr ⟨_, ?_, unused⟩⟩
          rw [kept]
        · intro c₂ spawned executes
          obtain ⟨effect, more, ran, later, eq⟩ := executes_agentAdd.mp executes
          rw [many] at ran
          obtain ⟨before, added, rfl⟩ := Option.map_eq_some_iff.mp ran
          have plain := plain_agentAdd found filled fits added
          obtain ⟨kept, moved⟩ := later.withFanIns plain before.next.fanIns
          exact ⟨_, executes_agentAdd.mpr ⟨before, more, added, moved, eq⟩, rfl,
            Or.inr ⟨_, kept, unused⟩⟩
      · have many := agentAdd_many_of_splits (i := i) found filled fits
        have same : ∀ c' spawned,
            Executes ctxErr c [.agentAdd agent (.many [⟨item, .wrapped i⟩])] c' spawned ↔
              Executes ctxErr c [.agentAdd agent (.one ⟨item, .wrapped i⟩)] c' spawned := by
          intro c' spawned
          rw [executes_agentAdd, executes_agentAdd, many]
        exact SameEnds.of_steps (fun _ _ => Iff.rfl) same (SameEnds.refl c _)

theorem sameEnds_agentBufferFor (c : ClusterBuffer W) {item : W} (i : Nat)
    (filled : 0 < recordCount item) :
    SameEnds ctxErr c [.agentBufferFor (getNodeID item) (.one ⟨item, .wrapped i⟩)]
      [.agentBufferFor (getNodeID item) (.many [⟨item, .wrapped i⟩])] := by
  by_cases closed : c.closed = true
  · have refuses (adding : Adding W) : c.agentBufferFor (getNodeID item) adding =
        { next := c, ops := bufferClosed adding } := if_pos closed
    exact SameEnds.of_exec (fun _ => congrArg some (refuses _)) (fun _ => congrArg some (refuses _))
      (SameEnds.refl c _)
  · cases known : c.agentBuffers.findIdx? fun a => a.nodeID = getNodeID item with
    | some agent =>
        have finds (adding : Adding W) : c.agentBufferFor (getNodeID item) adding =
            { next := c, ops := [.agentAdd agent adding] } := by
          rw [agentBufferFor, if_neg closed, known]
        exact SameEnds.of_exec (fun _ => congrArg some (finds _)) (fun _ => congrArg some (finds _))
          (sameEnds_agentAdd c agent i filled)
    | none =>
        have makes (adding : Adding W) : c.agentBufferFor (getNodeID item) adding =
            { next := { c with
                agentBuffers := c.agentBuffers ++
                  [{ nodeID := getNodeID item, batchMaxBytes := c.batchMaxBytes }] }
              ops := [.agentAdd c.agentBuffers.length adding] } := by
          rw [agentBufferFor, if_neg closed, known]
        exact SameEnds.of_exec (fun _ => congrArg some (makes _)) (fun _ => congrArg some (makes _))
          (sameEnds_agentAdd _ _ i filled)

theorem sameEnds_addToBuffers (c : ClusterBuffer W) (ctx : Option Nat) {item : W} (i : Nat)
    (filled : 0 < recordCount item) :
    SameEnds ctxErr c [.addToBuffers ctx (.one ⟨item, .wrapped i⟩)]
      [.addToBuffers ctx (.many [⟨item, .wrapped i⟩])] := by
  cases ended : ctx.bind ctxErr with
  | some err =>
      have fails (adding : Adding W) (choice : Choice W) :
          c.exec ctxErr choice (.addToBuffers ctx adding) =
            some { next := c, ops := ctxFailed adding err } := by
        simp only [exec, addToBuffers, ended]
      exact SameEnds.of_exec (fails _) (fails _) (SameEnds.refl c _)
  | none =>
      have one (choice : Choice W) :
          c.exec ctxErr choice (.addToBuffers ctx (.one ⟨item, .wrapped i⟩)) =
            some { next := c
                   ops := [.agentBufferFor (getNodeID item) (.one ⟨item, .wrapped i⟩)] } := by
        simp only [exec, addToBuffers, ended]
      -- a single bin can only be visited in one order
      have many (choice : Choice W) :
          c.exec ctxErr choice (.addToBuffers ctx (.many [⟨item, .wrapped i⟩])) =
            if choice.bins = [(getNodeID item, [⟨item, .wrapped i⟩])] then
              some { next := c
                     ops := choice.bins.map fun b => .agentBufferFor b.1 (.many b.2) }
            else none := by
        simp only [exec, addToBuffers, ended]
        congr 1
        exact propext List.perm_singleton
      refine SameEnds.of_steps (fun _ _ => executes_determined one) (fun c' spawned => ?_)
        (sameEnds_agentBufferFor c i filled)
      refine executes_only ⟨{ bins := [(getNodeID item, [⟨item, .wrapped i⟩])] }, ?_⟩ ?_
      · rw [many, if_pos rfl]
        rfl
      · intro choice e ran
        rw [many] at ran
        split at ran
        · rename_i bins
          rw [bins] at ran
          exact (Option.some.inj ran).symm
        · cases ran

/-- `Add` and `MultiAdd` of one item leave the same behind. -/
theorem sameEnds_add (c : ClusterBuffer W) (ctx : Option Nat) {item : W}
    (filled : 0 < recordCount item) :
    SameEnds ctxErr c [.add ctx item] [.multiAdd ctx [item] []] := by
  have wrapped : ∀ c' spawned, Executes ctxErr c [.multiAdd ctx [item] []] c' spawned ↔
      Executes ctxErr (c.wrap ctx item).1
        [.addToBuffers ctx (.many [⟨item, .wrapped c.items.length⟩])] c' spawned := by
    intro c' spawned
    rw [executes_determined fun _ => rfl, executes_determined fun _ => rfl]
    rfl
  refine SameEnds.of_steps (fun c' spawned => ?_) wrapped
    (sameEnds_addToBuffers (c.wrap ctx item).1 ctx c.items.length filled)
  exact executes_determined fun _ => rfl

end ClusterBuffer

section Route

/-- What a routing call gives back, the counters after it, and its refresh requests. -/
structure RouteReport where
  items : List RoutedTopicPartitionRecords
  rejected : List (TopicPartition × List RecordPtr × GoError)
  metrics : RecordMetrics
  refreshes : Nat

def RouteLoop.report (heap : RecordHeap) (m : RecordMetrics) (s : RouteLoop) : RouteReport :=
  { items := s.routing.groups.map (RoutedGroup.item heap)
    rejected := s.routing.rejected.map fun g => (g.tp, g.records, g.found.1)
    metrics := m.routeRecords s.routing
    refreshes := s.refreshes }

/-- What `routeRecord` returns and does. -/
structure RoutedRecord where
  result : Except GoError RoutedTopicPartitionRecords
  metrics : RecordMetrics
  refreshes : Nat := 0

def RoutedRecord.report (heap : RecordHeap) (r : RecordPtr) (one : RoutedRecord) : RouteReport :=
  match one.result with
  | .ok item =>
      { items := [item], rejected := [], metrics := one.metrics, refreshes := one.refreshes }
  | .error err =>
      { items := []
        rejected := [((heap r).topicPartition, [r], err)]
        metrics := one.metrics
        refreshes := one.refreshes }

/-- The branches of `routeRecord` on what the strategy answered. -/
def RoutedRecord.ofAnswer (heap : RecordHeap) (m : RecordMetrics) (r : RecordPtr)
    (answer : List Agent × RouteOutcome) : RoutedRecord :=
  let record := heap r
  match answer.1 with
  | [] =>
      { result := .error (noAgentAssigned record.topicPartition)
        metrics := m.routeRecord answer
        refreshes := 1 }
  | agent :: _ =>
      { result := .ok
          { topic := record.topic
            partition := record.partition
            records := [record]
            nodeID := agent.nodeID
            nodeState := agent.state }
        metrics := m.routeRecord answer }

def routeRecord {Op : Type} {Ret : Op → Type}
    (lookup : TopicPartition → Program Op Ret (List Agent × RouteOutcome)) (heap : RecordHeap)
    (m : RecordMetrics) (r : RecordPtr) : Program Op Ret RoutedRecord := do
  let answer ← lookup (heap r).topicPartition
  pure (RoutedRecord.ofAnswer heap m r answer)

theorem addPositive_empty {κ : Type} (c : CounterVec κ) : c.addPositive {} = c := rfl

theorem addPositive_add {κ : Type} [DecidableEq κ] (c : CounterVec κ) (label : κ) (n : Nat) :
    c.addPositive (CounterVec.add {} label n) = c.add label n := by
  unfold CounterVec.addPositive CounterVec.add
  congr 1
  funext k
  by_cases here : k = label
  · simp only [here, ↓reduceIte, Nat.zero_add]
    split <;> omega
  · simp [here]

/-- A record whose partition is the first one. -/
theorem report_place (heap : RecordHeap) (m : RecordMetrics) (r : RecordPtr)
    (answer : List Agent × RouteOutcome) :
    (RouteLoop.place heap {} r answer).report heap m =
      (RoutedRecord.ofAnswer heap m r answer).report heap r := by
  obtain ⟨agents, outcome⟩ := answer
  cases agents with
  | nil =>
      have counted : m.routeRecords (RouteLoop.place heap {} r ([], outcome)).routing =
          m.routeRecord ([], outcome) := by
        simp [RecordMetrics.routeRecords, RecordMetrics.routeRecord, RouteLoop.place, Routing.routes,
          Routing.misses, addPositive_empty, addPositive_add]
      unfold RouteLoop.report
      rw [counted]
      rfl
  | cons agent others =>
      have counted : m.routeRecords (RouteLoop.place heap {} r (agent :: others, outcome)).routing =
          m.routeRecord (agent :: others, outcome) := by
        cases source : outcome.routeSource with
        | none =>
            simp [RecordMetrics.routeRecords, RecordMetrics.routeRecord, RouteLoop.place,
              Routing.routes, Routing.misses, source, addPositive_empty]
        | some label =>
            simp [RecordMetrics.routeRecords, RecordMetrics.routeRecord, RouteLoop.place,
              Routing.routes, Routing.misses, source, addPositive_empty, addPositive_add]
      unfold RouteLoop.report
      rw [counted]
      rfl

theorem routeRecord_eq_routeRecords {Op σ : Type} {Ret : Op → Type}
    (lookup : TopicPartition → Program Op Ret (List Agent × RouteOutcome)) (heap : RecordHeap)
    (m : RecordMetrics) (r : RecordPtr) (handle : (o : Op) → σ → Ret o × σ) (s : σ) :
    ((routeRecord lookup heap m r).exec handle s).2 =
        ((routeRecordsWith lookup heap [r]).exec handle s).2 ∧
      ((routeRecord lookup heap m r).exec handle s).1.report heap r =
        ((routeRecordsWith lookup heap [r]).exec handle s).1.report heap m := by
  have many : (routeRecordsWith lookup heap [r]).exec handle s =
      (RouteLoop.place heap {} r ((lookup (heap r).topicPartition).exec handle s).1,
        ((lookup (heap r).topicPartition).exec handle s).2) := by
    simp [routeRecordsWith, RouteLoop.add]
  rw [many, report_place]
  unfold routeRecord
  simp only [Program.exec_bind]
  exact ⟨rfl, rfl⟩

end Route

/-- The three single-item paths do what the batch paths do with a list of one. -/
theorem single_item_paths_eq_batch_paths {W D : Type} [RoutedBatch W] [LawfulSplit W]
    [DecidableEq W] :
    (∀ (Op σ : Type) (Ret : Op → Type)
        (lookup : TopicPartition → Program Op Ret (List Agent × RouteOutcome)) (heap : RecordHeap)
        (m : RecordMetrics) (r : RecordPtr) (handle : (o : Op) → σ → Ret o × σ) (s : σ),
      ((routeRecord lookup heap m r).exec handle s).2 =
          ((routeRecordsWith lookup heap [r]).exec handle s).2 ∧
        ((routeRecord lookup heap m r).exec handle s).1.report heap r =
          ((routeRecordsWith lookup heap [r]).exec handle s).1.report heap m) ∧
      (∀ (c : ClusterBuffer W) ctxErr ctx item, 0 < recordCount item →
        ClusterBuffer.SameEnds ctxErr c [.add ctx item] [.multiAdd ctx [item] []]) ∧
      (∀ (a : AgentBuffer W D) p fanIn, 0 < recordCount p.item →
        a.add p fanIn = a.multiAdd [p] fanIn) ∧
      ∀ (t : TimedBuffer W D) p fanIn, 0 < recordCount p.item →
        t.add p fanIn = t.multiAdd [p] fanIn := by
  refine ⟨?_, ?_, ?_, ?_⟩
  · intro Op σ Ret lookup heap m r handle s
    exact routeRecord_eq_routeRecords lookup heap m r handle s
  · intro c ctxErr ctx item filled
    exact ClusterBuffer.sameEnds_add c ctx filled
  · intro a p fanIn filled
    exact a.add_eq_multiAdd fanIn filled
  · intro t p fanIn filled
    exact t.add_eq_multiAdd fanIn filled

/-- An `Add` of two records that do not fit one batch, behind a pending item: the first record
flushes that item and the second one flushes the first. The `MultiAdd` ends the same way. -/
theorem single_item_paths_eq_batch_paths_split :
    let first : RoutedTopicPartitionRecords := ⟨"t", 0, [{}], 1, .healthy⟩
    let item : RoutedTopicPartitionRecords := ⟨"t", 1, [{}, {}], 1, .healthy⟩
    let half : RoutedTopicPartitionRecords := ⟨"t", 1, [{}], 1, .healthy⟩
    let buffer : AgentBuffer RoutedTopicPartitionRecords Callback :=
      { nodeID := 1
        batchMaxBytes := 75
        nextProduceItems := [⟨first, .wrapped 0⟩]
        nextProduceRecords := 1
        nextProduceWireBytes := uncompressedWireBytes first
        nextProduceFlushTimer := true }
    let c : ClusterBuffer RoutedTopicPartitionRecords :=
      { batchMaxBytes := 75
        bufferedBytes := payloadBytes first
        bufferedRecords := 1
        items := [Item.new none first]
        agentBuffers := [buffer] }
    let added : ClusterBuffer RoutedTopicPartitionRecords :=
      { c with
        bufferedBytes := payloadBytes first + payloadBytes item
        bufferedRecords := 3
        items := [Item.new none first, Item.new none item]
        fanIns := [ClusterBuffer.newFanIn 75 ⟨item, .wrapped 1⟩]
        agentBuffers := [{ buffer with
          nextProduceItems := [⟨half, .fanIn 0⟩]
          nextProduceWireBytes := uncompressedWireBytes half
          flushes := [⟨[⟨first, .wrapped 0⟩], [first]⟩, ⟨[⟨half, .fanIn 0⟩], [half]⟩] }] }
    let spawned : List (List (Op RoutedTopicPartitionRecords)) :=
      [[.flush 0 0 [⟨first, .wrapped 0⟩]], [.flush 0 1 [⟨half, .fanIn 0⟩]]]
    ClusterBuffer.Executes (fun _ => none) c [.add none item] added spawned ∧
      ∃ c₂, ClusterBuffer.Executes (fun _ => none) c [.multiAdd none [item] []] c₂ spawned ∧
        added.SameAfter c₂ := by
  intro first item half buffer c added spawned
  obtain ⟨-, buffers, -, -⟩ :=
    single_item_paths_eq_batch_paths (W := RoutedTopicPartitionRecords) (D := Unit)
  have executes : ClusterBuffer.Executes (fun _ => none) c [.add none item] added spawned := by
    refine ClusterBuffer.executes_cons.mpr ⟨{}, _, spawned, rfl, ?_, rfl⟩
    refine ClusterBuffer.executes_cons.mpr ⟨{}, _, spawned, rfl, ?_, rfl⟩
    refine ClusterBuffer.executes_cons.mpr ⟨{}, _, spawned, rfl, ?_, rfl⟩
    refine ClusterBuffer.executes_cons.mpr ⟨{}, _, [], rfl, ?_, rfl⟩
    exact .done _
  refine ⟨executes, ?_⟩
  exact (buffers c (fun _ => none) none item (by decide)).1 added spawned executes

end Warpstream
