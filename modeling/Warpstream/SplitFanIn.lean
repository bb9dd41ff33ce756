import Warpstream.ClusterBufferLedger
import Warpstream.Lib.Machine
import Warpstream.RoutedTopicPartition

set_option autoImplicit false

/- The fan-in of a split item by itself: goroutines that run the callback its chunks share,
in any order and concurrently. The callback is one critical section, after which the last
caller runs the original callback outside the lock. -/
namespace Warpstream

open RoutedBatch

inductive FanInOp where
  | done (d : Delivery)
  | origDone (d : Delivery)
deriving DecidableEq

/-- `lockOrder` are the results in the order in which their callbacks took the lock, and
`completions` the calls of the original callback. -/
structure FanInRun where
  fanIn : FanIn
  threads : List (List FanInOp)
  lockOrder : List Delivery := []
  completions : List (Callback × Delivery) := []
deriving DecidableEq

namespace FanInRun

/-- The goroutines that run the callbacks of the chunks, each with its results. -/
def start (fanIn : FanIn) (calls : List (List Delivery)) : FanInRun :=
  { fanIn := fanIn, threads := calls.map fun results => results.map .done }

/-- The next operation of the goroutine `t`. -/
def step (r : FanInRun) (t : Nat) : Option FanInRun :=
  match r.threads[t]? with
  | some (.done d :: rest) =>
      let after := r.fanIn.report d
      let last := if after.remaining = 0 then after.chosen.toList.map .origDone else []
      some { r with
        fanIn := after
        threads := r.threads.set t (last ++ rest)
        lockOrder := r.lockOrder ++ [d] }
  | some (.origDone d :: rest) =>
      some { r with
        threads := r.threads.set t rest
        completions := r.completions ++ [(r.fanIn.origDone, d)] }
  | _ => none

end FanInRun

/-- The critical section in the buffer is the one of the fan-in by itself. -/
theorem ClusterBuffer.fanInDone_eq {W : Type} {c : ClusterBuffer W} {j : Nat} {f : FanIn}
    (found : c.fanIns[j]? = some f) (d : Delivery) :
    c.fanInDone j d = some {
      next := { c with fanIns := c.fanIns.set j (f.report d) }
      ops := if (f.report d).remaining = 0 then
          (f.report d).chosen.toList.map (.done f.origDone) else [] } := by
  have chosen : ∃ result, (f.report d).chosen = some result := by
    simp only [FanIn.report]
    split
    · exact ⟨d, rfl⟩
    · rename_i first taken
      split
      · exact ⟨d, rfl⟩
      · exact ⟨first, taken⟩
  obtain ⟨result, chose⟩ := chosen
  simp only [fanInDone, found, Option.bind_eq_bind, Option.bind_some, chose, FanIn.report_origDone]
  split <;> rfl

namespace FanIn

/-- The first failing result, or the first one if none fails. -/
def chosenOf (failed : Delivery → Bool) (results : List Delivery) : Option Delivery :=
  (results.find? failed).or results.head?

variable {failed : Delivery → Bool}

theorem chosenOf_concat (results : List Delivery) (d : Delivery) :
    chosenOf failed (results ++ [d]) =
      if results = [] ∨ results.any failed = false ∧ failed d = true then some d
      else chosenOf failed results := by
  unfold chosenOf
  cases results with
  | nil => cases bad : failed d <;> simp [bad]
  | cons first rest =>
      cases found : (first :: rest).find? failed with
      | some e =>
          have some : (first :: rest).any failed = true := by
            rw [List.any_eq_true]
            exact ⟨e, List.mem_of_find?_eq_some found, List.find?_some found⟩
          rw [List.find?_append, found, some]
          simp
      | none =>
          have none : (first :: rest).any failed = false := by
            rw [List.any_eq_false]
            exact List.find?_eq_none.mp found
          rw [List.find?_append, found, none]
          cases bad : failed d <;> simp [bad]

theorem chosenOf_eq_none {results : List Delivery} (none : chosenOf failed results = none) :
    results = [] := by
  unfold chosenOf at none
  rw [Option.or_eq_none_iff] at none
  exact List.head?_eq_none_iff.mp none.2

/-- The chosen result fails exactly when one of them does. -/
theorem failed_chosenOf {results : List Delivery} {d : Delivery}
    (chosen : chosenOf failed results = some d) :
    failed d = true ↔ ∃ e ∈ results, failed e = true := by
  unfold chosenOf at chosen
  cases found : results.find? failed with
  | some e =>
      rw [found] at chosen
      obtain rfl : e = d := Option.some.inj chosen
      have fails := List.find?_some found
      exact ⟨fun _ => ⟨e, List.mem_of_find?_eq_some found, fails⟩, fun _ => fails⟩
  | none =>
      have pass := List.find?_eq_none.mp found
      rw [found, Option.none_or] at chosen
      have mem := List.mem_of_head? chosen
      constructor
      · intro fails
        exact absurd fails (pass d mem)
      · rintro ⟨e, inside, fails⟩
        exact absurd fails (pass e inside)

theorem report_of_chosen_none {f : FanIn} (none : f.chosen = none) (d : Delivery) :
    (f.report d).chosen = some d ∧ (f.report d).chosenOK = !f.failed d := by
  simp only [report, none, failed, and_self]

theorem report_of_chosen_some {f : FanIn} {e : Delivery} (taken : f.chosen = some e)
    (d : Delivery) :
    (f.report d).chosen = (if f.chosenOK && f.failed d then some d else some e) ∧
      (f.report d).chosenOK = (f.chosenOK && !f.failed d) := by
  have same : FanIn.failed { f with remaining := f.remaining - 1 } d = f.failed d := rfl
  simp only [report, taken] at same ⊢
  rw [same]
  cases f.chosenOK <;> cases f.failed d <;> simp

@[simp] theorem report_tp (f : FanIn) (d : Delivery) : (f.report d).tp = f.tp := by
  simp only [report]
  split
  · rfl
  · split <;> rfl

/-- The variables of a fan-in of `total` chunks after the given results. -/
structure Holds (f : FanIn) (tp : TopicPartition) (done : Callback) (total : Nat)
    (results : List Delivery) : Prop where
  tp : f.tp = tp
  origDone : f.origDone = done
  remaining : f.remaining = total - results.length
  chosen : f.chosen = chosenOf f.failed results
  chosenOK : results ≠ [] → f.chosenOK = !results.any f.failed

theorem Holds.report {f : FanIn} {tp : TopicPartition} {done : Callback} {total : Nat}
    {results : List Delivery} (holds : f.Holds tp done total results) (d : Delivery) :
    (f.report d).Holds tp done total (results ++ [d]) := by
  have failed : (f.report d).failed = f.failed := by
    funext e
    simp only [FanIn.failed, report_tp]
  have cell : (f.report d).chosen = chosenOf f.failed (results ++ [d]) ∧
      (f.report d).chosenOK = !(results ++ [d]).any f.failed := by
    rw [chosenOf_concat, List.any_append]
    cases chosen : f.chosen with
    | none =>
        have empty : results = [] := by
          apply chosenOf_eq_none
          rw [← holds.chosen, chosen]
        have reported := report_of_chosen_none chosen d
        simp [reported, empty]
    | some e =>
        have taken : results ≠ [] := by
          rintro rfl
          rw [holds.chosen] at chosen
          cases chosen
        have reported := report_of_chosen_some chosen d
        rw [holds.chosenOK taken] at reported
        rw [reported.1, reported.2, ← holds.chosen, chosen]
        cases results.any f.failed <;> cases bad : f.failed d <;> simp [taken, bad]
  constructor
  · rw [report_tp, holds.tp]
  · rw [report_origDone, holds.origDone]
  · rw [report_remaining, holds.remaining, List.length_append, List.length_singleton]
    omega
  · rw [failed]
    exact cell.1
  · intro _
    rw [failed]
    exact cell.2

end FanIn

namespace FanInOp

/-- The result of a callback that has still to take the lock. -/
def waiting : FanInOp → Option Delivery
  | done d => some d
  | origDone _ => none

/-- The result the original callback is still to be called with. -/
def owed : FanInOp → Option Delivery
  | done _ => none
  | origDone d => some d

end FanInOp

namespace FanInRun

def ops (r : FanInRun) : List FanInOp := r.threads.flatten

theorem ops_start (fanIn : FanIn) (calls : List (List Delivery)) :
    (start fanIn calls).ops = calls.flatten.map .done := by
  simp only [ops, start, List.map_flatten]

/-- A step takes one operation of the pool: the callback of a chunk, after which the last
one owes the original call, or that call. -/
theorem step_cases {r r' : FanInRun} {t : Nat} (stepped : r.step t = some r') :
    (∃ d others, r.ops.Perm (.done d :: others) ∧
      r'.ops.Perm ((if (r.fanIn.report d).remaining = 0 then
        (r.fanIn.report d).chosen.toList.map .origDone else []) ++ others) ∧
      r'.fanIn = r.fanIn.report d ∧ r'.lockOrder = r.lockOrder ++ [d] ∧
      r'.completions = r.completions) ∨
    (∃ d, r.ops.Perm (.origDone d :: r'.ops) ∧ r'.fanIn = r.fanIn ∧
      r'.lockOrder = r.lockOrder ∧ r'.completions = r.completions ++ [(r.fanIn.origDone, d)]) := by
  unfold step at stepped
  split at stepped
  · rename_i d rest found
    obtain rfl := Option.some.inj stepped
    exact Or.inl ⟨d, (r.threads.set t rest).flatten, Pool.flatten_perm found,
      Pool.flatten_set_perm found _, rfl, rfl, rfl⟩
  · rename_i d rest found
    obtain rfl := Option.some.inj stepped
    exact Or.inr ⟨d, Pool.flatten_perm found, rfl, rfl, rfl⟩
  · cases stepped

/-- A goroutine with an operation left can take it: the lock is only held inside a step. -/
theorem exists_step {r : FanInRun} (left : r.ops ≠ []) : ∃ t r', r.step t = some r' := by
  obtain ⟨op, mem⟩ := List.exists_mem_of_ne_nil r.ops left
  obtain ⟨thread, inside, _⟩ := List.mem_flatten.mp mem
  obtain ⟨t, found⟩ := List.mem_iff_getElem?.mp inside
  cases thread with
  | nil => simp_all
  | cons first rest =>
      refine ⟨t, ?_⟩
      unfold step
      rw [found]
      cases first with
      | done d => exact ⟨_, rfl⟩
      | origDone d => exact ⟨_, rfl⟩

variable {tp : TopicPartition} {done : Callback} {results : List Delivery}

/-- The books of a run over all `results`: each callback has taken the lock or is still to,
and the original call is owed or made once all of them have. -/
structure Inv (tp : TopicPartition) (done : Callback) (results : List Delivery)
    (r : FanInRun) : Prop where
  fanIn : r.fanIn.Holds tp done results.length r.lockOrder
  calls : (r.lockOrder ++ r.ops.filterMap FanInOp.waiting).Perm results
  once : (r.completions.map Prod.snd ++ r.ops.filterMap FanInOp.owed).Perm
    (if r.lockOrder.length = results.length then r.fanIn.chosen.toList else [])
  completed : ∀ c ∈ r.completions, c.1 = done

theorem Inv.step {r r' : FanInRun} {t : Nat} (inv : r.Inv tp done results)
    (stepped : r.step t = some r') : r'.Inv tp done results := by
  rcases step_cases stepped with ⟨d, others, before, after, fanIn, lockOrder, completions⟩ |
    ⟨d, before, fanIn, lockOrder, completions⟩
  · have holds := inv.fanIn.report d
    have calls : (r.lockOrder ++ d :: others.filterMap FanInOp.waiting).Perm results :=
      ((before.filterMap FanInOp.waiting).append_left r.lockOrder).symm.trans inv.calls
    have length : r.lockOrder.length + ((others.filterMap FanInOp.waiting).length + 1) =
        results.length := by
      rw [← calls.length_eq, List.length_append, List.length_cons]
    -- Before the last callback nothing is owed or made.
    have quiet : r.completions.map Prod.snd ++ r.ops.filterMap FanInOp.owed = [] := by
      apply List.Perm.eq_nil
      apply inv.once.trans
      rw [if_neg (by omega)]
    obtain ⟨noneMade, noneOwed⟩ := List.append_eq_nil_iff.mp quiet
    have othersOwe : others.filterMap FanInOp.owed = [] := by
      have owed := (before.filterMap FanInOp.owed).symm
      rw [noneOwed] at owed
      exact owed.eq_nil
    have last : (r.fanIn.report d).remaining = 0 ↔
        (r.lockOrder ++ [d]).length = results.length := by
      rw [holds.remaining]
      rw [List.length_append, List.length_singleton]
      omega
    constructor
    · rw [fanIn, lockOrder]
      exact holds
    · rw [lockOrder, List.append_assoc]
      apply List.Perm.trans _ calls
      apply List.Perm.append_left
      apply ((after.filterMap FanInOp.waiting).cons d).trans
      rw [List.filterMap_append]
      split
      · simp [List.filterMap_map, Function.comp_def, FanInOp.waiting]
      · simp
    · rw [lockOrder, completions, noneMade, List.nil_append, fanIn]
      apply (after.filterMap FanInOp.owed).trans
      rw [List.filterMap_append, othersOwe, List.append_nil]
      by_cases all : (r.lockOrder ++ [d]).length = results.length
      · rw [if_pos all, if_pos (last.mpr all), List.filterMap_map]
        simp [Function.comp_def, FanInOp.owed]
      · rw [if_neg all, if_neg (fun zero => all (last.mp zero))]
        simp
    · rw [completions]
      exact inv.completed
  · constructor
    · rw [fanIn, lockOrder]
      exact inv.fanIn
    · rw [lockOrder]
      exact ((before.filterMap FanInOp.waiting).append_left r.lockOrder).symm.trans inv.calls
    · rw [completions, lockOrder, fanIn, List.map_append, List.append_assoc]
      exact ((before.filterMap FanInOp.owed).append_left _).symm.trans inv.once
    · rw [completions]
      intro c mem
      rcases List.mem_append.mp mem with earlier | now
      · exact inv.completed c earlier
      · rw [List.mem_singleton.mp now]
        exact inv.fanIn.origDone

theorem inv_start {W : Type} [RoutedBatch W] {batchMaxBytes : Nat} {p : Promised W Callback}
    {calls : List (List Delivery)}
    (split : 2 ≤ (splitByMaxBytes p.item batchMaxBytes).length)
    (each : calls.flatten.length = (splitByMaxBytes p.item batchMaxBytes).length) :
    (start (ClusterBuffer.newFanIn batchMaxBytes p) calls).Inv (getTopicPartition p.item) p.done
      calls.flatten := by
  constructor
  · constructor
    · rfl
    · rfl
    · simp only [start, ClusterBuffer.newFanIn, List.length_nil, Nat.sub_zero]
      rw [if_neg (by omega), each]
    · rfl
    · intro some
      exact absurd rfl some
  · rw [ops_start, List.filterMap_map]
    change (calls.flatten.filterMap some).Perm calls.flatten
    rw [List.filterMap_some]
  · rw [ops_start, List.filterMap_map, if_neg (by simp only [start, List.length_nil]; omega)]
    simp [start, Function.comp_def, FanInOp.owed]
  · exact List.forall_mem_nil _

/-- The calls still to be made, counting the original one. -/
def fuel (results : List Delivery) (r : FanInRun) : Nat :=
  results.length - r.lockOrder.length + (1 - r.completions.length)

theorem Inv.completions_length_le {r : FanInRun} (inv : r.Inv tp done results) :
    r.completions.length + (r.ops.filterMap FanInOp.owed).length ≤ 1 := by
  have length := inv.once.length_eq
  rw [List.length_append, List.length_map] at length
  rw [length]
  split
  · cases r.fanIn.chosen <;> simp
  · simp

theorem Inv.fuel_lt {r r' : FanInRun} {t : Nat} (inv : r.Inv tp done results)
    (stepped : r.step t = some r') : fuel results r' < fuel results r := by
  have made := inv.completions_length_le
  have taken := inv.calls.length_eq
  rw [List.length_append] at taken
  unfold fuel
  rcases step_cases stepped with ⟨d, others, before, _, _, lockOrder, completions⟩ |
    ⟨d, before, _, lockOrder, completions⟩
  · rw [(before.filterMap FanInOp.waiting).length_eq] at taken
    simp only [List.filterMap_cons, FanInOp.waiting, List.length_cons] at taken
    rw [lockOrder, completions, List.length_append, List.length_singleton]
    omega
  · rw [(before.filterMap FanInOp.owed).length_eq] at made
    simp only [List.filterMap_cons, FanInOp.owed, List.length_cons] at made
    rw [lockOrder, completions, List.length_append, List.length_singleton]
    omega

/-- The original callback is called with the result the fan-in chose, after all callbacks. -/
theorem Inv.of_completions {r : FanInRun} (inv : r.Inv tp done results)
    (made : r.completions ≠ []) :
    ∃ d, r.completions = [(done, d)] ∧ r.lockOrder.Perm results ∧
      FanIn.chosenOf r.fanIn.failed r.lockOrder = some d := by
  obtain ⟨c, rest, list⟩ := List.exists_cons_of_ne_nil made
  have single := inv.completions_length_le
  rw [list, List.length_cons] at single
  have restNil : rest = [] := List.eq_nil_of_length_eq_zero (by omega)
  have nothingOwed : r.ops.filterMap FanInOp.owed = [] :=
    List.eq_nil_of_length_eq_zero (by omega)
  have chosen := inv.once
  rw [list, restNil, nothingOwed] at chosen
  have all : r.lockOrder.length = results.length := by
    by_contra short
    rw [if_neg short] at chosen
    cases chosen.eq_nil
  rw [if_pos all] at chosen
  have total := inv.calls.length_eq
  rw [List.length_append] at total
  have nothingWaits : r.ops.filterMap FanInOp.waiting = [] :=
    List.eq_nil_of_length_eq_zero (by omega)
  have calls := inv.calls
  rw [nothingWaits, List.append_nil] at calls
  refine ⟨c.2, ?_, calls, ?_⟩
  · rw [list, restNil, ← inv.completed c (by rw [list]; exact List.mem_cons_self)]
  · rw [← inv.fanIn.chosen]
    have only : r.fanIn.chosen.toList = [c.2] := List.perm_singleton.mp chosen.symm
    cases taken : r.fanIn.chosen with
    | none =>
        rw [taken] at only
        cases only
    | some d =>
        rw [taken] at only
        cases only
        rfl

/-- When no operation is left, the original callback has been called. -/
theorem Inv.completions_ne_nil {r : FanInRun} (inv : r.Inv tp done results)
    (some : results ≠ []) (finished : r.ops = []) : r.completions ≠ [] := by
  intro nothing
  have calls := inv.calls
  rw [finished, List.filterMap_nil, List.append_nil] at calls
  have once := inv.once
  rw [finished, nothing, if_pos calls.length_eq] at once
  have none : FanIn.chosenOf r.fanIn.failed r.lockOrder = none := by
    rw [← inv.fanIn.chosen]
    exact Option.toList_eq_nil_iff.mp once.symm.eq_nil
  rw [FanIn.chosenOf_eq_none none] at calls
  exact some calls.symm.eq_nil

/-- An item split into two or more chunks. However its callbacks are spread over goroutines
and whatever they receive, every run ends within one step per chunk and one more, and the
original callback is called once, after the last of them, with the first result in lock
order that fails the item's partition, or with the first result if none does. -/
theorem split_item_completes_once {W : Type} [RoutedBatch W] {batchMaxBytes : Nat}
    {p : Promised W Callback} {calls : List (List Delivery)} {schedule : List Nat} {r : FanInRun}
    (split : 2 ≤ (splitByMaxBytes p.item batchMaxBytes).length)
    (each : calls.flatten.length = (splitByMaxBytes p.item batchMaxBytes).length)
    (runs : Machine.run step (start (ClusterBuffer.newFanIn batchMaxBytes p) calls) schedule =
      some r) :
    schedule.length ≤ calls.flatten.length + 1 ∧
      (r.ops ≠ [] → ∃ t r', r.step t = some r') ∧
      (r.ops = [] → r.completions ≠ []) ∧
      (r.completions ≠ [] → ∃ d, r.completions = [(p.done, d)] ∧
        r.lockOrder.Perm calls.flatten ∧
        (r.lockOrder.find? fun e =>
          (recordErrFromResult e.res (getTopicPartition p.item)).isSome).or
            r.lockOrder.head? = some d ∧
        ((recordErrFromResult d.res (getTopicPartition p.item)).isSome ↔
          ∃ e ∈ calls.flatten, (recordErrFromResult e.res (getTopicPartition p.item)).isSome)) := by
  have start := inv_start split each
  have inv : r.Inv (getTopicPartition p.item) p.done calls.flatten :=
    Machine.invariant_run_all (Inv (getTopicPartition p.item) p.done calls.flatten)
      (fun _ _ _ inv stepped => inv.step stepped) start runs
  refine ⟨?_, exists_step, ?_, ?_⟩
  · have bound := Machine.length_run_le (Inv (getTopicPartition p.item) p.done calls.flatten)
      (fuel calls.flatten) (fun _ _ _ inv stepped => inv.step stepped)
      (fun _ _ _ inv stepped => inv.fuel_lt stepped) start runs
    simp only [fuel, FanInRun.start, List.length_nil, Nat.sub_zero] at bound
    omega
  · apply inv.completions_ne_nil
    intro empty
    rw [empty, List.length_nil] at each
    omega
  · intro made
    obtain ⟨d, completions, perm, chosen⟩ := inv.of_completions made
    have failed : r.fanIn.failed =
        fun e => (recordErrFromResult e.res (getTopicPartition p.item)).isSome := by
      funext e
      rw [FanIn.failed, inv.fanIn.tp]
    rw [failed] at chosen
    refine ⟨d, completions, perm, chosen, ?_⟩
    rw [FanIn.failed_chosenOf chosen]
    constructor
    · rintro ⟨e, mem, fails⟩
      exact ⟨e, perm.mem_iff.mp mem, fails⟩
    · rintro ⟨e, mem, fails⟩
      exact ⟨e, perm.mem_iff.mpr mem, fails⟩

/-- Two chunks, of which the second takes the lock first and was acknowledged. -/
theorem split_item_completes_once_closed :
    let p : Promised RoutedTopicPartitionRecords Callback :=
      ⟨⟨"t", 0, [{ topic := "t" }, { topic := "t" }], 1, .healthy⟩, .wrapped 0⟩
    let acked : Delivery := ⟨{ resp := some { topics := [⟨"t", 0, [⟨0, 0⟩]⟩] } }, .flush 0 0⟩
    let closed : Delivery := ⟨{ err := some .errBufferClosed }, .closed⟩
    ∃ r, Machine.run step (start (ClusterBuffer.newFanIn 72 p) [[closed], [acked]]) [1, 0, 0] =
        some r ∧
      ∃ d, r.completions = [(.wrapped 0, d)] ∧ (recordErrFromResult d.res ⟨"t", 0⟩).isSome := by
  intro p acked closed
  have runs : Machine.run step (start (ClusterBuffer.newFanIn 72 p) [[closed], [acked]])
      [1, 0, 0] = some ⟨⟨.wrapped 0, ⟨"t", 0⟩, 0, some closed, false⟩, [[], []], [acked, closed],
        [(.wrapped 0, closed)]⟩ := by decide
  obtain ⟨_, _, ends, once⟩ := split_item_completes_once (by decide) (by decide) runs
  obtain ⟨d, completed, _, _, fails⟩ := once (ends rfl)
  exact ⟨_, runs, d, completed, fails.mpr ⟨closed, by simp, rfl⟩⟩

end FanInRun

end Warpstream
