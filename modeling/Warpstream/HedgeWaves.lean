import Warpstream.ClusterBufferGroups
import Warpstream.HedgerOutcome

set_option autoImplicit false

/- The cascades of concurrent `ProduceSync` calls that share one hedge buffer: every wave
adds its groups to the buffer, and the callback of a group sends the first result it is
called with to the wave's channel. -/
namespace Warpstream

/-- The items that a wave adds for a leg. -/
def HedgeLeg.items (leg : HedgeLeg) : List RoutedEncodedTopicPartitionRecords :=
  unpromise (newMultiRoutedEncodedTopicPartitionRecords leg.parts leg.agent ())

/-- What `legDone` captures: the call, the context of its wave, and its group. -/
structure SentLeg where
  call : Nat
  ctx : Nat
  leg : HedgeLeg
deriving DecidableEq

def SentLeg.group (s : SentLeg) : Group RoutedEncodedTopicPartitionRecords :=
  ⟨s.ctx, s.leg.agent, s.leg.items⟩

/-- A `legDone`. `sent` is what its `once` has let through, `collected` whether the wave
has read it. -/
structure LegDone where
  owner : SentLeg
  sent : Option Delivery := none
  collected : Bool := false
deriving DecidableEq

namespace LegDone

/-- The original callback of an item runs. Every wave has its own context and one group
for each agent, so the two tell whose callback it is. -/
def fire (l : LegDone) (it : Item RoutedEncodedTopicPartitionRecords) (d : Delivery) : LegDone :=
  if it.ctx = some l.owner.ctx ∧ it.item.nodeID = l.owner.leg.agent ∧ l.sent = none then
    { l with sent := some d }
  else l

def collect (owner : SentLeg) (l : LegDone) : LegDone :=
  if l.owner = owner then { l with collected := true } else l

@[simp] theorem fire_owner (l : LegDone) (it : Item RoutedEncodedTopicPartitionRecords)
    (d : Delivery) : (l.fire it d).owner = l.owner := by
  unfold fire
  split <;> rfl

@[simp] theorem fire_collected (l : LegDone) (it : Item RoutedEncodedTopicPartitionRecords)
    (d : Delivery) : (l.fire it d).collected = l.collected := by
  unfold fire
  split <;> rfl

@[simp] theorem collect_owner (owner : SentLeg) (l : LegDone) : (l.collect owner).owner = l.owner := by
  unfold collect
  split <;> rfl

@[simp] theorem collect_sent (owner : SentLeg) (l : LegDone) : (l.collect owner).sent = l.sent := by
  unfold collect
  split <;> rfl

end LegDone

/-- The cascade of one call. `attemptCtx` is the context of its last wave. -/
structure HedgeCall where
  cfg : HedgeConfig
  cascade : Cascade
  workCtx : Nat
  attemptCtx : Nat

/-- The hedge buffer, the calls and their legs. -/
structure HedgeRun where
  run : ClusterRun RoutedEncodedTopicPartitionRecords
  calls : List HedgeCall := []
  legs : List LegDone := []
  nextCtx : Nat := 0

inductive HedgeAction where
  /-- `runHedgingAttempts` is called -/
  | call (cfg : HedgeConfig)
  | wave (call : Nat) (order : List EncodedTopicPartitionRecords) (legs : List HedgeLeg)
  /-- the wave reads the result of a leg from its channel -/
  | legResult (call i : Nat)
  | ctxDone (call : Nat)
  | leaveLoop (call : Nat)
  | buffer (action : ClusterAction RoutedEncodedTopicPartitionRecords)

namespace HedgeRun

def init (batchMaxBytes : Nat) : HedgeRun := { run := ClusterRun.init batchMaxBytes }

def begin (r : HedgeRun) (cfg : HedgeConfig) (cascade : Cascade) : HedgeRun :=
  { r with
    calls := r.calls ++ [⟨cfg, cascade, r.nextCtx, r.nextCtx⟩]
    nextCtx := r.nextCtx + 1 }

def setCascade (r : HedgeRun) (q : Nat) (call : HedgeCall) (cascade : Cascade) : HedgeRun :=
  { r with calls := r.calls.set q { call with cascade := cascade } }

/-- A wave makes its context and the callbacks of its groups and adds the groups one after
the other. -/
def dispatch (r : HedgeRun) (q : Nat) (call : HedgeCall) (cascade : Cascade)
    (legs : List HedgeLeg) : HedgeRun :=
  { run := r.run.spawn [legs.map fun leg => .multiAdd (some r.nextCtx) leg.items []]
    calls := r.calls.set q { call with cascade := cascade, attemptCtx := r.nextCtx }
    legs := r.legs ++ legs.map fun leg => { owner := ⟨q, r.nextCtx, leg⟩ }
    nextCtx := r.nextCtx + 1 }

def collect (r : HedgeRun) (q : Nat) (call : HedgeCall) (cascade : Cascade) (owner : SentLeg) :
    HedgeRun :=
  { r.setCascade q call cascade with legs := r.legs.map (LegDone.collect owner) }

/-- The legs once the buffer has taken a step. -/
def deliver (r : HedgeRun) (action : ClusterAction RoutedEncodedTopicPartitionRecords) :
    List LegDone :=
  match action with
  | .run task _ =>
      match r.run.tasks[task]? with
      | some (.origDone i d :: _) =>
          match r.run.buffer.items[i]? with
          | some it => r.legs.map fun l => l.fire it d
          | none => r.legs
      | _ => r.legs
  | _ => r.legs

def step [Snappy] (r : HedgeRun) : HedgeAction → Option HedgeRun
  | .call cfg =>
      match Cascade.start cfg with
      | .ok cascade => some (r.begin cfg cascade)
      | .error _ => none
  | .wave q order legs => do
      let call ← r.calls[q]?
      let cascade ← call.cascade.step call.cfg (r.run.ctxErr call.workCtx) (.wave order legs)
      if cascade.phase = .collecting then some (r.dispatch q call cascade legs)
      else some (r.setCascade q call cascade)
  | .legResult q i => do
      let call ← r.calls[q]?
      let leg ← call.cascade.waiting[i]?
      let l ← r.legs.find? fun l => l.owner = ⟨q, call.attemptCtx, leg⟩
      let d ← l.sent
      let cascade ← call.cascade.step call.cfg none (.legResult i d.res)
      some (r.collect q call cascade l.owner)
  | .ctxDone q => do
      let call ← r.calls[q]?
      let cascade ← call.cascade.step call.cfg (r.run.ctxErr call.attemptCtx) .ctxDone
      some (r.setCascade q call cascade)
  | .leaveLoop q => do
      let call ← r.calls[q]?
      let cascade ← call.cascade.step call.cfg (r.run.ctxErr call.workCtx) .leaveLoop
      some (r.setCascade q call cascade)
  | .buffer action =>
      if action.isInternal then
        (r.run.step action).map fun run => { r with run := run, legs := r.deliver action }
      else none

/-- What each action does, case by case. -/
inductive Steps [Snappy] (r : HedgeRun) : HedgeAction → HedgeRun → Prop where
  | call (cfg : HedgeConfig) (cascade : Cascade) (started : Cascade.start cfg = .ok cascade) :
      Steps r (.call cfg) (r.begin cfg cascade)
  | dispatch (q : Nat) (call : HedgeCall) (order : List EncodedTopicPartitionRecords)
      (legs : List HedgeLeg) (tried : GoMap TopicPartition (List Int))
      (chosen : List (Int × EncodedTopicPartitionRecords)) (found : r.calls[q]? = some call)
      (pending : call.cascade.acc.Remaining order)
      (picked : pickCandidates call.cfg call.cascade.tried order = .ok (tried, chosen))
      (grouped : legs.Perm (groupLegs chosen)) :
      Steps r (.wave q order legs) (r.dispatch q call (call.cascade.dispatch tried legs) legs)
  | stop (action : HedgeAction) (q : Nat) (call : HedgeCall) (exhaustion : ProduceStop)
      (unread : ∀ q i, action ≠ .legResult q i) (found : r.calls[q]? = some call) :
      Steps r action (r.setCascade q call (call.cascade.stop exhaustion))
  | legResult (q i : Nat) (call : HedgeCall) (leg : HedgeLeg) (l : LegDone) (d : Delivery)
      (found : r.calls[q]? = some call) (waits : call.cascade.waiting[i]? = some leg)
      (mem : l ∈ r.legs) (owner : l.owner = ⟨q, call.attemptCtx, leg⟩) (sent : l.sent = some d) :
      Steps r (.legResult q i) (r.collect q call (call.cascade.receive i leg d.res) l.owner)
  | buffer (action : ClusterAction RoutedEncodedTopicPartitionRecords)
      (run : ClusterRun RoutedEncodedTopicPartitionRecords) (internal : action.isInternal = true)
      (stepped : r.run.step action = some run) :
      Steps r (.buffer action) { r with run := run, legs := r.deliver action }

theorem steps_of_step [Snappy] {r r' : HedgeRun} {action : HedgeAction}
    (stepped : r.step action = some r') : Steps r action r' := by
  cases action with
  | call cfg =>
      simp only [step] at stepped
      split at stepped
      · obtain rfl := Option.some.inj stepped
        exact .call cfg _ ‹_›
      · cases stepped
  | wave q order legs =>
      simp only [step, Option.bind_eq_bind, Option.bind_eq_some_iff] at stepped
      obtain ⟨call, found, cascade, moved, eq⟩ := stepped
      simp only [Cascade.step] at moved
      split at moved
      · rename_i enabled
        split at moved
        · obtain rfl := Option.some.inj moved
          obtain rfl := Option.some.inj eq
          exact .stop _ q call _ (by simp) found
        · split at moved
          · obtain rfl := Option.some.inj moved
            obtain rfl := Option.some.inj eq
            exact .stop _ q call _ (by simp) found
          · split at moved
            · obtain rfl := Option.some.inj moved
              obtain rfl := Option.some.inj eq
              exact .dispatch q call order legs _ _ found enabled.2.2 ‹_› ‹_›
            · cases moved
      · cases moved
  | legResult q i =>
      simp only [step, Option.bind_eq_bind, Option.bind_eq_some_iff] at stepped
      obtain ⟨call, found, leg, waits, l, place, d, sent, cascade, moved, eq⟩ := stepped
      obtain rfl := Option.some.inj eq
      simp only [Cascade.step] at moved
      split at moved
      · obtain ⟨leg', waits', rfl⟩ := Option.map_eq_some_iff.mp moved
        obtain rfl := Option.some.inj (waits.symm.trans waits')
        have owner : l.owner = ⟨q, call.attemptCtx, leg⟩ := by
          simpa using List.find?_some place
        exact .legResult q i call leg l d found waits (List.mem_of_find?_eq_some place) owner sent
      · cases moved
  | ctxDone q =>
      simp only [step, Option.bind_eq_bind, Option.bind_eq_some_iff] at stepped
      obtain ⟨call, found, cascade, moved, eq⟩ := stepped
      obtain rfl := Option.some.inj eq
      simp only [Cascade.step] at moved
      split at moved
      · obtain rfl := Option.some.inj moved
        exact .stop _ q call _ (by simp) found
      · cases moved
  | leaveLoop q =>
      simp only [step, Option.bind_eq_bind, Option.bind_eq_some_iff] at stepped
      obtain ⟨call, found, cascade, moved, eq⟩ := stepped
      obtain rfl := Option.some.inj eq
      simp only [Cascade.step] at moved
      split at moved
      · obtain rfl := Option.some.inj moved
        exact .stop _ q call _ (by simp) found
      · cases moved
  | buffer action =>
      simp only [step] at stepped
      split at stepped
      · obtain ⟨run, moved, rfl⟩ := Option.map_eq_some_iff.mp stepped
        exact .buffer action run ‹_› moved
      · cases stepped

end HedgeRun

end Warpstream
