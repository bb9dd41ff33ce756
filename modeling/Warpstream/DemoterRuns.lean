import Warpstream.DemoterCandidates
import Warpstream.Lib.EventLog

set_option autoImplicit false

/- Concurrent `Candidates` and `Refresh` calls of one Demoter. Their operations interleave
in any order, and the clock, the tracker and the wrapped strategy answer anything. -/
namespace Warpstream

abbrev DemoterThreads := Threads DemoterState DemoterOp DemoterOp.Ret Unit

inductive DemoterAction where
  | candidates (tp : TopicPartition) (maxCandidates : Nat)
  | refresh (currentAgents : List Int)
  | run (i : Nat) (input : DemoterInput)

def DemoterThreads.step (cfg : DemoterConfig) (health : HealthCheckConfig) (s : DemoterThreads) :
    DemoterAction → Option DemoterThreads
  | .candidates tp maxCandidates => some (s.start do
      let _ ← Demoter.candidatesWithRoute health tp maxCandidates)
  | .refresh currentAgents => some (s.start (Demoter.refresh currentAgents))
  | .run i input => s.run (fun o input d => some (o.handle cfg input d)) i input

namespace DemoterState

/-- What an operation can do to the map. -/
inductive Does (cfg : DemoterConfig) (d : DemoterState) : DemoterOp → DemoterEvent → Prop where
  | demote (id : Int) (stats : AgentStats) (cs : ClusterStats)
      (healthy : id ∉ d.lastDemotedProbe) :
      Does cfg d (.classify id stats cs) (.transition .demoted id)
  | restore (id : Int) (stats : AgentStats) (cs : ClusterStats)
      (demoted : id ∈ d.lastDemotedProbe) :
      Does cfg d (.classify id stats cs) (.transition .restored id)
  | probe (now : Time) (id : Int) (due : d.probeDue cfg now id = true) :
      Does cfg d (.shouldProbe now id) (.probe id now)
  | force (now : Time) (id : Int) : Does cfg d (.forceProbe now id) (.forced id now)
  | prune (currentAgents ids : List Int) : Does cfg d (.prune currentAgents) (.pruned ids)

theorem handle_cases (cfg : DemoterConfig) (o : DemoterOp) (input : DemoterInput)
    (d : DemoterState) :
    (o.handle cfg input d).2 = d ∨
      ∃ e, d.Does cfg o e ∧ (o.handle cfg input d).2 = d.record e := by
  cases o with
  | clock => exact Or.inl rfl
  | clusterStats now slow faulty => exact Or.inl rfl
  | candidatesOf tp n => exact Or.inl rfl
  | agentStats now id => exact Or.inl rfl
  | classify id stats cs =>
      simp only [DemoterOp.handle, classify]
      split
      · rename_i new
        exact Or.inr ⟨_, .demote id stats cs new.2, rfl⟩
      · split
        · rename_i recovered
          exact Or.inr ⟨_, .restore id stats cs recovered.1, rfl⟩
        · exact Or.inl rfl
  | shouldProbe now id =>
      simp only [DemoterOp.handle, shouldProbe]
      split
      · rename_i due
        exact Or.inr ⟨_, .probe now id due, rfl⟩
      · exact Or.inl rfl
  | forceProbe now id => exact Or.inr ⟨_, .force now id, rfl⟩
  | prune agents => exact Or.inr ⟨_, .prune agents _, rfl⟩

end DemoterState

/-- The operation that a step of a thread performs, and what it does. -/
theorem DemoterThreads.step_cases {cfg : DemoterConfig} {health : HealthCheckConfig}
    {s s' : DemoterThreads} {a : DemoterAction} (stepped : s.step cfg health a = some s') :
    s'.shared = s.shared ∨
      ∃ i input o e, a = .run i input ∧ s.next i = some o ∧ s.shared.Does cfg o e ∧
        s'.shared = s.shared.record e := by
  cases a with
  | candidates tp n =>
      left
      rw [← Option.some.inj stepped]
      rfl
  | refresh agents =>
      left
      rw [← Option.some.inj stepped]
      rfl
  | run i input =>
      rw [step] at stepped
      obtain ⟨o, next, r, found, handled, rfl⟩ := Threads.run_eq_some stepped
      obtain rfl := Option.some.inj handled
      rcases DemoterState.handle_cases cfg o input s.shared with same | ⟨e, does, recorded⟩
      · exact Or.inl same
      · exact Or.inr ⟨i, input, o, e, rfl, Threads.next_eq_some found, does, recorded⟩

section Probes

/-- A probe is due only if the interval has passed: the range of a duration plays no role. -/
theorem DemoterState.since_of_probeDue {cfg : DemoterConfig} {d : DemoterState} {now t : Time}
    {id : Int} (due : d.probeDue cfg now id = true)
    (found : d.lastDemotedProbe.lookup id = some t) : cfg.probeInterval ≤ now.since t := by
  have positive := cfg.positive
  have old := of_decide_eq_true due
  rw [lastProbe, found, Option.getD_some] at old
  unfold Time.sub at old
  unfold Time.since
  omega

/-- Events that end a probe interval of an agent: another probe, a restore or a prune. -/
def DemoterEvent.ends (id : Int) : DemoterEvent → Bool
  | .transition .demoted _ => false
  | .transition .restored nodeID => nodeID = id
  | .probe nodeID _ => nodeID = id
  | .forced nodeID _ => nodeID = id
  | .pruned nodeIDs => id ∈ nodeIDs

structure DemoterState.Spaced (cfg : DemoterConfig) (d : DemoterState) : Prop where
  last : ∀ id t before middle, d.events = before ++ .probe id t :: middle →
    (∀ e ∈ middle, e.ends id = false) → d.lastDemotedProbe.lookup id = some t
  apart : ∀ id t₁ t₂ before middle after,
    d.events = before ++ .probe id t₁ :: (middle ++ .probe id t₂ :: after) →
    (∀ e ∈ middle, e.ends id = false) → cfg.probeInterval ≤ t₂.since t₁

/-- An event that does not end the interval leaves the entry of a probed agent alone. -/
theorem DemoterState.lookup_record_of_ends {cfg : DemoterConfig} {d : DemoterState}
    {o : DemoterOp} {e : DemoterEvent} {id : Int} {t : Time} (does : d.Does cfg o e)
    (calm : e.ends id = false) (found : d.lastDemotedProbe.lookup id = some t) :
    (d.record e).lastDemotedProbe.lookup id = some t := by
  have mem : id ∈ d.lastDemotedProbe := AList.lookup_isSome.mp (by rw [found]; rfl)
  cases does with
  | demote other stats cs healthy =>
      have ne : id ≠ other := fun same => healthy (same ▸ mem)
      simpa only [record, update, AList.lookup_insert_ne ne] using found
  | restore other stats cs demoted =>
      have ne : id ≠ other := fun same => by simp [DemoterEvent.ends, same] at calm
      simpa only [record, update, AList.lookup_erase_ne ne] using found
  | probe now other due =>
      have ne : id ≠ other := fun same => by simp [DemoterEvent.ends, same] at calm
      simpa only [record, update, AList.lookup_insert_ne ne] using found
  | force now other =>
      have ne : id ≠ other := fun same => by simp [DemoterEvent.ends, same] at calm
      simpa only [record, update, AList.lookup_insert_ne ne] using found
  | prune agents ids =>
      have absent : id ∉ ids := by simpa [DemoterEvent.ends] using calm
      simpa only [record, update, Inserts.lookup_eraseAll, absent, ↓reduceIte] using found

theorem DemoterState.Spaced.record {cfg : DemoterConfig} {d : DemoterState} {o : DemoterOp}
    {e : DemoterEvent} (spaced : d.Spaced cfg) (does : d.Does cfg o e) :
    (d.record e).Spaced cfg := by
  refine ⟨fun id t before middle split calm => ?_, fun id t₁ t₂ before middle after split calm => ?_⟩
  · rcases EventLog.concat_eq_append_cons split with ⟨-, new, -⟩ | ⟨earlier, rfl, old⟩
    · subst new
      exact AList.lookup_insert _
    · have found := spaced.last id t before earlier old
        fun e mem => calm e (List.mem_append_left _ mem)
      exact lookup_record_of_ends does (calm e (by simp)) found
  · rw [← List.cons_append, ← List.append_assoc] at split
    rcases EventLog.concat_eq_append_cons split with ⟨-, new, old⟩ | ⟨later, rfl, old⟩
    · have found := spaced.last id t₁ before middle old calm
      subst new
      cases does with
      | probe now other due => exact since_of_probeDue due found
    · refine spaced.apart id t₁ t₂ before middle later ?_ calm
      rw [old, List.append_assoc, List.cons_append]

/-- A call on the one agent 1, run until the agent is tested. -/
def testOne (i : Nat) (seconds : Int) (errorRate : ℚ) : List DemoterAction :=
  [.candidates ⟨"t", 0⟩ 1,
    .run i { now := .unix seconds },
    .run i { clusterStats := some { faultyThreshold := 1 / 2, faultyContributorsCount := 2 } },
    .run i { candidates := ([{ nodeID := 1 }], .leader) },
    .run i { agentStats := some { errorRate := errorRate, requestCount := 9 } },
    .run i {}]

/-- The second pass of such a call up to `shouldProbe`. -/
def testAgain (i : Nat) (errorRate : ℚ) : List DemoterAction :=
  [.run i { agentStats := some { errorRate := errorRate, requestCount := 9 } }, .run i {}]

/-- The events of a run. -/
def demoterEvents (cfg : DemoterConfig) (health : HealthCheckConfig)
    (actions : List DemoterAction) : Option (List DemoterEvent) :=
  (Machine.run (DemoterThreads.step cfg health) ⟨{}, []⟩ actions).map (·.shared.events)

def twoProbes : List DemoterAction :=
  testOne 0 1000 1 ++ testAgain 0 1 ++ [.run 0 {}] ++
    testOne 1 1002 1 ++ testAgain 1 1 ++ [.run 1 {}]

end Probes

section Edges

/-- The counted transitions of an agent since it was last pruned. -/
def transitionsSincePrune (id : Int) (events : List DemoterEvent) : List Transition :=
  events.foldl (fun counted e =>
    match e with
    | .transition t nodeID => if nodeID = id then counted ++ [t] else counted
    | .pruned nodeIDs => if id ∈ nodeIDs then [] else counted
    | _ => counted) []

theorem transitionsSincePrune_concat (id : Int) (events : List DemoterEvent) (e : DemoterEvent) :
    transitionsSincePrune id (events ++ [e]) =
      match e with
      | .transition t nodeID =>
          if nodeID = id then transitionsSincePrune id events ++ [t]
          else transitionsSincePrune id events
      | .pruned nodeIDs => if id ∈ nodeIDs then [] else transitionsSincePrune id events
      | _ => transitionsSincePrune id events := by
  rw [transitionsSincePrune, List.foldl_append]
  rfl

/-- The transitions of an agent alternate at every point, and the agent is in the map exactly
after a demotion. -/
structure DemoterState.Counted (d : DemoterState) (id : Int) : Prop where
  alternate : ∀ start, start <+: d.events →
    EventLog.Alternates .demoted .restored (transitionsSincePrune id start)
  odd : id ∈ d.lastDemotedProbe ↔ (transitionsSincePrune id d.events).length % 2 = 1

/-- An operation that stamps an agent finds it demoted. -/
def DemoterState.stampsDemoted (cfg : DemoterConfig) (d : DemoterState) : DemoterOp → Bool
  | .shouldProbe now nodeID => ¬ d.probeDue cfg now nodeID ∨ nodeID ∈ d.lastDemotedProbe
  | .forceProbe _ nodeID => nodeID ∈ d.lastDemotedProbe
  | _ => true

/-- The same for a step of a run. -/
def DemoterThreads.stampsDemoted (cfg : DemoterConfig) (s : DemoterThreads) :
    DemoterAction → Bool
  | .run i _ => (s.next i).all (s.shared.stampsDemoted cfg)
  | _ => true

theorem mem_iff_of_lookup {m m' : GoMap Int Time} {id : Int}
    (same : (m'.lookup id).isSome = (m.lookup id).isSome) : id ∈ m' ↔ id ∈ m := by
  rw [← AList.lookup_isSome, ← AList.lookup_isSome, same]

theorem DemoterState.Counted.record {cfg : DemoterConfig} {d : DemoterState} {o : DemoterOp}
    {e : DemoterEvent} {id : Int} (counted : d.Counted id) (does : d.Does cfg o e)
    (stamps : d.stampsDemoted cfg o = true) : (d.record e).Counted id := by
  have now := counted.alternate d.events List.prefix_rfl
  have odd := counted.odd
  -- an event that is not a transition of the agent and keeps it in or out of the map
  have other (same : transitionsSincePrune id (d.events ++ [e]) = transitionsSincePrune id d.events)
      (mem : id ∈ (d.record e).lastDemotedProbe ↔ id ∈ d.lastDemotedProbe) :
      (d.record e).Counted id :=
    ⟨EventLog.forall_prefix_concat counted.alternate (by rw [same]; exact now),
      by rw [mem, odd, DemoterState.record, same]⟩
  cases does with
  | demote nodeID stats cs healthy =>
      by_cases mine : nodeID = id
      · subst mine
        have next : transitionsSincePrune nodeID (d.events ++ [.transition .demoted nodeID]) =
            transitionsSincePrune nodeID d.events ++ [.demoted] := by
          rw [transitionsSincePrune_concat]
          exact if_pos rfl
        have even : (transitionsSincePrune nodeID d.events).length % 2 = 0 := by
          have := mt odd.mpr healthy
          omega
        refine ⟨EventLog.forall_prefix_concat counted.alternate ?_, ?_⟩
        · rw [next]
          exact now.concat (by rw [if_pos even])
        · simp only [DemoterState.record, next, update, AList.mem_insert, true_or, true_iff,
            List.length_append, List.length_singleton]
          omega
      · refine other ?_ (by simp [DemoterState.record, update, Ne.symm mine])
        rw [transitionsSincePrune_concat]
        exact if_neg mine
  | restore nodeID stats cs demoted =>
      by_cases mine : nodeID = id
      · subst mine
        have next : transitionsSincePrune nodeID (d.events ++ [.transition .restored nodeID]) =
            transitionsSincePrune nodeID d.events ++ [.restored] := by
          rw [transitionsSincePrune_concat]
          exact if_pos rfl
        have isOdd := odd.mp demoted
        refine ⟨EventLog.forall_prefix_concat counted.alternate ?_, ?_⟩
        · rw [next]
          exact now.concat (by rw [if_neg (by omega)])
        · simp only [DemoterState.record, next, update, AList.mem_erase, ne_eq, not_true_eq_false,
            false_and, false_iff, List.length_append, List.length_singleton]
          omega
      · refine other ?_ (by simp [DemoterState.record, update, AList.mem_erase, Ne.symm mine])
        rw [transitionsSincePrune_concat]
        exact if_neg mine
  | probe time nodeID due =>
      have mem : nodeID ∈ d.lastDemotedProbe := by
        simpa [DemoterState.stampsDemoted, due] using stamps
      refine other (by rw [transitionsSincePrune_concat]) ?_
      rw [DemoterState.record, update, AList.mem_insert]
      exact or_iff_right_of_imp fun same => same ▸ mem
  | force time nodeID =>
      have mem : nodeID ∈ d.lastDemotedProbe := by
        simpa [DemoterState.stampsDemoted] using stamps
      refine other (by rw [transitionsSincePrune_concat]) ?_
      rw [DemoterState.record, update, AList.mem_insert]
      exact or_iff_right_of_imp fun same => same ▸ mem
  | prune agents ids =>
      by_cases gone : id ∈ ids
      · have next : transitionsSincePrune id (d.events ++ [.pruned ids]) = [] := by
          rw [transitionsSincePrune_concat]
          exact if_pos gone
        refine ⟨EventLog.forall_prefix_concat counted.alternate (by rw [next]; trivial), ?_⟩
        rw [← AList.lookup_isSome]
        simp [DemoterState.record, next, update, Inserts.lookup_eraseAll, gone]
      · refine other ?_ (mem_iff_of_lookup ?_)
        · rw [transitionsSincePrune_concat]
          exact if_neg gone
        · rw [DemoterState.record, update, Inserts.lookup_eraseAll, if_neg gone]

/-- In every run in which an agent is stamped only while it is demoted, its counted
transitions alternate between prunes, starting with a demotion. -/
theorem demoter_edges_alternate {cfg : DemoterConfig} {health : HealthCheckConfig}
    {actions : List DemoterAction} {s : DemoterThreads}
    (stamps : Machine.along (DemoterThreads.step cfg health) (DemoterThreads.stampsDemoted cfg)
      ⟨{}, []⟩ actions = true)
    (runs : Machine.run (DemoterThreads.step cfg health) ⟨{}, []⟩ actions = some s) (id : Int)
    (start : List DemoterEvent) (points : start <+: s.shared.events) :
    EventLog.Alternates .demoted .restored (transitionsSincePrune id start) := by
  have counted : s.shared.Counted id := by
    refine Machine.invariant_along (fun s : DemoterThreads => s.shared.Counted id) stamps ?_ ?_ runs
    · intro s a s' counted allowed stepped
      rcases DemoterThreads.step_cases stepped with
        same | ⟨i, input, o, e, rfl, next, does, recorded⟩
      · exact same ▸ counted
      · rw [DemoterThreads.stampsDemoted, next, Option.all_some] at allowed
        exact recorded ▸ counted.record does allowed
    · refine ⟨fun start points => ?_, by simp [transitionsSincePrune]⟩
      rw [List.prefix_nil.mp points]
      trivial
  exact counted.alternate start points

theorem demoter_edges_alternate_two :
    ∃ s, Machine.run (DemoterThreads.step everySecond halfFaulty) ⟨{}, []⟩ twoProbes = some s ∧
      EventLog.Alternates .demoted .restored (transitionsSincePrune 1 s.shared.events) := by
  have ran : (Machine.run (DemoterThreads.step everySecond halfFaulty) ⟨{}, []⟩
      twoProbes).isSome = true := by decide +kernel
  obtain ⟨s, runs⟩ := Option.isSome_iff_exists.mp ran
  exact ⟨s, runs, demoter_edges_alternate (by decide +kernel) runs 1 _ List.prefix_rfl⟩

/-- The first call finds the agent faulty and is about to probe it when the second call
restores it. The stamp of the probe puts the agent back into the map without a demotion, and
the third call counts a second recovery. -/
def restoredBeforeStamp : List DemoterAction :=
  testOne 0 1000 1 ++ testAgain 0 1 ++ testOne 1 1001 0 ++ [.run 0 {}] ++ testOne 2 1002 0

theorem demoter_edges_restored_twice :
    ∃ s, Machine.run (DemoterThreads.step everySecond halfFaulty) ⟨{}, []⟩ restoredBeforeStamp =
        some s ∧
      transitionsSincePrune 1 s.shared.events = [.demoted, .restored, .restored] ∧
      ¬ EventLog.Alternates .demoted .restored (transitionsSincePrune 1 s.shared.events) := by
  have log : (demoterEvents everySecond halfFaulty restoredBeforeStamp).map
      (transitionsSincePrune 1) = some [.demoted, .restored, .restored] := by decide +kernel
  obtain ⟨events, found, counted⟩ := Option.map_eq_some_iff.mp log
  obtain ⟨s, runs, rfl⟩ := Option.map_eq_some_iff.mp found
  exact ⟨s, runs, counted, by rw [counted]; decide⟩

end Edges

end Warpstream
