import Mathlib.Data.List.TakeWhile
import Warpstream.Demoter

set_option autoImplicit false

/- What one `Candidates` call of the Demoter returns when the tracker and the wrapped
strategy do not change during the call. -/
namespace Warpstream

theorem errorRateMinRequests_pos {cs : ClusterStats} (positive : 0 < cs.faultyThreshold) :
    1 ≤ errorRateMinRequests cs := by
  have gate : minFilledBuckets = 2 := rfl
  unfold errorRateMinRequests
  rw [if_neg (not_le.mpr positive)]
  dsimp only
  split <;> omega

/-- The probe times that were written, in order. -/
def stamps (events : List DemoterEvent) : List (Int × Time) :=
  events.filterMap fun
    | .probe id now => some (id, now)
    | .forced id now => some (id, now)
    | _ => none

namespace DemoterState

section Classify

variable (d : DemoterState) (id : Int) (stats : AgentStats) (cs : ClusterStats)

theorem classify_fst : (d.classify id stats cs).1 = d.isFaulty id stats cs := by
  unfold classify
  dsimp only
  split
  · rfl
  · split <;> rfl

/-- After its test an agent is in the map exactly if it is faulty. -/
theorem lookup_classify (other : Int) :
    (d.classify id stats cs).2.lastDemotedProbe.lookup other =
      if other = id then
        if d.isFaulty id stats cs then some (d.lastProbe id) else none
      else d.lastDemotedProbe.lookup other := by
  unfold classify
  dsimp only
  split
  · rename_i new
    by_cases same : other = id
    · subst same
      simp [record, update, new.1, lastProbe, AList.lookup_eq_none.mpr new.2]
    · simp [record, update, same, AList.lookup_insert_ne same]
  · rename_i notNew
    split
    · rename_i recovered
      by_cases same : other = id
      · subst same
        simp [record, update, recovered.2, AList.lookup_erase]
      · simp [record, update, same, AList.lookup_erase_ne same]
    · rename_i notRecovered
      by_cases same : other = id
      · subst same
        by_cases faulty : d.isFaulty other stats cs = true
        · have mem : other ∈ d.lastDemotedProbe := by tauto
          obtain ⟨t, found⟩ := Option.isSome_iff_exists.mp (AList.lookup_isSome.mpr mem)
          simp [faulty, lastProbe, found]
        · have absent : other ∉ d.lastDemotedProbe := by tauto
          simp [faulty, AList.lookup_eq_none.mpr absent]
      · simp [same]

theorem stamps_classify : stamps (d.classify id stats cs).2.events = stamps d.events := by
  unfold classify
  dsimp only
  split
  · simp [record, stamps]
  · split
    · simp [record, stamps]
    · rfl

theorem isFaulty_iff : d.isFaulty id stats cs = true ↔
    (if id ∈ d.lastDemotedProbe then 1 else errorRateMinRequests cs) ≤ stats.requestCount ∧
      cs.faultyThreshold < stats.errorRate :=
  decide_eq_true_iff

/-- Testing an agent again changes nothing: the number of requests that the hysteresis asks
for is one in the one case and at least one in the other. -/
theorem isFaulty_of_tested {d d' : DemoterState} {id : Int} {stats : AgentStats}
    {cs : ClusterStats} (positive : 0 < cs.faultyThreshold)
    (tested : id ∈ d'.lastDemotedProbe ↔ d.isFaulty id stats cs = true) :
    d'.isFaulty id stats cs = d.isFaulty id stats cs := by
  have least := errorRateMinRequests_pos positive
  rw [Bool.eq_iff_iff, isFaulty_iff d']
  constructor
  · rintro ⟨enough, above⟩
    by_cases mem : id ∈ d'.lastDemotedProbe
    · exact tested.mp mem
    · rw [if_neg mem] at enough
      refine (isFaulty_iff d id stats cs).mpr ⟨le_trans ?_ enough, above⟩
      split <;> omega
  · intro faulty
    obtain ⟨enough, above⟩ := (isFaulty_iff d id stats cs).mp faulty
    rw [if_pos (tested.mpr faulty)]
    refine ⟨le_trans ?_ enough, above⟩
    split <;> omega

theorem isFaulty_congr {d d' : DemoterState} {id : Int} {stats : AgentStats} {cs : ClusterStats}
    (same : d'.lastDemotedProbe.lookup id = d.lastDemotedProbe.lookup id) :
    d'.isFaulty id stats cs = d.isFaulty id stats cs := by
  have mem : id ∈ d'.lastDemotedProbe ↔ id ∈ d.lastDemotedProbe := by
    rw [← AList.lookup_isSome, ← AList.lookup_isSome, same]
  simp only [isFaulty, mem]

end Classify

section Settled

variable (agentStats : Int → Option AgentStats) (cs : ClusterStats)

/-- The result of `isDemoted` in a state, for a fixed reading of the tracker. -/
def isDemoted (d : DemoterState) (id : Int) : Bool :=
  (agentStats id).any fun stats => d.isFaulty id stats cs

/-- The entry of an agent after its test. -/
def afterTest (d : DemoterState) (id : Int) : Option Time :=
  if (agentStats id).isNone then d.lastDemotedProbe.lookup id
  else if d.isDemoted agentStats cs id then some (d.lastProbe id)
  else none

/-- `d'` is `d` after tests of some agents and the stamp of at most one demoted agent. -/
structure Settled (now : Time) (d : DemoterState) (stamped : Option Int) (d' : DemoterState) :
    Prop where
  stamp : ∀ id, stamped = some id →
    d'.lastDemotedProbe.lookup id = some now ∧ d.isDemoted agentStats cs id = true
  others : ∀ id, stamped ≠ some id →
    d'.lastDemotedProbe.lookup id = d.lastDemotedProbe.lookup id ∨
      d'.lastDemotedProbe.lookup id = d.afterTest agentStats cs id
  stamps : stamps d'.events = stamps d.events ++ stamped.toList.map fun id => (id, now)

/-- One `isDemoted` call. -/
def test (d : DemoterState) (id : Int) : Bool × DemoterState :=
  match agentStats id with
  | none => (false, d)
  | some stats => d.classify id stats cs

variable {agentStats : Int → Option AgentStats} {cs : ClusterStats} {now : Time}
  {d d' : DemoterState} {stamped : Option Int}

theorem Settled.refl : Settled agentStats cs now d none d :=
  ⟨nofun, fun _ _ => Or.inl rfl, by simp⟩

theorem Settled.isFaulty_eq (settled : Settled agentStats cs now d stamped d')
    (positive : 0 < cs.faultyThreshold) {id : Int} {stats : AgentStats}
    (available : agentStats id = some stats) :
    d'.isFaulty id stats cs = d.isFaulty id stats cs := by
  have demoted : d.isDemoted agentStats cs id = d.isFaulty id stats cs := by
    simp [isDemoted, available]
  by_cases mine : stamped = some id
  · obtain ⟨found, faulty⟩ := settled.stamp id mine
    refine isFaulty_of_tested positive ⟨fun _ => by rw [← demoted, faulty], fun _ => ?_⟩
    rw [← AList.lookup_isSome, found, Option.isSome_some]
  · rcases settled.others id mine with same | tested
    · exact isFaulty_congr same
    · refine isFaulty_of_tested positive ?_
      rw [← AList.lookup_isSome, tested, afterTest, available, demoted]
      by_cases faulty : d.isFaulty id stats cs = true
      · simp [faulty]
      · simp [faulty]

theorem Settled.isDemoted_eq (settled : Settled agentStats cs now d stamped d')
    (positive : 0 < cs.faultyThreshold) (id : Int) :
    d'.isDemoted agentStats cs id = d.isDemoted agentStats cs id := by
  unfold isDemoted
  cases available : agentStats id with
  | none => rfl
  | some stats => exact settled.isFaulty_eq positive available

/-- A demoted agent keeps its last probe. -/
theorem Settled.lastProbe_eq (settled : Settled agentStats cs now d none d') {id : Int}
    (demoted : d.isDemoted agentStats cs id = true) : d'.lastProbe id = d.lastProbe id := by
  unfold lastProbe
  rcases settled.others id nofun with same | tested
  · rw [same]
  · rw [tested, afterTest, demoted]
    split
    · rfl
    · rfl

theorem test_fst (id : Int) : (d.test agentStats cs id).1 = d.isDemoted agentStats cs id := by
  unfold test isDemoted
  split
  · rename_i missing
    rw [missing]
    rfl
  · rename_i stats available
    rw [available]
    exact classify_fst d id stats cs

theorem Settled.test (settled : Settled agentStats cs now d stamped d')
    (positive : 0 < cs.faultyThreshold) (id : Int) :
    Settled agentStats cs now d stamped (d'.test agentStats cs id).2 := by
  unfold DemoterState.test
  split
  · exact settled
  rename_i stats available
  have demoted : d.isDemoted agentStats cs id = d'.isFaulty id stats cs := by
    rw [settled.isFaulty_eq positive available]
    simp [isDemoted, available]
  refine ⟨fun other mine => ?_, fun other notMine => ?_, ?_⟩
  · obtain ⟨found, faulty⟩ := settled.stamp other mine
    refine ⟨?_, faulty⟩
    rw [lookup_classify]
    by_cases same : other = id
    · subst same
      simp [← demoted, faulty, DemoterState.lastProbe, found]
    · simp [same, found]
  · rw [lookup_classify]
    by_cases same : other = id
    · subst same
      right
      rw [if_pos rfl, ← demoted, afterTest, available]
      by_cases faulty : d.isDemoted agentStats cs other = true
      · rcases settled.others other notMine with same | tested
        · simp [faulty, DemoterState.lastProbe, same]
        · simp [faulty, DemoterState.lastProbe, tested, afterTest, available]
      · simp [faulty]
    · rw [if_neg same]
      exact settled.others other notMine
  · rw [stamps_classify, settled.stamps]

theorem Settled.record (settled : Settled agentStats cs now d none d') {id : Int}
    (demoted : d.isDemoted agentStats cs id = true) {e : DemoterEvent}
    (stamp : e = .probe id now ∨ e = .forced id now) :
    Settled agentStats cs now d (some id) (d'.record e) := by
  have written : (d'.record e).lastDemotedProbe = d'.lastDemotedProbe.insert id now := by
    rcases stamp with rfl | rfl <;> rfl
  have logged : Warpstream.stamps (d'.record e).events =
      Warpstream.stamps d'.events ++ [(id, now)] := by
    rcases stamp with rfl | rfl <;> simp [DemoterState.record, Warpstream.stamps]
  refine ⟨fun other mine => ?_, fun other notMine => ?_, ?_⟩
  · obtain rfl := Option.some.inj mine
    exact ⟨by rw [written, AList.lookup_insert], demoted⟩
  · have other_ne : other ≠ id := fun same => notMine (by rw [same])
    rw [written, AList.lookup_insert_ne other_ne]
    exact settled.others other nofun
  · rw [logged, settled.stamps]
    simp

end Settled

end DemoterState

/-- The demoted agents in front whose probe is due: the first of them is probed. -/
def duePrimary (demoted due : Agent → Bool) (agents : List Agent) : Option Agent :=
  (agents.takeWhile demoted).find? due

/-- The due primary, then the agents that are not demoted. -/
def kept (demoted due : Agent → Bool) (n : Nat) (agents : List Agent) : List Agent :=
  (((duePrimary demoted due agents).map (·.cloneWithState .demoted)).toList ++
    agents.filter fun a => ¬ demoted a).take n

/-- The policy of the Demoter, said without its loops. -/
def skipAndProbe (demoted due : Agent → Bool) (n : Nat) (agents : List Agent) : List Agent :=
  if kept demoted due n agents = [] then
    (agents.head?.map (·.cloneWithState .demoted)).toList
  else kept demoted due n agents

/-- The agent that the policy marks. -/
def probedAgent (demoted due : Agent → Bool) (agents : List Agent) : Option Agent :=
  (duePrimary demoted due agents).or (if agents.all demoted then agents.head? else none)

section Policy

variable {demoted due : Agent → Bool} {n : Nat} {agents : List Agent}

theorem duePrimary_eq_some {a : Agent} (found : duePrimary demoted due agents = some a) :
    a ∈ agents ∧ demoted a = true := by
  have mem := List.mem_of_find?_eq_some found
  exact ⟨(List.takeWhile_sublist demoted).mem mem, List.mem_takeWhile_imp mem⟩

theorem probedAgent_eq_some {a : Agent} (found : probedAgent demoted due agents = some a) :
    a ∈ agents ∧ demoted a = true := by
  unfold probedAgent at found
  rcases Option.or_eq_some_iff.mp found with primary | ⟨-, forced⟩
  · exact duePrimary_eq_some primary
  · split at forced
    · rename_i all
      have mem := List.mem_of_head? forced
      exact ⟨mem, List.all_eq_true.mp all a mem⟩
    · cases forced

theorem kept_eq_nil (pos : 1 ≤ n) :
    kept demoted due n agents = [] ↔
      duePrimary demoted due agents = none ∧ agents.all demoted = true := by
  rw [kept, List.take_eq_nil_iff, List.append_eq_nil_iff, Option.toList_eq_nil_iff,
    Option.map_eq_none_iff, List.filter_eq_nil_iff, List.all_eq_true]
  simp only [decide_eq_true_eq, not_not]
  exact or_iff_right (by omega)

theorem probedAgent_eq_duePrimary (pos : 1 ≤ n) (some : kept demoted due n agents ≠ []) :
    probedAgent demoted due agents = duePrimary demoted due agents := by
  unfold probedAgent
  cases found : duePrimary demoted due agents with
  | some a => rfl
  | none =>
      rw [Option.none_or, if_neg]
      exact fun all => some ((kept_eq_nil pos).mpr ⟨found, all⟩)

/-- The marked agent comes first, whether its probe is due or forced. -/
theorem skipAndProbe_eq (pos : 1 ≤ n) :
    skipAndProbe demoted due n agents =
      (((probedAgent demoted due agents).map (·.cloneWithState .demoted)).toList ++
        agents.filter fun a => ¬ demoted a).take n := by
  unfold skipAndProbe
  split
  · rename_i empty
    obtain ⟨notDue, all⟩ := (kept_eq_nil pos).mp empty
    have sick : (agents.filter fun a => ¬ demoted a) = [] := by
      rw [List.filter_eq_nil_iff]
      intro a mem
      simp [List.all_eq_true.mp all a mem]
    rw [probedAgent, notDue, Option.none_or, if_pos all, sick, List.append_nil,
      List.take_of_length_le]
    cases agents with
    | nil => simp
    | cons a rest => simpa using pos
  · rename_i some
    rw [probedAgent_eq_duePrimary pos some, kept]

theorem skipAndProbe_ne_nil (some : agents ≠ []) :
    skipAndProbe demoted due n agents ≠ [] := by
  unfold skipAndProbe
  split
  · cases agents with
    | nil => exact absurd rfl some
    | cons a rest => simp
  · assumption

theorem nodup_skipAndProbe (pos : 1 ≤ n) (distinct : (agents.map (·.nodeID)).Nodup) :
    ((skipAndProbe demoted due n agents).map (·.nodeID)).Nodup := by
  rw [skipAndProbe_eq pos, List.map_take]
  refine List.Nodup.sublist (List.take_sublist _ _) ?_
  have others : ((agents.filter fun a => ¬ demoted a).map (·.nodeID)).Nodup :=
    distinct.sublist (List.filter_sublist.map _)
  cases probed : probedAgent demoted due agents with
  | none => simpa using others
  | some a =>
      obtain ⟨mem, sick⟩ := probedAgent_eq_some probed
      rw [Option.map_some, Option.toList_some, List.singleton_append, List.map_cons,
        List.nodup_cons]
      refine ⟨fun again => ?_, others⟩
      obtain ⟨b, kept, same⟩ := List.mem_map.mp again
      obtain ⟨mem', healthy⟩ := List.mem_filter.mp kept
      obtain rfl := List.inj_on_of_nodup_map distinct mem' mem same
      simp [sick] at healthy

/-- Only the first entry is marked. -/
theorem mem_of_mem_tail_skipAndProbe (pos : 1 ≤ n) {a : Agent}
    (mem : a ∈ (skipAndProbe demoted due n agents).tail) : a ∈ agents := by
  rw [skipAndProbe_eq pos] at mem
  have others : ∀ b ∈ agents.filter fun a => ¬ demoted a, b ∈ agents :=
    fun b kept => (List.mem_filter.mp kept).1
  cases probed : probedAgent demoted due agents with
  | none =>
      rw [probed, Option.map_none, Option.toList_none, List.nil_append] at mem
      exact others a ((List.take_sublist _ _).mem (List.mem_of_mem_tail mem))
  | some b =>
      obtain ⟨m, rfl⟩ := Nat.exists_eq_add_of_le' pos
      rw [probed, Option.map_some, Option.toList_some, List.singleton_append,
        List.take_succ_cons, List.tail_cons] at mem
      exact others a ((List.take_sublist _ _).mem mem)

theorem marked_skipAndProbe (pos : 1 ≤ n) (unmarked : ∀ a ∈ agents, a.state = .healthy) :
    ((skipAndProbe demoted due n agents).filter fun a => a.state = .demoted).map (·.nodeID) =
      ((probedAgent demoted due agents).map (·.nodeID)).toList := by
  have others (m : Nat) : (((agents.filter fun a => ¬ demoted a).take m).filter
      fun a => a.state = .demoted) = [] := by
    rw [List.filter_eq_nil_iff]
    intro b mem
    have kept := (List.take_sublist _ _).mem mem
    simp [unmarked b (List.mem_filter.mp kept).1]
  rw [skipAndProbe_eq pos]
  cases probed : probedAgent demoted due agents with
  | none => simpa using others n
  | some a =>
      obtain ⟨m, rfl⟩ := Nat.exists_eq_add_of_le' pos
      rw [Option.map_some, Option.toList_some, List.singleton_append, List.take_succ_cons,
        List.filter_cons_of_pos (by simp [Agent.cloneWithState]), others m]
      rfl

/-- A list with enough agents that are not demoted decides as any longer list. -/
theorem skipAndProbe_take (due : Agent → Bool) (pos : 1 ≤ n) {asked : Nat}
    (enough : agents.length < asked ∨ n ≤ (agents.take asked).countP fun a => ¬ demoted a) :
    probedAgent demoted due (agents.take asked) = probedAgent demoted due agents ∧
      skipAndProbe demoted due n (agents.take asked) = skipAndProbe demoted due n agents := by
  rcases enough with whole | enough
  · rw [List.take_of_length_le whole.le]
    exact ⟨rfl, rfl⟩
  · generalize front : agents.take asked = P at enough
    obtain ⟨R, rfl⟩ : ∃ R, agents = P ++ R := ⟨agents.drop asked, by rw [← front]; simp⟩
    obtain ⟨a, mem, healthy⟩ := List.countP_pos_iff.mp (Nat.lt_of_lt_of_le pos enough)
    have notAll (Q : List Agent) (here : a ∈ Q) : Q.all demoted = false := by
      rw [List.all_eq_false]
      exact ⟨a, here, by simpa using healthy⟩
    have run : (P.takeWhile demoted).length ≠ P.length := fun same => by
      have all := List.takeWhile_eq_self_iff.mp
        ((List.takeWhile_prefix demoted).eq_of_length same) a mem
      simp [all] at healthy
    have primary : duePrimary demoted due (P ++ R) = duePrimary demoted due P := by
      rw [duePrimary, List.takeWhile_append, if_neg run, duePrimary]
    have probed : probedAgent demoted due P = probedAgent demoted due (P ++ R) := by
      rw [probedAgent, probedAgent, primary, notAll P mem,
        notAll (P ++ R) (List.mem_append_left R mem)]
      rfl
    refine ⟨probed, ?_⟩
    rw [List.countP_eq_length_filter] at enough
    rw [skipAndProbe_eq pos, skipAndProbe_eq pos, ← probed, List.filter_append,
      ← List.append_assoc]
    refine (List.take_append_of_le_length ?_).symm
    rw [List.length_append]
    omega

end Policy

/-- What a call finds: the time it reads, what the tracker answers, and the lists of the
wrapped strategy for the partition. -/
structure DemoterCall where
  now : Time
  clusterStats : Option ClusterStats
  agentStats : Int → Option AgentStats
  inner : Nat → List Agent × RouteOutcome

namespace DemoterCall

def answer (call : DemoterCall) : DemoterOp → DemoterInput
  | .clock => { now := call.now }
  | .clusterStats .. => { clusterStats := call.clusterStats }
  | .candidatesOf _ maxCandidates => { candidates := call.inner maxCandidates }
  | .agentStats _ nodeID => { agentStats := call.agentStats nodeID }
  | _ => {}

def handle (cfg : DemoterConfig) (call : DemoterCall) (o : DemoterOp) (d : DemoterState) :
    o.Ret × DemoterState :=
  o.handle cfg (call.answer o) d

/-- The call run alone. -/
def candidatesWithRoute (cfg : DemoterConfig) (health : HealthCheckConfig) (tp : TopicPartition)
    (call : DemoterCall) (maxCandidates : Nat) (d : DemoterState) :
    (List Agent × RouteOutcome) × DemoterState :=
  Program.exec (call.handle cfg) (Demoter.candidatesWithRoute health tp maxCandidates) d

section Exec

variable (cfg : DemoterConfig) (call : DemoterCall) (d : DemoterState)

@[simp] theorem exec_clock : Program.exec (call.handle cfg) Demoter.clock d = (call.now, d) := rfl

@[simp] theorem exec_trackerClusterStats (now : Time) (slowMultiplier faultyThreshold : ℚ) :
    Program.exec (call.handle cfg)
      (Demoter.trackerClusterStats now slowMultiplier faultyThreshold) d =
      (call.clusterStats, d) := rfl

@[simp] theorem exec_candidatesOf (tp : TopicPartition) (maxCandidates : Nat) :
    Program.exec (call.handle cfg) (Demoter.candidatesOf tp maxCandidates) d =
      (call.inner maxCandidates, d) := rfl

@[simp] theorem exec_shouldProbe (now : Time) (id : Int) :
    Program.exec (call.handle cfg) (Demoter.shouldProbe now id) d = d.shouldProbe cfg now id := rfl

@[simp] theorem exec_forceProbe (now : Time) (id : Int) :
    Program.exec (call.handle cfg) (Demoter.forceProbe now id) d =
      ((), d.record (.forced id now)) := rfl

@[simp] theorem exec_isDemoted (now : Time) (id : Int) (cs : ClusterStats) :
    Program.exec (call.handle cfg) (Demoter.isDemoted now id cs) d =
      d.test call.agentStats cs id := by
  unfold Demoter.isDemoted DemoterState.test
  rw [Program.exec_bind]
  change Program.exec _ (match call.agentStats id with
    | none => pure false
    | some stats => Demoter.classify id stats cs) d = _
  split <;> rfl

end Exec

section Passes

variable (cfg : DemoterConfig) {call : DemoterCall} {cs : ClusterStats} {d d' : DemoterState}
  {stamped : Option Int}

/-- The demoted agents of a call, as its state before the call has it. -/
def demoted (call : DemoterCall) (cs : ClusterStats) (d : DemoterState) (a : Agent) : Bool :=
  d.isDemoted call.agentStats cs a.nodeID

/-- The agents whose probe is due, likewise. -/
def due (cfg : DemoterConfig) (call : DemoterCall) (d : DemoterState) (a : Agent) : Bool :=
  d.probeDue cfg call.now a.nodeID

/-- The first pass counts the agents that are not demoted. -/
theorem exec_classifyAll (positive : 0 < cs.faultyThreshold)
    (settled : d.Settled call.agentStats cs call.now stamped d') (agents : List Agent)
    (count : Nat) (clean : Bool) :
    ∃ d'', Program.exec (call.handle cfg)
        (Demoter.classifyAll call.now cs agents count clean) d' =
        ((count + agents.countP fun a => ¬ call.demoted cs d a,
          clean && agents.all fun a => ¬ call.demoted cs d a), d'') ∧
      d.Settled call.agentStats cs call.now stamped d'' := by
  induction agents generalizing d' count clean with
  | nil => exact ⟨d', by simp [Demoter.classifyAll], settled⟩
  | cons a rest ih =>
      have result : (d'.test call.agentStats cs a.nodeID).1 = call.demoted cs d a := by
        rw [DemoterState.test_fst]
        exact settled.isDemoted_eq positive a.nodeID
      have after := settled.test positive a.nodeID
      simp only [Demoter.classifyAll, Program.exec_bind, exec_isDemoted, result]
      cases sick : call.demoted cs d a with
      | true =>
          obtain ⟨d'', ran, kept⟩ := ih after count false
          exact ⟨d'', by simpa [sick] using ran, kept⟩
      | false =>
          obtain ⟨d'', ran, kept⟩ := ih after (count + 1) clean
          refine ⟨d'', ?_, kept⟩
          simpa [sick, Nat.add_assoc, Nat.add_comm 1] using ran

/-- A fetched list is the whole list, or has as many agents that are not demoted as asked
for. -/
def Enough (call : DemoterCall) (cs : ClusterStats) (d : DemoterState) (n : Nat)
    (agents : List Agent) (asked : Nat) : Prop :=
  agents.length < asked ∨ n ≤ (agents.take asked).countP fun a => ¬ call.demoted cs d a

theorem exec_fetchCandidates (positive : 0 < cs.faultyThreshold) {agents : List Agent}
    (lists : ∀ m, (call.inner m).1 = agents.take m) (tp : TopicPartition) (n left extra : Nat)
    (enough : call.Enough cs d n agents (n + extra * 2 ^ left))
    (settled : d.Settled call.agentStats cs call.now none d') :
    ∃ asked d'', Program.exec (call.handle cfg)
        (Demoter.fetchCandidates tp n call.now cs left extra) d' =
        ((agents.take asked, (call.inner asked).2,
          (agents.take asked).all fun a => ¬ call.demoted cs d a), d'') ∧
      d.Settled call.agentStats cs call.now none d'' ∧ call.Enough cs d n agents asked := by
  induction left generalizing extra d' with
  | zero =>
      obtain ⟨d'', ran, kept⟩ := exec_classifyAll cfg positive settled
        (agents.take (n + extra)) 0 true
      refine ⟨n + extra, d'', ?_, kept, by simpa using enough⟩
      rw [Demoter.fetchCandidates]
      simp only [Program.exec_bind, exec_candidatesOf, lists, ran]
      split <;> simp
  | succ left ih =>
      obtain ⟨d'', ran, kept⟩ := exec_classifyAll cfg positive settled
        (agents.take (n + extra)) 0 true
      rw [Demoter.fetchCandidates]
      simp only [Program.exec_bind, exec_candidatesOf, lists, ran, Nat.zero_add]
      split
      · rename_i stop
        refine ⟨n + extra, d'', by simp, kept, ?_⟩
        rcases stop with full | short
        · exact Or.inr full
        · left
          rw [List.length_take] at short
          omega
      · refine ih (extra * 2) ?_ kept
        rwa [show extra * 2 * 2 ^ left = extra * 2 ^ (left + 1) by ring]

theorem exec_buildCandidates_of_primary (positive : 0 < cs.faultyThreshold)
    (settled : d.Settled call.agentStats cs call.now stamped d') (n : Nat)
    (agents candidates : List Agent) (primary : candidates ≠ []) (fits : candidates.length ≤ n) :
    ∃ d'', Program.exec (call.handle cfg)
        (Demoter.buildCandidates n call.now cs agents candidates) d' =
        ((candidates ++ agents.filter fun a => ¬ call.demoted cs d a).take n, d'') ∧
      d.Settled call.agentStats cs call.now stamped d'' := by
  induction agents generalizing d' candidates with
  | nil => exact ⟨d', by simp [Demoter.buildCandidates, List.take_of_length_le fits], settled⟩
  | cons a rest ih =>
      rw [Demoter.buildCandidates]
      by_cases full : n ≤ candidates.length
      · refine ⟨d', ?_, settled⟩
        rw [if_pos full, Program.exec_pure, List.take_append_of_le_length full,
          List.take_of_length_le fits]
      · have result : (d'.test call.agentStats cs a.nodeID).1 = call.demoted cs d a := by
          rw [DemoterState.test_fst]
          exact settled.isDemoted_eq positive a.nodeID
        have after := settled.test positive a.nodeID
        simp only [if_neg full, Program.exec_bind, exec_isDemoted, result]
        cases sick : call.demoted cs d a with
        | true =>
            obtain ⟨d'', ran, kept⟩ := ih after candidates primary fits
            exact ⟨d'', by simpa [sick, primary] using ran, kept⟩
        | false =>
            obtain ⟨d'', ran, kept⟩ := ih after (candidates ++ [a]) (by simp)
              (by rw [List.length_append, List.length_singleton]; omega)
            exact ⟨d'', by simpa [sick] using ran, kept⟩

/-- The second pass, as long as no candidate is found. -/
theorem exec_buildCandidates (positive : 0 < cs.faultyThreshold)
    (settled : d.Settled call.agentStats cs call.now none d') {n : Nat} (pos : 1 ≤ n)
    (agents : List Agent) :
    ∃ d'', Program.exec (call.handle cfg) (Demoter.buildCandidates n call.now cs agents []) d' =
        (kept (call.demoted cs d) (call.due cfg d) n agents, d'') ∧
      d.Settled call.agentStats cs call.now
        ((duePrimary (call.demoted cs d) (call.due cfg d) agents).map (·.nodeID)) d'' := by
  induction agents generalizing d' with
  | nil => exact ⟨d', by simp [Demoter.buildCandidates, kept, duePrimary], by simpa [duePrimary]⟩
  | cons a rest ih =>
      have result : (d'.test call.agentStats cs a.nodeID).1 = call.demoted cs d a := by
        rw [DemoterState.test_fst]
        exact settled.isDemoted_eq positive a.nodeID
      have after := settled.test positive a.nodeID
      rw [Demoter.buildCandidates, if_neg (by simpa using Nat.pos_iff_ne_zero.mp pos)]
      simp only [Program.exec_bind, exec_isDemoted, result]
      cases sick : call.demoted cs d a with
      | false =>
          obtain ⟨d'', ran, settled'⟩ :=
            exec_buildCandidates_of_primary cfg positive after n rest [a] (by simp) pos
          refine ⟨d'', ?_, by simpa [duePrimary, sick] using settled'⟩
          simpa [kept, duePrimary, sick] using ran
      | true =>
          have same : ((d'.test call.agentStats cs a.nodeID).2).probeDue cfg call.now a.nodeID =
              call.due cfg d a := by
            simp only [DemoterState.probeDue, due, after.lastProbe_eq sick]
          simp only [↓reduceIte, ne_eq, not_true_eq_false, Program.exec_bind, exec_shouldProbe,
            DemoterState.shouldProbe, same]
          cases now : call.due cfg d a with
          | true =>
              obtain ⟨d'', ran, settled'⟩ :=
                exec_buildCandidates_of_primary cfg positive (after.record sick (Or.inl rfl)) n
                  rest [a.cloneWithState .demoted] (by simp) pos
              refine ⟨d'', ?_, by simpa [duePrimary, sick, now] using settled'⟩
              simpa [kept, duePrimary, sick, now] using ran
          | false =>
              obtain ⟨d'', ran, settled'⟩ := ih after
              refine ⟨d'', ?_, by simpa [duePrimary, sick, now] using settled'⟩
              simpa [kept, duePrimary, sick, now] using ran

/-- A call that is not suppressed: its candidates, and the state it leaves. -/
theorem exec_candidatesWithRoute (positive : 0 < cs.faultyThreshold)
    (view : call.clusterStats = some cs) {health : HealthCheckConfig}
    (active : (isDemotionSuppressed health (some cs)).1 = false) {agents : List Agent}
    (lists : ∀ m, (call.inner m).1 = agents.take m) (tp : TopicPartition) {n : Nat} (pos : 1 ≤ n)
    (enough : call.Enough cs d n agents (n + 64)) :
    (call.candidatesWithRoute cfg health tp n d).1.1 =
        skipAndProbe (call.demoted cs d) (call.due cfg d) n agents ∧
      d.Settled call.agentStats cs call.now
        ((probedAgent (call.demoted cs d) (call.due cfg d) agents).map (·.nodeID))
        (call.candidatesWithRoute cfg health tp n d).2 := by
  obtain ⟨asked, d₁, fetched, settled, window⟩ :=
    exec_fetchCandidates cfg positive lists tp n 5 2 enough DemoterState.Settled.refl
  obtain ⟨probed, decided⟩ := skipAndProbe_take (call.due cfg d) pos window
  rw [← probed, ← decided]
  generalize front : agents.take asked = P at fetched
  simp only [candidatesWithRoute, Demoter.candidatesWithRoute, Nat.pos_iff_ne_zero.mp pos,
    ↓reduceIte, Program.exec_bind, exec_clock, exec_trackerClusterStats, view, active,
    Demoter.maxRetries, Nat.reduceSub, fetched]
  cases P with
  | nil => exact ⟨by simp [skipAndProbe, kept, duePrimary], by simpa [probedAgent, duePrimary]⟩
  | cons first rest =>
      by_cases clean : ((first :: rest).all fun a => ¬ call.demoted cs d a) = true
      · have healthy : ∀ a ∈ first :: rest, call.demoted cs d a = false := fun a mem => by
          simpa using List.all_eq_true.mp clean a mem
        have head := healthy first List.mem_cons_self
        have probedNone :
            probedAgent (call.demoted cs d) (call.due cfg d) (first :: rest) = none := by
          simp [probedAgent, duePrimary, head]
        have all : ((first :: rest).filter fun a => ¬ call.demoted cs d a) = first :: rest :=
          List.filter_eq_self.mpr fun a mem => by simp [healthy a mem]
        simp only [clean, ↓reduceIte, Program.exec_pure, probedNone, Option.map_none]
        refine ⟨?_, settled⟩
        rw [skipAndProbe_eq pos, probedNone, all]
        rfl
      · obtain ⟨d₂, built, settled'⟩ := exec_buildCandidates cfg positive settled pos (first :: rest)
        simp only [clean, Bool.false_eq_true, ↓reduceIte, Program.exec_bind, built]
        by_cases empty : kept (call.demoted cs d) (call.due cfg d) n (first :: rest) = []
        · obtain ⟨notDue, sick⟩ := (kept_eq_nil pos).mp empty
          rw [notDue, Option.map_none] at settled'
          have head := List.all_eq_true.mp sick first List.mem_cons_self
          have forced : probedAgent (call.demoted cs d) (call.due cfg d) (first :: rest) =
              some first := by
            rw [probedAgent, notDue, Option.none_or, if_pos sick, List.head?_cons]
          simp only [empty, ↓reduceIte, Program.exec_bind, exec_forceProbe, Program.exec_pure,
            skipAndProbe, forced, Option.map_some]
          exact ⟨rfl, settled'.record head (Or.inr rfl)⟩
        · have primary : probedAgent (call.demoted cs d) (call.due cfg d) (first :: rest) =
              duePrimary (call.demoted cs d) (call.due cfg d) (first :: rest) :=
            probedAgent_eq_duePrimary pos empty
          simp only [empty, ↓reduceIte, Program.exec_pure, skipAndProbe, primary]
          exact ⟨trivial, settled'⟩

end Passes

end DemoterCall

/-- The Demoter's candidates are those of the skip-and-probe policy, and at most the probe
time of the marked agent is written. -/
theorem demoter_candidates_skip_and_probe (cfg : DemoterConfig) {health : HealthCheckConfig}
    (tp : TopicPartition) {call : DemoterCall} {cs : ClusterStats}
    (view : call.clusterStats = some cs) (echoed : cs.faultyThreshold = health.faultyThreshold)
    (active : (isDemotionSuppressed health (some cs)).1 = false) {agents : List Agent}
    (lists : ∀ m, (call.inner m).1 = agents.take m)
    (distinct : (agents.map (·.nodeID)).Nodup) {n : Nat} (pos : 1 ≤ n) (d : DemoterState)
    (enough : agents.length < n + 64 ∨
      n ≤ (agents.take (n + 64)).countP fun a => ¬ call.demoted cs d a) :
    let out := (call.candidatesWithRoute cfg health tp n d).1.1
    let d' := (call.candidatesWithRoute cfg health tp n d).2
    out = skipAndProbe (call.demoted cs d) (call.due cfg d) n agents ∧
      (agents ≠ [] → out ≠ []) ∧ out.length ≤ n ∧ (out.map (·.nodeID)).Nodup ∧
      (∀ a ∈ out.tail, a ∈ agents) ∧
      ∃ stamped : Option Int,
        d.Settled call.agentStats cs call.now stamped d' ∧
        (∀ id, stamped = some id → out.head? = some ⟨id, .demoted⟩) ∧
        ((∀ a ∈ agents, a.state = .healthy) →
          (out.filter fun a => a.state = .demoted).map (·.nodeID) = stamped.toList) := by
  intro out d'
  have positive : 0 < cs.faultyThreshold := echoed ▸ health.faulty.1
  obtain ⟨decided, settled⟩ :=
    call.exec_candidatesWithRoute cfg positive view active lists tp pos enough
  refine ⟨decided, ?_, ?_, ?_, ?_, _, settled, ?_, ?_⟩ <;>
    rw [show out = _ from decided]
  · exact skipAndProbe_ne_nil
  · rw [skipAndProbe_eq pos]
    exact List.length_take_le _ _
  · exact nodup_skipAndProbe pos distinct
  · exact fun a mem => mem_of_mem_tail_skipAndProbe pos mem
  · intro id stamped
    obtain ⟨a, probed, rfl⟩ := Option.map_eq_some_iff.mp stamped
    obtain ⟨m, rfl⟩ := Nat.exists_eq_add_of_le' pos
    rw [skipAndProbe_eq pos, probed]
    rfl
  · exact marked_skipAndProbe pos

def halfFaulty : HealthCheckConfig where
  slowMultiplier := 2
  maxSlowFraction := 1 / 2
  faultyThreshold := 1 / 2
  maxFaultyFraction := 1 / 2
  slow := by norm_num
  maxSlow := by norm_num
  faulty := by norm_num
  maxFaulty := by norm_num

def everySecond : DemoterConfig := ⟨1000000000, by decide⟩

/-- Two agents, the first of which fails every request. -/
def firstFails : DemoterCall where
  now := .unix 1000
  clusterStats := some { faultyThreshold := 1 / 2, faultyContributorsCount := 2 }
  agentStats := fun id => if id = 1 then some { errorRate := 1, requestCount := 9 } else none
  inner := fun m => ([{ nodeID := 1 }, { nodeID := 2 }].take m, .leader)

theorem demoter_candidates_skip_and_probe_first_fails :
    (firstFails.candidatesWithRoute everySecond halfFaulty ⟨"t", 0⟩ 2 {}).1.1 =
      [⟨1, .demoted⟩, ⟨2, .healthy⟩] := by
  have policy := (@demoter_candidates_skip_and_probe everySecond halfFaulty ⟨"t", 0⟩ firstFails _
    rfl rfl (by decide +kernel) [{ nodeID := 1 }, { nodeID := 2 }] (fun _ => rfl) (by decide) 2
    (by decide) {} (Or.inl (by decide))).1
  rw [policy]
  decide +kernel

end Warpstream
