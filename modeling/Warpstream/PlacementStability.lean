import Warpstream.AgentPoolRouting
import Warpstream.Lib.Rotation

set_option autoImplicit false

/- What an agent that joins or leaves does to the candidate orders of other agents'
partitions. -/
namespace Warpstream

namespace DefaultPartitionAssignmentStrategy

variable {hashTopicPartition : String → Int → UInt64} {topic : String} {partition : Int}

/-- The walk for the hash `h` over the agents other than the leader starts at the same agent
whether `x` is one of them or not. Without a second one there is nothing to walk. -/
def SameStart (nonLeaders : List Int) (x : Int) (h : Nat) : Prop :=
  nonLeaders.length - 1 = 0 ∨
    h % (nonLeaders.length - 1) =
      Rotation.startWithout (nonLeaders.length - 1) (nonLeaders.idxOf x) h % (nonLeaders.length - 1)

instance (nonLeaders : List Int) (x : Int) (h : Nat) : Decidable (SameStart nonLeaders x h) :=
  inferInstanceAs (Decidable (_ ∨ _))

/-- As many candidates as there are agents are the whole order. -/
theorem candidates_all {s : DefaultPartitionAssignmentStrategy} {leader : Int}
    {route : RouteOutcome} (distinct : s.agents.Nodup)
    (resolved : s.leaderWithRoute hashTopicPartition topic partition = .ok (leader, route))
    (live : leader ∈ s.agents) :
    s.candidates hashTopicPartition topic partition s.agents.length =
      (s.order hashTopicPartition leader topic partition).map fun id => { nodeID := id } := by
  rw [candidates_eq_take distinct resolved live, ← (order_perm distinct live).length_eq,
    List.take_length]

/-- Leaving `x` out of the larger pool's order gives the smaller pool's order exactly when
both walks start at the same agent. -/
theorem order_erase_iff {larger smaller : DefaultPartitionAssignmentStrategy} {leader x : Int}
    (distinct : larger.agents.Nodup) (member : x ∈ larger.agents)
    (without : smaller.agents = larger.agents.erase x) (other : leader ≠ x) :
    (larger.order hashTopicPartition leader topic partition).erase x =
        smaller.order hashTopicPartition leader topic partition ↔
      SameStart (larger.agents.filter fun id => id ≠ leader) x
        (hashTopicPartition topic partition).toNat := by
  have walked : x ∈ larger.agents.filter fun id => id ≠ leader := by
    rw [List.mem_filter]
    exact ⟨member, decide_eq_true other.symm⟩
  have rest : (smaller.agents.filter fun id => id ≠ leader) =
      (larger.agents.filter fun id => id ≠ leader).erase x := by
    rw [without, nonLeaders_eq_erase (distinct.erase x), nonLeaders_eq_erase distinct,
      List.erase_comm]
  unfold order
  rw [rest, List.erase_cons_tail (by simpa using other), List.cons_inj_right,
    Rotation.erase_rotate_eq_iff (distinct.filter _) walked]
  rfl

/-- Two snapshots whose pools differ in the agent `x`, and a partition with the same leader
in both. The orders over all agents agree without `x` exactly when the hash, taken modulo the
two numbers of other agents, starts both walks at the same agent. -/
theorem candidates_stable_iff_sameStart (hashTopicPartition : String → Int → UInt64)
    (prev prev' : PoolState) (metadata metadata' : Kmsg.MetadataResponse) (topic : String)
    (partition x leader : Int) (route route' : RouteOutcome)
    (larger smaller : DefaultPartitionAssignmentStrategy)
    (snapshot : larger = (AgentPool.refresh prev (.ok metadata)).1.strategy)
    (snapshot' : smaller = (AgentPool.refresh prev' (.ok metadata')).1.strategy)
    (distinct : metadata.nodeIDs.Nodup) (member : x ∈ larger.agents)
    (without : smaller.agents = larger.agents.erase x)
    (resolved : larger.leaderWithRoute hashTopicPartition topic partition = .ok (leader, route))
    (resolved' : smaller.leaderWithRoute hashTopicPartition topic partition = .ok (leader, route'))
    (other : leader ≠ x) :
    (larger.candidates hashTopicPartition topic partition larger.agents.length).filter
          (fun a => a.nodeID ≠ x) =
        smaller.candidates hashTopicPartition topic partition smaller.agents.length ↔
      SameStart (larger.agents.filter fun id => id ≠ leader) x
        (hashTopicPartition topic partition).toNat := by
  have nodup : larger.agents.Nodup := by
    rw [snapshot]
    exact agents_nodup prev distinct
  have nodup' : smaller.agents.Nodup := by
    rw [without]
    exact nodup.erase x
  have live : leader ∈ larger.agents := by
    subst snapshot
    exact leaderWithRoute_mem_agents leaders_live resolved
  have live' : leader ∈ smaller.agents := by
    subst snapshot'
    exact leaderWithRoute_mem_agents leaders_live resolved'
  have orders : (larger.order hashTopicPartition leader topic partition).Nodup :=
    (order_perm nodup live).nodup_iff.mpr nodup
  have injective : Function.Injective fun id : Int => ({ nodeID := id } : Agent) :=
    fun _ _ same => (Agent.mk.inj same).1
  rw [candidates_all nodup resolved live, candidates_all nodup' resolved' live', List.filter_map,
    List.map_inj_right injective, ← order_erase_iff nodup member without other,
    ← nonLeaders_eq_erase orders x]
  rfl

end DefaultPartitionAssignmentStrategy

/-- A pool of these agents in which the agent 1 leads the only partition. -/
def ledByOne (agents : List Int) : Kmsg.MetadataResponse :=
  { brokers := agents.map fun id => ⟨id⟩
    topics := [{ topic := some "t", partitions := [⟨0, 1⟩] }] }

/-- The xxhash of the partition `t/0`, for every partition. -/
def hashOfFirst : String → Int → UInt64 := fun _ _ => 14159399357157502334

theorem candidates_stable_iff_sameStart_last :
    let larger := (AgentPool.refresh {} (.ok (ledByOne [1, 2, 3, 4]))).1.strategy
    let smaller := (AgentPool.refresh {} (.ok (ledByOne [1, 2, 3]))).1.strategy
    (larger.candidates hashOfFirst "t" 0 4).filter (fun a => a.nodeID ≠ 4) =
      smaller.candidates hashOfFirst "t" 0 3 :=
  (DefaultPartitionAssignmentStrategy.candidates_stable_iff_sameStart hashOfFirst {} {}
    (ledByOne [1, 2, 3, 4]) (ledByOne [1, 2, 3]) "t" 0 4 1 .leader .leader _ _ rfl rfl (by decide)
    (by decide) (by decide) (by decide) (by decide) (by decide)).mpr (by decide)

/-- The agent 2 leaves. The partition keeps its leader, and the two agents that remain behind
it change places. -/
theorem leaving_agent_reorders_others :
    let larger := (AgentPool.refresh {} (.ok (ledByOne [1, 2, 3, 4]))).1.strategy
    let smaller := (AgentPool.refresh {} (.ok (ledByOne [1, 3, 4]))).1.strategy
    larger.agents = [1, 2, 3, 4] ∧ smaller.agents = [1, 3, 4] ∧
      larger.leaders.lookup ⟨"t", 0⟩ = some 1 ∧ smaller.leaders.lookup ⟨"t", 0⟩ = some 1 ∧
      (larger.candidates hashOfFirst "t" 0 4).map Agent.nodeID = [1, 4, 2, 3] ∧
      (smaller.candidates hashOfFirst "t" 0 3).map Agent.nodeID = [1, 3, 4] ∧
      (larger.candidates hashOfFirst "t" 0 4).filter (fun a => a.nodeID ≠ 2) ≠
        smaller.candidates hashOfFirst "t" 0 3 := by
  decide

end Warpstream
