import Mathlib.Data.List.Rotate
import Warpstream.Lib.Inserts
import Warpstream.ProduceResult

set_option autoImplicit false

/- The candidate agents of a partition: its leader, then the other agents in an order that
starts at the hash of the partition. -/
namespace Warpstream

inductive RouteOutcome where
  | unclassified
  | leader
  | standIn
  | missEmptyPool
  | missUnknownTopic
  | missNoLeader
  | missOutOfRange
deriving DecidableEq, Repr

/-- An immutable snapshot of the agent pool. -/
structure DefaultPartitionAssignmentStrategy where
  agents : List Int
  leaders : GoMap TopicPartition Int
  knownTopics : GoMap String Unit
  noLeader : GoMap TopicPartition Unit
  partitionCounts : GoMap String Int

def newDefaultPartitionAssignmentStrategy (agents : List Int) (leaders : GoMap TopicPartition Int)
    (topicsWithNoLiveLeader : GoMap String Unit) (noLeader : GoMap TopicPartition Unit)
    (partitionCounts : GoMap String Int) : DefaultPartitionAssignmentStrategy :=
  let excluded : GoMap String Unit :=
    Inserts.insertAll ∅ (topicsWithNoLiveLeader.keys.map fun topic => (topic, ()))
  { agents := agents
    leaders := leaders
    knownTopics := Inserts.insertAll excluded (leaders.keys.map fun tp => (tp.topic, ()))
    noLeader := noLeader
    partitionCounts := partitionCounts }

/-- The `idx`-th agent other than the leader; 0 if there is none. -/
def nthNonLeader (agents : List Int) (leader : Int) (idx : Nat) : Int :=
  go 0 agents
where
  go (seen : Nat) : List Int → Int
    | [] => 0
    | id :: rest =>
        if id = leader then go seen rest else if seen = idx then id else go (seen + 1) rest

/-- The loop over the agents other than the leader, with the number of offsets left. -/
def walkNonLeaders (agents : List Int) (leader : Int) (start nonLeaderCount maxCandidates : Nat) :
    Nat → List Agent → List Agent
  | 0, out => out
  | left + 1, out =>
      if out.length < maxCandidates then
        let offset := nonLeaderCount - (left + 1)
        let idx := (start + offset) % nonLeaderCount
        walkNonLeaders agents leader start nonLeaderCount maxCandidates left
          (out ++ [{ nodeID := nthNonLeader agents leader idx }])
      else out

namespace DefaultPartitionAssignmentStrategy

-- the hash of a topic-partition, xxhash in the source
variable (hashTopicPartition : String → Int → UInt64)

/-- The first part of `candidatesWithRoute`: the leader of a partition or the agent that
stands in for it, and why there is neither. -/
def leaderWithRoute (s : DefaultPartitionAssignmentStrategy) (topic : String) (partition : Int) :
    Except RouteOutcome (Int × RouteOutcome) :=
  match s.leaders.lookup ⟨topic, partition⟩ with
  | some leader => .ok (leader, .leader)
  | none =>
      if ⟨topic, partition⟩ ∈ s.noLeader then .error .missNoLeader
      else if s.agents.length = 0 then .error .missEmptyPool
      else if topic ∉ s.knownTopics then
        -- the count only picks the label
        match s.partitionCounts.lookup topic with
        | some n =>
            if partition < 0 ∨ n ≤ partition then .error .missOutOfRange
            else .error .missUnknownTopic
        | none => .error .missUnknownTopic
      else if partition < 0 ∨ (s.partitionCounts.lookup topic).getD 0 ≤ partition then
        .error .missOutOfRange
      else
        let h := (hashTopicPartition topic partition).toNat
        .ok (s.agents.getD (h % s.agents.length) 0, .standIn)

def candidatesWithRoute (s : DefaultPartitionAssignmentStrategy) (topic : String)
    (partition : Int) (maxCandidates : Nat) : List Agent × RouteOutcome :=
  if maxCandidates = 0 then ([], .unclassified)
  else
    match s.leaderWithRoute hashTopicPartition topic partition with
    | .error miss => ([], miss)
    | .ok (leader, route) =>
        let nonLeaderCount := s.agents.length - 1
        if maxCandidates = 1 ∨ nonLeaderCount = 0 then ([{ nodeID := leader }], route)
        else
          let start := (hashTopicPartition topic partition).toNat % nonLeaderCount
          (walkNonLeaders s.agents leader start nonLeaderCount maxCandidates nonLeaderCount
            [{ nodeID := leader }], route)

def candidates (s : DefaultPartitionAssignmentStrategy) (topic : String) (partition : Int)
    (maxCandidates : Nat) : List Agent :=
  (s.candidatesWithRoute hashTopicPartition topic partition maxCandidates).1

/-- All agents in the order of the walk, the leader first. -/
def order (s : DefaultPartitionAssignmentStrategy) (leader : Int) (topic : String)
    (partition : Int) : List Int :=
  leader :: (s.agents.filter fun id => id ≠ leader).rotate
    (hashTopicPartition topic partition).toNat

end DefaultPartitionAssignmentStrategy

theorem nthNonLeader_go (leader : Int) (idx seen : Nat) (agents : List Int) (le : seen ≤ idx) :
    nthNonLeader.go leader idx seen agents =
      (agents.filter fun id => id ≠ leader).getD (idx - seen) 0 := by
  induction agents generalizing seen with
  | nil => rfl
  | cons id rest ih =>
      by_cases same : id = leader
      · simp only [nthNonLeader.go, same, ↓reduceIte, ne_eq, not_true_eq_false, decide_false,
          Bool.false_eq_true, not_false_eq_true, List.filter_cons_of_neg]
        exact ih seen le
      · simp only [nthNonLeader.go, same, ↓reduceIte, ne_eq, not_false_eq_true, decide_true,
          List.filter_cons_of_pos]
        by_cases here : seen = idx
        · simp [here]
        · obtain ⟨k, later⟩ : ∃ k, idx - seen = k + 1 := ⟨idx - seen - 1, by omega⟩
          rw [if_neg here, ih (seen + 1) (by omega), later, List.getD_cons_succ]
          congr 1
          omega

theorem nthNonLeader_eq (agents : List Int) (leader : Int) (idx : Nat) :
    nthNonLeader agents leader idx = (agents.filter fun id => id ≠ leader).getD idx 0 := by
  rw [nthNonLeader, nthNonLeader_go leader idx 0 agents (Nat.zero_le idx), Nat.sub_zero]

theorem nonLeaders_eq_erase {agents : List Int} (distinct : agents.Nodup) (leader : Int) :
    (agents.filter fun id => id ≠ leader) = agents.erase leader := by
  rw [distinct.erase_eq_filter]
  simp only [ne_eq, decide_not]
  rfl

/-- A leader that is in the pool is the one agent left out. -/
theorem length_nonLeaders {agents : List Int} (distinct : agents.Nodup) {leader : Int}
    (live : leader ∈ agents) :
    (agents.filter fun id => id ≠ leader).length = agents.length - 1 := by
  rw [nonLeaders_eq_erase distinct, List.length_erase_of_mem live]

/-- The walk appends the rotated list, as far as there is room. -/
theorem walkNonLeaders_eq {agents : List Int} {leader : Int} {start nonLeaderCount : Nat}
    (all : (agents.filter fun id => id ≠ leader).length = nonLeaderCount)
    (maxCandidates left : Nat) (le : left ≤ nonLeaderCount) (out : List Agent) :
    walkNonLeaders agents leader start nonLeaderCount maxCandidates left out =
      out ++ ((((agents.filter fun id => id ≠ leader).rotate start).drop
        (nonLeaderCount - left)).map fun id => { nodeID := id }).take
          (maxCandidates - out.length) := by
  induction left generalizing out with
  | zero =>
      have none : ((agents.filter fun id => id ≠ leader).rotate start).drop
          (nonLeaderCount - 0) = [] := by
        rw [List.drop_eq_nil_iff, List.length_rotate, all, Nat.sub_zero]
      rw [walkNonLeaders, none]
      simp
  | succ left ih =>
      unfold walkNonLeaders
      split
      · rename_i room
        have inside : nonLeaderCount - (left + 1) <
            ((agents.filter fun id => id ≠ leader).rotate start).length := by
          rw [List.length_rotate, all]
          omega
        have next : nonLeaderCount - (left + 1) + 1 = nonLeaderCount - left := by omega
        obtain ⟨k, more⟩ : ∃ k, maxCandidates - out.length = k + 1 :=
          ⟨maxCandidates - out.length - 1, by omega⟩
        have elem : nthNonLeader agents leader
            ((start + (nonLeaderCount - (left + 1))) % nonLeaderCount) =
              ((agents.filter fun id => id ≠ leader).rotate start)[nonLeaderCount - (left + 1)] := by
          have bound : (start + (nonLeaderCount - (left + 1))) % nonLeaderCount <
              (agents.filter fun id => id ≠ leader).length := by
            rw [all]
            exact Nat.mod_lt _ (by omega)
          rw [nthNonLeader_eq, List.getD_eq_getElem?_getD, List.getElem?_eq_getElem bound,
            Option.getD_some, List.getElem_rotate]
          congr 1
          rw [all, Nat.add_comm]
        rw [ih (by omega), List.drop_eq_getElem_cons inside, next, List.map_cons, more,
          List.take_succ_cons, List.length_append, List.length_singleton, ← elem, List.append_assoc,
          List.singleton_append]
        congr 3
        omega
      · rename_i full
        rw [show maxCandidates - out.length = 0 by omega, List.take_zero, List.append_nil]

namespace DefaultPartitionAssignmentStrategy

variable {hashTopicPartition : String → Int → UInt64} {s : DefaultPartitionAssignmentStrategy}
  {topic : String} {partition : Int} {leader : Int} {route : RouteOutcome}

/-- The candidates are a prefix of one list of all agents. -/
theorem candidates_eq_take (distinct : s.agents.Nodup)
    (resolved : s.leaderWithRoute hashTopicPartition topic partition = .ok (leader, route))
    (live : leader ∈ s.agents) (maxCandidates : Nat) :
    s.candidates hashTopicPartition topic partition maxCandidates =
      ((s.order hashTopicPartition leader topic partition).take maxCandidates).map
        fun id => { nodeID := id } := by
  have all := length_nonLeaders distinct live
  unfold candidates candidatesWithRoute order
  rw [resolved]
  cases maxCandidates with
  | zero => rfl
  | succ more =>
      simp only [Nat.add_eq_zero_iff, one_ne_zero, and_false, ↓reduceIte, List.take_succ_cons,
        List.map_cons]
      split
      · rename_i small
        have rest : ((s.agents.filter fun id => id ≠ leader).rotate
            (hashTopicPartition topic partition).toNat).take more = [] := by
          rcases small with one | alone
          · rw [show more = 0 by omega, List.take_zero]
          · rw [← all] at alone
            rw [List.length_eq_zero_iff.mp alone, List.rotate_nil, List.take_nil]
        rw [rest, List.map_nil]
      · rw [walkNonLeaders_eq all _ _ (Nat.le_refl _), Nat.sub_self, List.drop_zero, ← all,
          List.rotate_mod, List.length_singleton, Nat.add_sub_cancel, List.singleton_append,
          List.map_take]

theorem order_perm (distinct : s.agents.Nodup) (live : leader ∈ s.agents) :
    (s.order hashTopicPartition leader topic partition).Perm s.agents := by
  have rotated := List.rotate_perm (s.agents.filter fun id => id ≠ leader)
    (hashTopicPartition topic partition).toNat
  rw [nonLeaders_eq_erase distinct] at rotated
  unfold order
  rw [nonLeaders_eq_erase distinct]
  exact (rotated.cons leader).trans (List.perm_cons_erase live).symm

end DefaultPartitionAssignmentStrategy

end Warpstream
