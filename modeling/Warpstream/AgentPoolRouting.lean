import Warpstream.AgentPool

set_option autoImplicit false

/- What a snapshot routes: exactly the partitions that the Metadata response gives a reason
for, each to a prefix of one order of all agents. -/
namespace Warpstream

open Kbin Inserts

theorem le_foldl_max_iff (x start : Int) (xs : List Int) :
    x ≤ xs.foldl max start ↔ x ≤ start ∨ ∃ y ∈ xs, x ≤ y := by
  induction xs generalizing start with
  | nil => simp
  | cons y rest ih =>
      rw [List.foldl_cons, ih, le_max_iff]
      simp [or_assoc]

namespace Kmsg

variable {metadata : MetadataResponse}

/-- All partitions that the response lists without a topic error, with their leaders. -/
def MetadataResponse.listed (metadata : MetadataResponse) : List (TopicPartition × Int) :=
  metadata.topics.flatMap (·.listed)

def MetadataResponse.nodeIDs (metadata : MetadataResponse) : List Int :=
  metadata.brokers.map (·.nodeID)

theorem MetadataResponse.mem_listed {tp : TopicPartition} {leader : Int} :
    (tp, leader) ∈ metadata.listed ↔ ∃ t ∈ metadata.topics, t.topic = some tp.topic ∧
      t.errorCode = 0 ∧ (⟨tp.partition, leader⟩ : MetadataResponseTopicPartition) ∈ t.partitions := by
  simp only [listed, List.mem_flatMap, MetadataResponseTopic.mem_listed]

namespace MetadataResponse.WellFormed

theorem topic_unique (formed : metadata.WellFormed) {t t' : MetadataResponseTopic}
    (mem : t ∈ metadata.topics) (mem' : t' ∈ metadata.topics) {name : String}
    (named : t.topic = some name) (named' : t'.topic = some name) : t = t' := by
  by_contra different
  have apart := List.pairwise_filterMap.mp formed.topics
  have symmetric : Std.Symm fun t t' : MetadataResponseTopic =>
      ∀ name, t.topic = some name → ∀ name', t'.topic = some name' → name ≠ name' :=
    ⟨fun _ _ separate x found y found' same => separate y found' x found same.symm⟩
  exact apart.forall mem mem' different name named name named' rfl

/-- A partition is listed with one leader. -/
theorem leader_unique (formed : metadata.WellFormed) {tp : TopicPartition} {leader leader' : Int}
    (mem : (tp, leader) ∈ metadata.listed) (mem' : (tp, leader') ∈ metadata.listed) :
    leader = leader' := by
  obtain ⟨t, topic, named, -, part⟩ := mem_listed.mp mem
  obtain ⟨t', topic', named', -, part'⟩ := mem_listed.mp mem'
  obtain rfl := formed.topic_unique topic topic' named named'
  have same := List.inj_on_of_nodup_map (formed.partitions t topic) part part' rfl
  exact (MetadataResponseTopicPartition.mk.inj same).2

/-- The count of a topic is one past its highest index. -/
theorem lt_count_iff (formed : metadata.WellFormed) {t : MetadataResponseTopic}
    (mem : t ∈ metadata.topics) {partition : Int} (nonneg : 0 ≤ partition) :
    partition < int32 ((t.partitions.map (·.partition)).foldl max (-1) + 1) ↔
      ∃ p ∈ t.partitions, partition ≤ p.partition := by
  have lower : -1 ≤ (t.partitions.map (·.partition)).foldl max (-1) :=
    (le_foldl_max_iff _ _ _).mpr (Or.inl (le_refl _))
  have upper : (t.partitions.map (·.partition)).foldl max (-1) ≤ 2 ^ 31 - 2 := by
    rcases (le_foldl_max_iff _ _ _).mp (le_refl ((t.partitions.map (·.partition)).foldl max (-1)))
      with low | ⟨index, listed, le⟩
    · omega
    · obtain ⟨p, part, rfl⟩ := List.mem_map.mp listed
      have bound := (formed.indices t mem p part).2
      omega
  rw [int32_eq (by omega) (by omega), Int.lt_add_one_iff, le_foldl_max_iff]
  constructor
  · rintro (low | ⟨index, listed, le⟩)
    · omega
    · obtain ⟨p, part, rfl⟩ := List.mem_map.mp listed
      exact ⟨p, part, le⟩
  · rintro ⟨p, part, le⟩
    exact Or.inr ⟨p.partition, List.mem_map_of_mem (f := fun p => p.partition) part, le⟩

end MetadataResponse.WellFormed

end Kmsg

namespace AgentPool

variable {prev : PoolState} {metadata : Kmsg.MetadataResponse}

theorem agents_perm (prev : PoolState) (metadata : Kmsg.MetadataResponse) :
    (snapshot prev metadata).1.strategy.agents.Perm metadata.nodeIDs :=
  List.perm_insertionSort _ _

theorem mem_agents {id : Int} :
    id ∈ (snapshot prev metadata).1.strategy.agents ↔ id ∈ metadata.nodeIDs :=
  (agents_perm prev metadata).mem_iff

section Tables

variable (prev : PoolState) (metadata : Kmsg.MetadataResponse)

/-- `topicsWithNoLiveLeader` of a refresh. -/
def noLiveLeader : GoMap String Unit :=
  insertAll ∅ (metadata.topics.flatMap (·.noLive (snapshot prev metadata).1.strategy.agents))

theorem strategy_leaders : (snapshot prev metadata).1.strategy.leaders =
    insertAll ∅ (metadata.listed.filter (isLive (snapshot prev metadata).1.strategy.agents)) :=
  (built_buildLeadersAndTopicIDs _ _ _).leaders

theorem strategy_noLeader : (snapshot prev metadata).1.strategy.noLeader =
    insertAll ∅ ((metadata.listed.filter isUnnamed).map fun e => (e.1, ())) :=
  (built_buildLeadersAndTopicIDs _ _ _).noLeader

theorem strategy_partitionCounts : (snapshot prev metadata).1.strategy.partitionCounts =
    insertAll ∅ (metadata.topics.flatMap (·.count)) :=
  (built_buildLeadersAndTopicIDs _ _ _).counts

theorem strategy_knownTopics : (snapshot prev metadata).1.strategy.knownTopics =
    insertAll (insertAll ∅ ((noLiveLeader prev metadata).keys.map fun topic => (topic, ())))
      ((snapshot prev metadata).1.strategy.leaders.keys.map fun tp => (tp.topic, ())) := by
  rw [noLiveLeader]
  have noLive := (built_buildLeadersAndTopicIDs metadata.topics
    (snapshot prev metadata).1.strategy.agents prev.topicIDs).noLive
  rw [← noLive]
  rfl

end Tables

theorem mem_of_leaders {tp : TopicPartition} {leader : Int}
    (found : (snapshot prev metadata).1.strategy.leaders.lookup tp = some leader) :
    (tp, leader) ∈ metadata.listed ∧ 0 ≤ leader ∧ leader ∈ metadata.nodeIDs := by
  rw [strategy_leaders] at found
  rcases mem_of_lookup_insertAll found with old | mem
  · cases old
  · obtain ⟨listed, alive⟩ := List.mem_filter.mp mem
    obtain ⟨named, known⟩ := of_decide_eq_true alive
    exact ⟨listed, named, mem_agents.mp known⟩

theorem mem_leaders {tp : TopicPartition} :
    tp ∈ (snapshot prev metadata).1.strategy.leaders ↔
      ∃ leader, (tp, leader) ∈ metadata.listed ∧ 0 ≤ leader ∧ leader ∈ metadata.nodeIDs := by
  constructor
  · intro mem
    obtain ⟨leader, found⟩ := Option.isSome_iff_exists.mp (AList.lookup_isSome.mpr mem)
    exact ⟨leader, mem_of_leaders found⟩
  · rintro ⟨leader, listed, named, known⟩
    rw [strategy_leaders, mem_insertAll]
    refine Or.inr (List.mem_map.mpr ⟨(tp, leader), List.mem_filter.mpr ⟨listed, ?_⟩, rfl⟩)
    exact decide_eq_true ⟨named, mem_agents.mpr known⟩

theorem mem_noLeader {tp : TopicPartition} :
    tp ∈ (snapshot prev metadata).1.strategy.noLeader ↔
      ∃ leader, (tp, leader) ∈ metadata.listed ∧ leader < 0 := by
  rw [strategy_noLeader, mem_insertAll]
  simp only [List.map_map, List.mem_map, List.mem_filter, isUnnamed, decide_eq_true_eq,
    Function.comp_apply, Prod.exists]
  constructor
  · rintro (old | ⟨tp', leader, ⟨listed, unnamed⟩, rfl⟩)
    · cases AList.notMem_empty _ old
    · exact ⟨leader, listed, unnamed⟩
  · rintro ⟨leader, listed, unnamed⟩
    exact Or.inr ⟨tp, leader, ⟨listed, unnamed⟩, rfl⟩

theorem mem_noLiveLeader {topic : String} :
    topic ∈ noLiveLeader prev metadata ↔
      ∃ t ∈ metadata.topics, t.topic = some topic ∧
        t.listed.any (isExcluded (snapshot prev metadata).1.strategy.agents) = true ∧
        ¬ t.listed.any (isLive (snapshot prev metadata).1.strategy.agents) = true := by
  rw [noLiveLeader, mem_insertAll]
  simp only [List.map_flatMap, List.mem_flatMap]
  constructor
  · rintro (old | ⟨t, mem, key⟩)
    · cases AList.notMem_empty _ old
    · unfold Kmsg.MetadataResponseTopic.noLive at key
      split at key
      · rename_i shape
        refine ⟨t, mem, ?_, shape⟩
        simpa using key
      · simp at key
  · rintro ⟨t, mem, named, shape⟩
    refine Or.inr ⟨t, mem, ?_⟩
    unfold Kmsg.MetadataResponseTopic.noLive
    rw [if_pos shape, named]
    simp

/-- A topic is known when it has a partition whose leader is named. -/
theorem mem_knownTopics {topic : String} :
    topic ∈ (snapshot prev metadata).1.strategy.knownTopics ↔
      ∃ tp leader, (tp, leader) ∈ metadata.listed ∧ tp.topic = topic ∧ 0 ≤ leader := by
  rw [strategy_knownTopics, mem_insertAll, mem_insertAll]
  simp only [List.map_map, List.mem_map, Function.comp_apply, exists_eq_right]
  constructor
  · rintro ((old | noLive) | ⟨tp, mem, rfl⟩)
    · cases AList.notMem_empty _ old
    · obtain ⟨t, mem, named, excluded, -⟩ := mem_noLiveLeader.mp noLive
      obtain ⟨⟨tp, leader⟩, listed, shape⟩ := List.any_eq_true.mp excluded
      refine ⟨tp, leader, List.mem_flatMap.mpr ⟨t, mem, listed⟩, ?_, (of_decide_eq_true shape).1⟩
      exact Option.some.inj ((Kmsg.MetadataResponseTopic.mem_listed.mp listed).1.symm.trans named)
    · obtain ⟨leader, listed, named, -⟩ := mem_leaders.mp mem
      exact ⟨tp, leader, listed, rfl, named⟩
  · rintro ⟨tp, leader, listed, rfl, named⟩
    obtain ⟨t, mem, inside⟩ := List.mem_flatMap.mp listed
    have topic := (Kmsg.MetadataResponseTopic.mem_listed.mp inside).1
    by_cases alive : t.listed.any (isLive (snapshot prev metadata).1.strategy.agents) = true
    · obtain ⟨⟨tp', leader'⟩, inside', shape⟩ := List.any_eq_true.mp alive
      obtain ⟨named', known⟩ := of_decide_eq_true shape
      have topic' := (Kmsg.MetadataResponseTopic.mem_listed.mp inside').1
      refine Or.inr ⟨tp', mem_leaders.mpr ⟨leader', List.mem_flatMap.mpr ⟨t, mem, inside'⟩, named',
        mem_agents.mp known⟩, ?_⟩
      exact Option.some.inj (topic'.symm.trans topic)
    · refine Or.inl (Or.inr (mem_noLiveLeader.mpr ⟨t, mem, topic, ?_, alive⟩))
      refine List.any_eq_true.mpr ⟨(tp, leader), inside, decide_eq_true ⟨named, ?_⟩⟩
      intro known
      exact alive (List.any_eq_true.mpr ⟨(tp, leader), inside, decide_eq_true ⟨named, known⟩⟩)

theorem lookup_partitionCounts (formed : metadata.WellFormed) {t : Kmsg.MetadataResponseTopic}
    (mem : t ∈ metadata.topics) {topic : String} (named : t.topic = some topic)
    (ok : t.errorCode = 0) :
    (snapshot prev metadata).1.strategy.partitionCounts.lookup topic =
      some (int32 ((t.partitions.map (·.partition)).foldl max (-1) + 1)) := by
  rw [strategy_partitionCounts, lookup_insertAll_empty]
  · refine List.mem_flatMap.mpr ⟨t, mem, ?_⟩
    simp [Kmsg.MetadataResponseTopic.count, named, ok]
  · refine List.Nodup.sublist ?_ formed.topics
    rw [List.map_flatMap, List.filterMap_eq_flatMap_toList]
    refine List.Sublist.flatMap_right _ fun t _ => ?_
    unfold Kmsg.MetadataResponseTopic.count
    split
    · exact List.nil_sublist _
    · simp [Function.comp_def]

end AgentPool

namespace DefaultPartitionAssignmentStrategy

variable {hashTopicPartition : String → Int → UInt64} {s : DefaultPartitionAssignmentStrategy}
  {topic : String} {partition : Int}

theorem leaderWithRoute_ok_iff : (∃ r, s.leaderWithRoute hashTopicPartition topic partition = .ok r) ↔
    ⟨topic, partition⟩ ∈ s.leaders ∨
      ⟨topic, partition⟩ ∉ s.noLeader ∧ s.agents ≠ [] ∧ topic ∈ s.knownTopics ∧ 0 ≤ partition ∧
        partition < (s.partitionCounts.lookup topic).getD 0 := by
  rw [← AList.lookup_isSome]
  unfold leaderWithRoute
  cases found : s.leaders.lookup ⟨topic, partition⟩ with
  | some leader => simp
  | none =>
      simp only [Option.isSome_none, Bool.false_eq_true, false_or, List.length_eq_zero_iff]
      split
      · simp_all
      · split
        · simp_all
        · split
          · split
            · split <;> simp_all
            · simp_all
          · split
            · rename_i outside
              simp only [reduceCtorEq, exists_false, false_iff, not_and, not_lt]
              omega
            · simp_all

/-- Where every leader is an agent, so is the agent that a partition is resolved to. -/
theorem leaderWithRoute_mem_agents
    (leaders : ∀ tp leader, s.leaders.lookup tp = some leader → leader ∈ s.agents) {leader : Int}
    {route : RouteOutcome}
    (resolved : s.leaderWithRoute hashTopicPartition topic partition = .ok (leader, route)) :
    leader ∈ s.agents := by
  unfold leaderWithRoute at resolved
  split at resolved
  · rename_i found
    cases resolved
    exact leaders _ _ found
  · split at resolved
    · cases resolved
    · split at resolved
      · cases resolved
      · rename_i some
        split at resolved
        · split at resolved
          · split at resolved <;> cases resolved
          · cases resolved
        · split at resolved
          · cases resolved
          · cases resolved
            have inside : (hashTopicPartition topic partition).toNat % s.agents.length <
                s.agents.length := Nat.mod_lt _ (by omega)
            rw [List.getD_eq_getElem?_getD, List.getElem?_eq_getElem inside, Option.getD_some]
            exact List.getElem_mem inside

/-- Either there is no candidate at all, or the candidates are prefixes of one order. -/
theorem candidates_cases (hashTopicPartition : String → Int → UInt64) (topic : String)
    (partition : Int) (distinct : s.agents.Nodup)
    (leaders : ∀ tp leader, s.leaders.lookup tp = some leader → leader ∈ s.agents) :
    (∀ n, s.candidates hashTopicPartition topic partition n = []) ∧
        (¬ ∃ r, s.leaderWithRoute hashTopicPartition topic partition = .ok r) ∨
      ∃ leader route, s.leaderWithRoute hashTopicPartition topic partition = .ok (leader, route) ∧
        leader ∈ s.agents ∧
        ∀ n, s.candidates hashTopicPartition topic partition n =
          ((s.order hashTopicPartition leader topic partition).take n).map
            fun id => { nodeID := id } := by
  cases resolved : s.leaderWithRoute hashTopicPartition topic partition with
  | error miss =>
      refine Or.inl ⟨fun n => ?_, by simp⟩
      unfold candidates candidatesWithRoute
      rw [resolved]
      split <;> rfl
  | ok r =>
      obtain ⟨leader, route⟩ := r
      have live := leaderWithRoute_mem_agents leaders resolved
      exact Or.inr ⟨leader, route, rfl, live, candidates_eq_take distinct resolved live⟩

end DefaultPartitionAssignmentStrategy

section Refresh

variable {hashTopicPartition : String → Int → UInt64} {prev : PoolState}
  {metadata : Kmsg.MetadataResponse}

theorem agents_nodup (prev : PoolState) (distinct : metadata.nodeIDs.Nodup) :
    (AgentPool.snapshot prev metadata).1.strategy.agents.Nodup :=
  (AgentPool.agents_perm prev metadata).nodup_iff.mpr distinct

theorem leaders_live (tp : TopicPartition) (leader : Int)
    (found : (AgentPool.snapshot prev metadata).1.strategy.leaders.lookup tp = some leader) :
    leader ∈ (AgentPool.snapshot prev metadata).1.strategy.agents :=
  AgentPool.mem_agents.mpr (AgentPool.mem_of_leaders found).2.2

/-- What makes a partition routable: its own leader is named, or it is a hole below the
highest index of a topic with a named leader. -/
theorem leaderWithRoute_iff (hashTopicPartition : String → Int → UInt64) (prev : PoolState)
    (formed : metadata.WellFormed) (topic : String) (partition : Int) :
    (∃ r, (AgentPool.snapshot prev metadata).1.strategy.leaderWithRoute hashTopicPartition topic
        partition = .ok r) ↔
      metadata.brokers ≠ [] ∧ ∃ t ∈ metadata.topics, t.topic = some topic ∧ t.errorCode = 0 ∧
        ((∃ p ∈ t.partitions, p.partition = partition ∧ 0 ≤ p.leader) ∨
          (∀ p ∈ t.partitions, p.partition ≠ partition) ∧ 0 ≤ partition ∧
            (∃ p ∈ t.partitions, partition ≤ p.partition) ∧ ∃ p ∈ t.partitions, 0 ≤ p.leader) := by
  have agents : (AgentPool.snapshot prev metadata).1.strategy.agents ≠ [] ↔
      metadata.brokers ≠ [] := by
    rw [ne_eq, ← List.length_eq_zero_iff, (AgentPool.agents_perm prev metadata).length_eq,
      Kmsg.MetadataResponse.nodeIDs, List.length_map, List.length_eq_zero_iff]
  rw [DefaultPartitionAssignmentStrategy.leaderWithRoute_ok_iff, agents, AgentPool.mem_leaders,
    AgentPool.mem_noLeader, AgentPool.mem_knownTopics]
  constructor
  · rintro (⟨leader, listed, named, known⟩ | ⟨noneUnnamed, some, ⟨tp, leader, listed, rfl, named⟩,
      nonneg, below⟩)
    · obtain ⟨t, mem, topic, ok, part⟩ := Kmsg.MetadataResponse.mem_listed.mp listed
      obtain ⟨b, broker, -⟩ := List.mem_map.mp known
      exact ⟨List.ne_nil_of_mem broker, t, mem, topic, ok, Or.inl ⟨_, part, rfl, named⟩⟩
    · obtain ⟨t, mem, topic, ok, part⟩ := Kmsg.MetadataResponse.mem_listed.mp listed
      refine ⟨some, t, mem, topic, ok, ?_⟩
      by_cases own : ∃ p ∈ t.partitions, p.partition = partition
      · obtain ⟨p, mem', rfl⟩ := own
        refine Or.inl ⟨p, mem', rfl, ?_⟩
        by_contra negative
        exact noneUnnamed ⟨p.leader, Kmsg.MetadataResponse.mem_listed.mpr ⟨t, mem, topic, ok, mem'⟩,
          by omega⟩
      · rw [AgentPool.lookup_partitionCounts formed mem topic ok, Option.getD_some,
          formed.lt_count_iff mem nonneg] at below
        exact Or.inr ⟨fun p mem' same => own ⟨p, mem', same⟩, nonneg, below, _, part, named⟩
  · rintro ⟨some, t, mem, named, ok, own | ⟨hole, nonneg, below, p, part, leader⟩⟩
    · obtain ⟨p, part, rfl, leader⟩ := own
      have listed : ((⟨topic, p.partition⟩, p.leader) : TopicPartition × Int) ∈ metadata.listed :=
        Kmsg.MetadataResponse.mem_listed.mpr ⟨t, mem, named, ok, part⟩
      have nonneg := (formed.indices t mem p part).1
      refine Or.inr ⟨?_, some, ⟨_, _, listed, rfl, leader⟩, nonneg, ?_⟩
      · rintro ⟨other, listed', negative⟩
        have same := formed.leader_unique listed listed'
        omega
      · rw [AgentPool.lookup_partitionCounts formed mem named ok, Option.getD_some,
          formed.lt_count_iff mem nonneg]
        exact ⟨p, part, le_refl _⟩
    · refine Or.inr ⟨?_, some, ⟨⟨topic, p.partition⟩, p.leader, ?_, rfl, leader⟩, nonneg, ?_⟩
      · rintro ⟨other, listed, -⟩
        obtain ⟨t', mem', named', -, part'⟩ := Kmsg.MetadataResponse.mem_listed.mp listed
        obtain rfl := formed.topic_unique mem mem' named named'
        exact hole _ part' rfl
      · exact Kmsg.MetadataResponse.mem_listed.mpr ⟨t, mem, named, ok, part⟩
      · rw [AgentPool.lookup_partitionCounts formed mem named ok, Option.getD_some,
          formed.lt_count_iff mem nonneg]
        exact below

/-- After a refresh a partition has candidates exactly when the response gives a reason for
it, the named leader comes first if it is a broker, and all candidates are brokers. -/
theorem refresh_routes_exactly_metadata (formed : metadata.WellFormed) (topic : String)
    (partition : Int) {n : Nat} (positive : 1 ≤ n) :
    let found := (AgentPool.refresh prev (.ok metadata)).1.strategy.candidates hashTopicPartition
      topic partition n
    (found ≠ [] ↔
      metadata.brokers ≠ [] ∧ ∃ t ∈ metadata.topics, t.topic = some topic ∧ t.errorCode = 0 ∧
        ((∃ p ∈ t.partitions, p.partition = partition ∧ 0 ≤ p.leader) ∨
          (∀ p ∈ t.partitions, p.partition ≠ partition) ∧ 0 ≤ partition ∧
            (∃ p ∈ t.partitions, partition ≤ p.partition) ∧ ∃ p ∈ t.partitions, 0 ≤ p.leader)) ∧
      (∀ t ∈ metadata.topics, t.topic = some topic → t.errorCode = 0 → ∀ p ∈ t.partitions,
        p.partition = partition → 0 ≤ p.leader → p.leader ∈ metadata.nodeIDs →
          found.head? = some { nodeID := p.leader }) ∧
      ∀ c ∈ found, c.nodeID ∈ metadata.nodeIDs := by
  intro found
  have distinct := agents_nodup prev formed.brokers
  obtain ⟨more, rfl⟩ : ∃ more, n = more + 1 := ⟨n - 1, by omega⟩
  rw [← leaderWithRoute_iff hashTopicPartition prev formed]
  rcases DefaultPartitionAssignmentStrategy.candidates_cases hashTopicPartition topic partition
    distinct leaders_live with ⟨empty, missed⟩ | ⟨leader, route, resolved, live, prefixes⟩
  · have none : found = [] := empty _
    rw [none]
    refine ⟨by simpa using missed, ?_, by simp⟩
    intro t mem named ok p part own leader known
    refine absurd ?_ missed
    refine (leaderWithRoute_iff hashTopicPartition prev formed topic partition).mpr
      ⟨?_, t, mem, named, ok, Or.inl ⟨p, part, own, leader⟩⟩
    obtain ⟨b, broker, -⟩ := List.mem_map.mp known
    exact List.ne_nil_of_mem broker
  · have first : found = { nodeID := leader } ::
        (((AgentPool.snapshot prev metadata).1.strategy.order hashTopicPartition leader topic
          partition).tail.take more).map fun id => { nodeID := id } := prefixes _
    refine ⟨⟨fun _ => ⟨_, resolved⟩, fun _ => by rw [first]; exact List.cons_ne_nil _ _⟩, ?_, ?_⟩
    · intro t mem named ok p part own nonneg known
      subst own
      have listed : ((⟨topic, p.partition⟩, p.leader) : TopicPartition × Int) ∈ metadata.listed :=
        Kmsg.MetadataResponse.mem_listed.mpr ⟨t, mem, named, ok, part⟩
      have inside : ⟨topic, p.partition⟩ ∈ (AgentPool.snapshot prev metadata).1.strategy.leaders :=
        AgentPool.mem_leaders.mpr ⟨p.leader, listed, nonneg, known⟩
      obtain ⟨other, lookup⟩ := Option.isSome_iff_exists.mp (AList.lookup_isSome.mpr inside)
      obtain rfl := formed.leader_unique listed (AgentPool.mem_of_leaders lookup).1
      unfold DefaultPartitionAssignmentStrategy.leaderWithRoute at resolved
      rw [lookup] at resolved
      obtain ⟨rfl, -⟩ := Prod.mk.inj (Except.ok.inj resolved)
      rw [first]
      rfl
    · intro c mem
      change c ∈ (AgentPool.snapshot prev metadata).1.strategy.candidates _ _ _ _ at mem
      rw [prefixes] at mem
      obtain ⟨id, listed, rfl⟩ := List.mem_map.mp mem
      exact AgentPool.mem_agents.mp ((DefaultPartitionAssignmentStrategy.order_perm distinct
        live).mem_iff.mp (List.mem_of_mem_take listed))

/-- Two agents; partition 0 has a named leader, partition 1 one that has left, and partition 2
none. -/
def twoAgents : Kmsg.MetadataResponse :=
  { brokers := [⟨2⟩, ⟨1⟩], topics := [{ topic := some "t", partitions := [⟨0, 2⟩, ⟨1, 9⟩, ⟨2, -1⟩] }] }

theorem twoAgents_wellFormed : twoAgents.WellFormed :=
  ⟨by decide, by decide, by decide, by decide⟩

theorem refresh_routes_exactly_metadata_two :
    ((AgentPool.refresh {} (.ok twoAgents)).1.strategy.candidates (fun _ _ => 5) "t" 0 2).head? =
      some { nodeID := 2 } :=
  (refresh_routes_exactly_metadata twoAgents_wellFormed "t" 0 (by decide : 1 ≤ 2)).2.1 _
    List.mem_cons_self rfl rfl ⟨0, 2⟩ List.mem_cons_self rfl (by decide) (by decide)

-- the other two partitions: a stand-in for the agent that left, and no agent without a leader
example :
    let s := (AgentPool.refresh {} (.ok twoAgents)).1.strategy
    s.candidates (fun _ _ => 5) "t" 1 3 = [{ nodeID := 2 }, { nodeID := 1 }] ∧
      s.candidatesWithRoute (fun _ _ => 5) "t" 2 3 = ([], .missNoLeader) := by
  decide

/-- The candidate lists of a routable partition are the prefixes of one permutation of the
pool. -/
theorem refresh_candidates_prefix_consistent (distinct : metadata.nodeIDs.Nodup) (topic : String)
    (partition : Int)
    (routable : (AgentPool.refresh prev (.ok metadata)).1.strategy.candidates hashTopicPartition
      topic partition 1 ≠ []) {n m : Nat} (positive : 1 ≤ n) (le : n ≤ m) :
    let found := (AgentPool.refresh prev (.ok metadata)).1.strategy.candidates hashTopicPartition
      topic partition
    (found n).length = min n metadata.brokers.length ∧ ((found n).map Agent.nodeID).Nodup ∧
      (∀ c ∈ found n, c.nodeID ∈ metadata.nodeIDs) ∧ found n = (found m).take n ∧
      ((found metadata.brokers.length).map Agent.nodeID).Perm metadata.nodeIDs ∧
      (found 1).head? = (found m).head? := by
  intro found
  have nodup := agents_nodup prev distinct
  rcases DefaultPartitionAssignmentStrategy.candidates_cases hashTopicPartition topic partition
    nodup leaders_live with ⟨empty, -⟩ | ⟨leader, route, -, live, prefixes⟩
  · exact absurd (empty 1) routable
  · set all := (AgentPool.snapshot prev metadata).1.strategy.order hashTopicPartition leader topic
      partition
    have perm : all.Perm metadata.nodeIDs :=
      (DefaultPartitionAssignmentStrategy.order_perm nodup live).trans
        (AgentPool.agents_perm prev metadata)
    have length : all.length = metadata.brokers.length := by
      rw [perm.length_eq, Kmsg.MetadataResponse.nodeIDs, List.length_map]
    have ids (k : Nat) : (found k).map Agent.nodeID = all.take k := by
      change ((AgentPool.snapshot prev metadata).1.strategy.candidates _ _ _ _).map _ = _
      rw [prefixes, List.map_map]
      exact List.map_id _
    have prefixed (k : Nat) (le : k ≤ m) : found k = (found m).take k := by
      change (AgentPool.snapshot prev metadata).1.strategy.candidates _ _ _ _ =
        ((AgentPool.snapshot prev metadata).1.strategy.candidates _ _ _ _).take k
      rw [prefixes, prefixes, ← List.map_take, List.take_take, Nat.min_eq_left le]
    refine ⟨?_, ?_, ?_, prefixed n le, ?_, ?_⟩
    · rw [← List.length_map (f := Agent.nodeID), ids, List.length_take, length]
    · rw [ids]
      exact (perm.nodup_iff.mpr distinct).sublist (List.take_sublist _ _)
    · intro c mem
      have listed := List.mem_map_of_mem (f := Agent.nodeID) mem
      rw [ids] at listed
      exact perm.mem_iff.mp (List.mem_of_mem_take listed)
    · rw [ids, ← length, List.take_length]
      exact perm
    · rw [prefixed 1 (by omega), List.head?_take]
      simp

theorem refresh_candidates_prefix_consistent_two :
    ((AgentPool.refresh {} (.ok twoAgents)).1.strategy.candidates (fun _ _ => 5) "t" 1 1).length = 1 ∧
      (AgentPool.refresh {} (.ok twoAgents)).1.strategy.candidates (fun _ _ => 5) "t" 1 1 =
        ((AgentPool.refresh {} (.ok twoAgents)).1.strategy.candidates (fun _ _ => 5) "t" 1 2).take 1 := by
  have all := refresh_candidates_prefix_consistent twoAgents_wellFormed.brokers "t" 1
    (by decide : (AgentPool.refresh {} (.ok twoAgents)).1.strategy.candidates (fun _ _ => 5) "t" 1 1 ≠
      []) (by decide : 1 ≤ 1) (by decide : 1 ≤ 2)
  exact ⟨all.1, all.2.2.2.1⟩

end Refresh

end Warpstream
