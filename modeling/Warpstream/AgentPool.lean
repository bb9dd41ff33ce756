import Mathlib.Data.List.Sort
import Warpstream.PartitionAssignment

set_option autoImplicit false

/- The agent pool: what a Metadata response says about agents, leaders and partitions, as
the tables of an assignment strategy. -/
namespace Warpstream

open Kbin Inserts

namespace Kmsg

structure MetadataResponseBroker where
  nodeID : Int

structure MetadataResponseTopicPartition where
  partition : Int
  leader : Int

structure MetadataResponseTopic where
  topic : Option String
  topicID : TopicID := 0
  errorCode : Int := 0
  partitions : List MetadataResponseTopicPartition := []

structure MetadataResponse where
  brokers : List MetadataResponseBroker := []
  topics : List MetadataResponseTopic := []

end Kmsg

/-- Leaders that are not in the broker set, with the first one as a sample. -/
structure LeaderDrops where
  count : Nat := 0
  topic : String := ""
  partition : Int := 0
  nodeID : Int := 0
deriving DecidableEq

def LeaderDrops.add (d : LeaderDrops) (topic : String) (partition nodeID : Int) : LeaderDrops :=
  if d.count = 0 then ⟨1, topic, partition, nodeID⟩ else { d with count := d.count + 1 }

/-- The results of `buildLeadersAndTopicIDs`. -/
structure LeaderTables where
  leaders : GoMap TopicPartition Int := ∅
  topicIDs : GoMap String TopicID := ∅
  topicsWithNoLiveLeader : GoMap String Unit := ∅
  noLeader : GoMap TopicPartition Unit := ∅
  partitionCounts : GoMap String Int := ∅
  dropped : LeaderDrops := {}

/-- The variables that the loop over the partitions of a topic writes. -/
structure PartitionScan where
  leaders : GoMap TopicPartition Int
  noLeader : GoMap TopicPartition Unit
  dropped : LeaderDrops
  kept : Nat := 0
  excluded : Nat := 0
  maxPartition : Int := -1

def PartitionScan.add (agentSet : List Int) (name : String) (s : PartitionScan)
    (part : Kmsg.MetadataResponseTopicPartition) : PartitionScan :=
  let s := { s with
    maxPartition := if s.maxPartition < part.partition then part.partition else s.maxPartition }
  if part.leader < 0 then
    { s with noLeader := s.noLeader.insert ⟨name, part.partition⟩ () }
  else if part.leader ∉ agentSet then
    { s with
      dropped := s.dropped.add name part.partition part.leader
      excluded := s.excluded + 1 }
  else
    { s with
      kept := s.kept + 1
      leaders := s.leaders.insert ⟨name, part.partition⟩ part.leader }

def LeaderTables.addTopic (agentSet : List Int) (prevTopicIDs : GoMap String TopicID)
    (tables : LeaderTables) (t : Kmsg.MetadataResponseTopic) : LeaderTables :=
  match t.topic with
  | none => tables
  | some name =>
      if t.errorCode ≠ 0 then
        match prevTopicIDs.lookup name with
        | some id => { tables with topicIDs := tables.topicIDs.insert name id }
        | none => tables
      else
        let s := t.partitions.foldl (PartitionScan.add agentSet name)
          ⟨tables.leaders, tables.noLeader, tables.dropped, 0, 0, -1⟩
        { leaders := s.leaders
          topicIDs := tables.topicIDs.insert name t.topicID
          topicsWithNoLiveLeader :=
            if 0 < s.excluded ∧ s.kept = 0 then tables.topicsWithNoLiveLeader.insert name ()
            else tables.topicsWithNoLiveLeader
          noLeader := s.noLeader
          partitionCounts := tables.partitionCounts.insert name (int32 (s.maxPartition + 1))
          dropped := s.dropped }

def buildLeadersAndTopicIDs (respTopics : List Kmsg.MetadataResponseTopic) (agentSet : List Int)
    (prevTopicIDs : GoMap String TopicID) : LeaderTables :=
  respTopics.foldl (LeaderTables.addTopic agentSet prevTopicIDs) {}

def diffRemovedAgents (old newSet : List Int) : List Int := old.filter fun id => id ∉ newSet

/-- `poolState`. -/
structure PoolState where
  agents : List Int := []
  topicIDs : GoMap String TopicID := ∅
  strategy : DefaultPartitionAssignmentStrategy := newDefaultPartitionAssignmentStrategy [] ∅ ∅ ∅ ∅

namespace AgentPool

/-- The snapshot for a Metadata response, and the agents that are gone. -/
def snapshot (prev : PoolState) (metadata : Kmsg.MetadataResponse) :
    PoolState × List Int × LeaderDrops :=
  let newAgents := (metadata.brokers.map (·.nodeID)).insertionSort (· ≤ ·)
  let tables := buildLeadersAndTopicIDs metadata.topics newAgents prev.topicIDs
  ({ agents := newAgents
     topicIDs := tables.topicIDs
     strategy := newDefaultPartitionAssignmentStrategy newAgents tables.leaders
       tables.topicsWithNoLiveLeader tables.noLeader tables.partitionCounts },
    diffRemovedAgents prev.agents newAgents, tables.dropped)

/-- `refresh` with what the Metadata request came back with. A failed request leaves the
snapshot in place. -/
def refresh (prev : PoolState) :
    Except GoError Kmsg.MetadataResponse → PoolState × Except GoError (List Int × LeaderDrops)
  | .error err =>
      (prev, .error (GoError.wrap { text := "fetching metadata: " ++ err.node.text } err))
  | .ok metadata => ((snapshot prev metadata).1, .ok (snapshot prev metadata).2)

end AgentPool

namespace Kmsg

/-- The partitions that a topic without an error lists, with their leaders. -/
def MetadataResponseTopic.listed (t : MetadataResponseTopic) : List (TopicPartition × Int) :=
  match t.topic with
  | none => []
  | some name =>
      if t.errorCode ≠ 0 then [] else t.partitions.map fun p => (⟨name, p.partition⟩, p.leader)

theorem MetadataResponseTopic.mem_listed {t : MetadataResponseTopic} {tp : TopicPartition}
    {leader : Int} : (tp, leader) ∈ t.listed ↔ t.topic = some tp.topic ∧ t.errorCode = 0 ∧
      (⟨tp.partition, leader⟩ : MetadataResponseTopicPartition) ∈ t.partitions := by
  obtain ⟨topic, topicID, errorCode, partitions⟩ := t
  obtain ⟨name, partition⟩ := tp
  cases topic with
  | none => simp [listed]
  | some found =>
      by_cases err : errorCode = 0
      · simp only [listed, err, ne_eq, not_true_eq_false, ↓reduceIte, List.mem_map, Prod.mk.injEq,
          TopicPartition.mk.injEq, Option.some.injEq, true_and]
        constructor
        · rintro ⟨p, mem, ⟨rfl, rfl⟩, rfl⟩
          exact ⟨rfl, mem⟩
        · rintro ⟨rfl, mem⟩
          exact ⟨_, mem, ⟨rfl, rfl⟩, rfl⟩
      · simp [listed, err]

/-- What is assumed of the broker: each agent, topic and partition is listed once, and the
partition indices leave room for the count. -/
structure MetadataResponse.WellFormed (metadata : MetadataResponse) : Prop where
  brokers : (metadata.brokers.map (·.nodeID)).Nodup
  topics : (metadata.topics.filterMap (·.topic)).Nodup
  partitions : ∀ t ∈ metadata.topics, (t.partitions.map (·.partition)).Nodup
  indices : ∀ t ∈ metadata.topics, ∀ p ∈ t.partitions, 0 ≤ p.partition ∧ p.partition ≤ 2 ^ 31 - 2

end Kmsg

/-- A partition with a leader that is in the broker set. -/
def isLive (agentSet : List Int) (e : TopicPartition × Int) : Bool := 0 ≤ e.2 ∧ e.2 ∈ agentSet

/-- A partition with a leader that is not. -/
def isExcluded (agentSet : List Int) (e : TopicPartition × Int) : Bool := 0 ≤ e.2 ∧ e.2 ∉ agentSet

def isUnnamed (e : TopicPartition × Int) : Bool := e.2 < 0

/-- What the loop over a topic's partitions has done after some entries. -/
structure PartitionScan.Scanned (agentSet : List Int) (before after : PartitionScan)
    (entries : List (TopicPartition × Int)) : Prop where
  leaders : after.leaders = insertAll before.leaders (entries.filter (isLive agentSet))
  noLeader : after.noLeader =
    insertAll before.noLeader ((entries.filter isUnnamed).map fun e => (e.1, ()))
  kept : after.kept = before.kept + (entries.filter (isLive agentSet)).length
  excluded : after.excluded = before.excluded + (entries.filter (isExcluded agentSet)).length
  maxPartition : after.maxPartition =
    (entries.map fun e => e.1.partition).foldl max before.maxPartition

theorem PartitionScan.scanned_add (agentSet : List Int) (name : String) (s : PartitionScan)
    (p : Kmsg.MetadataResponseTopicPartition) :
    Scanned agentSet s (s.add agentSet name p) [(⟨name, p.partition⟩, p.leader)] := by
  have highest : (if s.maxPartition < p.partition then p.partition else s.maxPartition) =
      max s.maxPartition p.partition := by
    split <;> omega
  by_cases unnamed : p.leader < 0
  · have named : ¬ 0 ≤ p.leader := by omega
    constructor <;> simp [add, isLive, isExcluded, isUnnamed, unnamed, named, highest]
  · have named : 0 ≤ p.leader := by omega
    replace unnamed := eq_false unnamed
    by_cases known : p.leader ∈ agentSet
    · constructor <;> simp [add, isLive, isExcluded, isUnnamed, unnamed, named, known, highest]
    · constructor <;> simp [add, isLive, isExcluded, isUnnamed, unnamed, named, known, highest]

theorem PartitionScan.Scanned.trans {agentSet : List Int} {first second third : PartitionScan}
    {left right : List (TopicPartition × Int)} (here : Scanned agentSet first second left)
    (later : Scanned agentSet second third right) :
    Scanned agentSet first third (left ++ right) := by
  constructor
  · rw [later.leaders, here.leaders, List.filter_append, insertAll_append]
  · rw [later.noLeader, here.noLeader, List.filter_append, List.map_append, insertAll_append]
  · rw [later.kept, here.kept, List.filter_append, List.length_append, Nat.add_assoc]
  · rw [later.excluded, here.excluded, List.filter_append, List.length_append, Nat.add_assoc]
  · rw [later.maxPartition, here.maxPartition, List.map_append, List.foldl_append]

theorem PartitionScan.scanned_foldl (agentSet : List Int) (name : String)
    (parts : List Kmsg.MetadataResponseTopicPartition) (s : PartitionScan) :
    Scanned agentSet s (parts.foldl (add agentSet name) s)
      (parts.map fun p => (⟨name, p.partition⟩, p.leader)) := by
  induction parts generalizing s with
  | nil => constructor <;> simp
  | cons p rest ih => exact (scanned_add agentSet name s p).trans (ih _)

namespace Kmsg.MetadataResponseTopic

/-- The topic's entry in the set of topics without a live leader. -/
def noLive (agentSet : List Int) (t : MetadataResponseTopic) : List (String × Unit) :=
  if t.listed.any (isExcluded agentSet) ∧ ¬ t.listed.any (isLive agentSet) then
    t.topic.toList.map fun name => (name, ())
  else []

/-- The topic's entry in the map of partition counts. -/
def count (t : MetadataResponseTopic) : List (String × Int) :=
  if t.errorCode ≠ 0 then []
  else
    t.topic.toList.map fun name =>
      (name, int32 ((t.partitions.map (·.partition)).foldl max (-1) + 1))

end Kmsg.MetadataResponseTopic

/-- What the loop over the topics has done after some of them. -/
structure LeaderTables.Built (agentSet : List Int) (before after : LeaderTables)
    (topics : List Kmsg.MetadataResponseTopic) : Prop where
  leaders : after.leaders =
    insertAll before.leaders ((topics.flatMap (·.listed)).filter (isLive agentSet))
  noLeader : after.noLeader =
    insertAll before.noLeader (((topics.flatMap (·.listed)).filter isUnnamed).map fun e => (e.1, ()))
  noLive : after.topicsWithNoLiveLeader =
    insertAll before.topicsWithNoLiveLeader (topics.flatMap (·.noLive agentSet))
  counts : after.partitionCounts =
    insertAll before.partitionCounts (topics.flatMap (·.count))

theorem LeaderTables.built_addTopic (agentSet : List Int) (prevTopicIDs : GoMap String TopicID)
    (tables : LeaderTables) (t : Kmsg.MetadataResponseTopic) :
    Built agentSet tables (tables.addTopic agentSet prevTopicIDs t) [t] := by
  obtain ⟨topic, topicID, errorCode, partitions⟩ := t
  cases topic with
  | none =>
      constructor <;> simp [addTopic, Kmsg.MetadataResponseTopic.listed,
        Kmsg.MetadataResponseTopic.noLive, Kmsg.MetadataResponseTopic.count]
  | some name =>
      by_cases err : errorCode = 0
      · subst err
        have scan := PartitionScan.scanned_foldl agentSet name partitions
          ⟨tables.leaders, tables.noLeader, tables.dropped, 0, 0, -1⟩
        have listed : Kmsg.MetadataResponseTopic.listed ⟨some name, topicID, 0, partitions⟩ =
            partitions.map fun p => (⟨name, p.partition⟩, p.leader) := rfl
        have excluded := scan.excluded
        have kept := scan.kept
        have highest := scan.maxPartition
        rw [← listed] at excluded kept
        simp only [Nat.zero_add, List.map_map] at excluded kept highest
        constructor
        · simpa [addTopic, listed] using scan.leaders
        · simpa [addTopic, listed] using scan.noLeader
        · simp only [addTopic, ne_eq, not_true_eq_false, ↓reduceIte, excluded, kept,
            List.flatMap_singleton, Kmsg.MetadataResponseTopic.noLive, Option.toList_some,
            List.map_singleton, List.length_pos_iff, List.length_eq_zero_iff, List.filter_eq_nil_iff,
            List.any_eq_true, not_forall, not_exists, not_and, not_not, exists_prop]
          split <;> rfl
        · simp only [addTopic, ne_eq, not_true_eq_false, ↓reduceIte, highest,
            List.flatMap_singleton, Kmsg.MetadataResponseTopic.count, Option.toList_some,
            List.map_singleton, insertAll_cons, insertAll_nil]
          rfl
      · cases found : prevTopicIDs.lookup name with
        | none =>
            constructor <;> simp [addTopic, err, found, Kmsg.MetadataResponseTopic.listed,
              Kmsg.MetadataResponseTopic.noLive, Kmsg.MetadataResponseTopic.count]
        | some id =>
            constructor <;> simp [addTopic, err, found, Kmsg.MetadataResponseTopic.listed,
              Kmsg.MetadataResponseTopic.noLive, Kmsg.MetadataResponseTopic.count]

theorem LeaderTables.Built.trans {agentSet : List Int} {first second third : LeaderTables}
    {left right : List Kmsg.MetadataResponseTopic} (here : Built agentSet first second left)
    (later : Built agentSet second third right) : Built agentSet first third (left ++ right) := by
  constructor
  · rw [later.leaders, here.leaders, List.flatMap_append, List.filter_append, insertAll_append]
  · rw [later.noLeader, here.noLeader, List.flatMap_append, List.filter_append, List.map_append,
      insertAll_append]
  · rw [later.noLive, here.noLive, List.flatMap_append, insertAll_append]
  · rw [later.counts, here.counts, List.flatMap_append, insertAll_append]

theorem built_buildLeadersAndTopicIDs (topics : List Kmsg.MetadataResponseTopic)
    (agentSet : List Int) (prevTopicIDs : GoMap String TopicID) :
    LeaderTables.Built agentSet {} (buildLeadersAndTopicIDs topics agentSet prevTopicIDs) topics := by
  have all (tables : LeaderTables) : LeaderTables.Built agentSet tables
      (topics.foldl (LeaderTables.addTopic agentSet prevTopicIDs) tables) topics := by
    induction topics generalizing tables with
    | nil => constructor <;> rfl
    | cons t rest ih => exact (LeaderTables.built_addTopic agentSet prevTopicIDs tables t).trans (ih _)
  exact all {}

end Warpstream
