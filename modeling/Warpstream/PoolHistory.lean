import Warpstream.AgentPoolRouting

set_option autoImplicit false

/- The snapshots of the pool over any sequence of refreshes. Topic UUIDs are the one table
that a refresh carries over from the snapshot before it. -/
namespace Warpstream

open Inserts

namespace Kmsg

/-- The topic's entry in the map of UUIDs, given the map of the snapshot before. -/
def MetadataResponseTopic.ids (prevTopicIDs : GoMap String TopicID) (t : MetadataResponseTopic) :
    List (String × TopicID) :=
  match t.topic with
  | none => []
  | some name =>
      if t.errorCode ≠ 0 then (prevTopicIDs.lookup name).toList.map fun id => (name, id)
      else [(name, t.topicID)]

theorem MetadataResponseTopic.mem_ids {prevTopicIDs : GoMap String TopicID}
    {t : MetadataResponseTopic} {name : String} {id : TopicID} :
    (name, id) ∈ t.ids prevTopicIDs ↔ t.topic = some name ∧
      (t.errorCode = 0 ∧ t.topicID = id ∨
        t.errorCode ≠ 0 ∧ prevTopicIDs.lookup name = some id) := by
  obtain ⟨topic, topicID, errorCode, partitions⟩ := t
  cases topic with
  | none => simp [ids]
  | some found =>
      by_cases err : errorCode = 0
      · simp [ids, err, eq_comm]
      · simp only [ids, ne_eq, err, not_false_eq_true, ↓reduceIte, List.mem_map,
          Option.mem_toList, Prod.mk.injEq, false_and, false_or, Option.some.injEq, true_and]
        constructor
        · rintro ⟨id', held, rfl, rfl⟩
          exact ⟨rfl, held⟩
        · rintro ⟨rfl, held⟩
          exact ⟨id, held, rfl, rfl⟩

/-- The response lists the topic without an error, under this UUID. -/
def MetadataResponse.Lists (metadata : MetadataResponse) (name : String) (id : TopicID) : Prop :=
  ∃ t ∈ metadata.topics, t.topic = some name ∧ t.errorCode = 0 ∧ t.topicID = id

/-- The response lists the topic with an error. -/
def MetadataResponse.ListsError (metadata : MetadataResponse) (name : String) : Prop :=
  ∃ t ∈ metadata.topics, t.topic = some name ∧ t.errorCode ≠ 0

end Kmsg

/-- The last response that lists the topic without an error gives it this UUID, and every
later one lists it with an error. -/
def LastListed (responses : List Kmsg.MetadataResponse) (name : String) (id : TopicID) : Prop :=
  ∃ before metadata after, responses = before ++ metadata :: after ∧ metadata.Lists name id ∧
    ∀ later ∈ after, later.ListsError name

theorem not_lastListed_nil (name : String) (id : TopicID) : ¬ LastListed [] name id := by
  rintro ⟨before, metadata, after, split, -⟩
  simp at split

theorem lastListed_concat {responses : List Kmsg.MetadataResponse}
    {metadata : Kmsg.MetadataResponse} {name : String} {id : TopicID} :
    LastListed (responses ++ [metadata]) name id ↔
      metadata.Lists name id ∨ metadata.ListsError name ∧ LastListed responses name id := by
  constructor
  · rintro ⟨before, first, after, split, lists, errors⟩
    rcases List.eq_nil_or_concat' after with rfl | ⟨rest, last, rfl⟩
    · obtain ⟨-, same⟩ := List.append_inj' split rfl
      cases same
      exact Or.inl lists
    · rw [← List.cons_append, ← List.append_assoc] at split
      obtain ⟨rfl, same⟩ := List.append_inj' split rfl
      cases same
      refine Or.inr ⟨errors metadata (by simp), before, first, rest, rfl, lists, ?_⟩
      intro later mem
      exact errors later (List.mem_append_left _ mem)
  · rintro (lists | ⟨error, before, first, after, rfl, lists, errors⟩)
    · exact ⟨responses, metadata, [], rfl, lists, List.forall_mem_nil _⟩
    · refine ⟨before, first, after ++ [metadata], by simp, lists, ?_⟩
      intro later mem
      rcases List.mem_append.mp mem with earlier | last
      · exact errors later earlier
      · rw [List.mem_singleton.mp last]
        exact error

theorem topicIDs_addTopic (agentSet : List Int) (prevTopicIDs : GoMap String TopicID)
    (tables : LeaderTables) (t : Kmsg.MetadataResponseTopic) :
    (tables.addTopic agentSet prevTopicIDs t).topicIDs =
      insertAll tables.topicIDs (t.ids prevTopicIDs) := by
  unfold LeaderTables.addTopic Kmsg.MetadataResponseTopic.ids
  cases t.topic with
  | none => rfl
  | some name =>
      by_cases err : t.errorCode = 0
      · simp [err]
      · cases found : prevTopicIDs.lookup name <;> simp [err, found]

theorem topicIDs_buildLeadersAndTopicIDs (topics : List Kmsg.MetadataResponseTopic)
    (agentSet : List Int) (prevTopicIDs : GoMap String TopicID) :
    (buildLeadersAndTopicIDs topics agentSet prevTopicIDs).topicIDs =
      insertAll ∅ (topics.flatMap (·.ids prevTopicIDs)) := by
  have all (tables : LeaderTables) :
      (topics.foldl (LeaderTables.addTopic agentSet prevTopicIDs) tables).topicIDs =
        insertAll tables.topicIDs (topics.flatMap (·.ids prevTopicIDs)) := by
    induction topics generalizing tables with
    | nil => rfl
    | cons t rest ih =>
        rw [List.foldl_cons, ih, topicIDs_addTopic, List.flatMap_cons, insertAll_append]
  exact all {}

namespace AgentPool

/-- `TopicID`. -/
def topicID (s : PoolState) (topic : String) : Option TopicID := s.topicIDs.lookup topic

/-- The pool after a sequence of Metadata requests. -/
def refreshAll (history : List (Except GoError Kmsg.MetadataResponse)) : PoolState :=
  history.foldl (fun s fetched => (refresh s fetched).1) {}

theorem refreshAll_concat (history : List (Except GoError Kmsg.MetadataResponse))
    (fetched : Except GoError Kmsg.MetadataResponse) :
    refreshAll (history ++ [fetched]) = (refresh (refreshAll history) fetched).1 := by
  rw [refreshAll, List.foldl_append]
  rfl

/-- The responses of the requests that did not fail. -/
def responses (history : List (Except GoError Kmsg.MetadataResponse)) :
    List Kmsg.MetadataResponse :=
  history.filterMap Except.toOption

/-- A refresh takes the UUID of a topic from the response, or from the snapshot before when
the response lists the topic with an error. -/
theorem topicID_snapshot {metadata : Kmsg.MetadataResponse}
    (distinct : (metadata.topics.filterMap (·.topic)).Nodup) (prev : PoolState) (name : String)
    (id : TopicID) :
    topicID (snapshot prev metadata).1 name = some id ↔
      metadata.Lists name id ∨ metadata.ListsError name ∧ topicID prev name = some id := by
  have tables : (snapshot prev metadata).1.topicIDs =
      insertAll ∅ (metadata.topics.flatMap (·.ids prev.topicIDs)) :=
    topicIDs_buildLeadersAndTopicIDs _ _ _
  have keys : ((metadata.topics.flatMap (·.ids prev.topicIDs)).map Prod.fst).Nodup := by
    refine List.Nodup.sublist ?_ distinct
    rw [List.map_flatMap, List.filterMap_eq_flatMap_toList]
    refine List.Sublist.flatMap_right _ fun t _ => ?_
    unfold Kmsg.MetadataResponseTopic.ids
    cases t.topic with
    | none => exact List.nil_sublist _
    | some name =>
        simp only
        split
        · cases prev.topicIDs.lookup name <;> simp
        · simp
  rw [topicID, tables, lookup_insertAll_empty keys]
  simp only [List.mem_flatMap, Kmsg.MetadataResponseTopic.mem_ids]
  constructor
  · rintro ⟨t, mem, named, ⟨ok, rfl⟩ | ⟨error, held⟩⟩
    · exact Or.inl ⟨t, mem, named, ok, rfl⟩
    · exact Or.inr ⟨⟨t, mem, named, error⟩, held⟩
  · rintro (⟨t, mem, named, ok, same⟩ | ⟨⟨t, mem, named, error⟩, held⟩)
    · exact ⟨t, mem, named, Or.inl ⟨ok, same⟩⟩
    · exact ⟨t, mem, named, Or.inr ⟨error, held⟩⟩

theorem topicID_refreshAll (history : List (Except GoError Kmsg.MetadataResponse))
    (distinct : ∀ metadata ∈ responses history, (metadata.topics.filterMap (·.topic)).Nodup)
    (name : String) (id : TopicID) :
    topicID (refreshAll history) name = some id ↔ LastListed (responses history) name id := by
  induction history using List.reverseRecOn with
  | nil =>
      refine iff_of_false ?_ (not_lastListed_nil name id)
      change (∅ : GoMap String TopicID).lookup name ≠ some id
      rw [AList.lookup_empty]
      exact Option.some_ne_none id |>.symm
  | append_singleton earlier fetched ih =>
      rw [refreshAll_concat]
      cases fetched with
      | error err =>
          have same : responses (earlier ++ [.error err]) = responses earlier := by
            simp [responses, Except.toOption]
          rw [same] at distinct ⊢
          exact ih distinct
      | ok metadata =>
          have more : responses (earlier ++ [.ok metadata]) = responses earlier ++ [metadata] := by
            simp [responses, Except.toOption]
          rw [more] at distinct ⊢
          rw [lastListed_concat, ← ih fun m mem => distinct m (List.mem_append_left _ mem)]
          exact topicID_snapshot (distinct metadata (by simp)) _ name id

/-- A topic that the snapshot routes is listed without an error by its response. -/
theorem exists_topicID_of_candidates {hashTopicPartition : String → Int → UInt64}
    {prev : PoolState} {metadata : Kmsg.MetadataResponse} {topic : String} {partition : Int}
    {n : Nat}
    (found : (snapshot prev metadata).1.strategy.candidates hashTopicPartition topic partition n ≠
      []) : ∃ id, topicID (snapshot prev metadata).1 topic = some id := by
  have routed : ∃ r, (snapshot prev metadata).1.strategy.leaderWithRoute hashTopicPartition topic
      partition = .ok r := by
    unfold DefaultPartitionAssignmentStrategy.candidates
      DefaultPartitionAssignmentStrategy.candidatesWithRoute at found
    split at found
    · exact absurd rfl found
    · split at found
      · exact absurd rfl found
      · exact ⟨_, ‹_›⟩
  have listed : ∃ tp leader, (tp, leader) ∈ metadata.listed ∧ tp.topic = topic := by
    rcases DefaultPartitionAssignmentStrategy.leaderWithRoute_ok_iff.mp routed with
      named | ⟨-, -, known, -⟩
    · obtain ⟨leader, listed, -⟩ := mem_leaders.mp named
      exact ⟨_, leader, listed, rfl⟩
    · obtain ⟨tp, leader, listed, same, -⟩ := mem_knownTopics.mp known
      exact ⟨tp, leader, listed, same⟩
  obtain ⟨tp, leader, listed, rfl⟩ := listed
  obtain ⟨t, mem, named, ok, -⟩ := Kmsg.MetadataResponse.mem_listed.mp listed
  have tables : (snapshot prev metadata).1.topicIDs =
      insertAll ∅ (metadata.topics.flatMap (·.ids prev.topicIDs)) :=
    topicIDs_buildLeadersAndTopicIDs _ _ _
  have entry : (tp.topic, t.topicID) ∈ metadata.topics.flatMap (·.ids prev.topicIDs) :=
    List.mem_flatMap.mpr
      ⟨t, mem, Kmsg.MetadataResponseTopic.mem_ids.mpr ⟨named, Or.inl ⟨ok, rfl⟩⟩⟩
  have present : tp.topic ∈ (snapshot prev metadata).1.topicIDs := by
    rw [tables, mem_insertAll]
    exact Or.inr (List.mem_map_of_mem (f := Prod.fst) entry)
  exact Option.isSome_iff_exists.mp (AList.lookup_isSome.mpr present)

/-- What was routed was routed by the last response. -/
theorem exists_topicID_of_candidates_refreshAll {hashTopicPartition : String → Int → UInt64}
    (history : List (Except GoError Kmsg.MetadataResponse)) {topic : String} {partition : Int}
    {n : Nat}
    (found : (refreshAll history).strategy.candidates hashTopicPartition topic partition n ≠ []) :
    ∃ id, topicID (refreshAll history) topic = some id := by
  induction history using List.reverseRecOn with
  | nil =>
      refine absurd ?_ found
      cases n with
      | zero => rfl
      | succ n => rfl
  | append_singleton earlier fetched ih =>
      rw [refreshAll_concat] at found ⊢
      cases fetched with
      | error err => exact ih found
      | ok metadata => exact exists_topicID_of_candidates found

/-- Over every sequence of refreshes, failed ones among them: the UUID of a topic is the one
of its last listing without an error, as long as every later response lists it with one; a
topic that is routed has its UUID in the same snapshot; a failed refresh changes nothing; and
a refresh returns the agents of the snapshot before that the new one lacks. -/
theorem pool_snapshots_coherent (hashTopicPartition : String → Int → UInt64)
    (history : List (Except GoError Kmsg.MetadataResponse))
    (distinct : ∀ metadata ∈ responses history, (metadata.topics.filterMap (·.topic)).Nodup) :
    (∀ name id, topicID (refreshAll history) name = some id ↔
        LastListed (responses history) name id) ∧
      (∀ topic partition n,
        (refreshAll history).strategy.candidates hashTopicPartition topic partition n ≠ [] →
          ∃ id, topicID (refreshAll history) topic = some id) ∧
      (∀ err, refreshAll (history ++ [.error err]) = refreshAll history) ∧
      ∀ metadata removed dropped,
        (refresh (refreshAll history) (.ok metadata)).2 = .ok (removed, dropped) →
          removed = (refreshAll history).agents.filter fun id =>
            id ∉ (refreshAll (history ++ [.ok metadata])).agents := by
  refine ⟨topicID_refreshAll history distinct,
    fun _ _ _ => exists_topicID_of_candidates_refreshAll history, ?_, ?_⟩
  · intro err
    rw [refreshAll_concat]
    rfl
  · intro metadata removed dropped returned
    obtain ⟨rfl, -⟩ := Prod.mk.inj (Except.ok.inj returned)
    rw [refreshAll_concat]
    rfl

/-- A topic that is listed, then erring, then gone. -/
theorem pool_snapshots_coherent_erring :
    let listed : Kmsg.MetadataResponse := { topics := [{ topic := some "t", topicID := 7 }] }
    let erring : Kmsg.MetadataResponse := { topics := [{ topic := some "t", errorCode := 5 }] }
    topicID (refreshAll [.ok listed, .error GoError.contextCanceled, .ok erring]) "t" = some 7 ∧
      topicID (refreshAll [.ok listed, .ok {}, .ok erring]) "t" = none := by
  intro listed erring
  refine ⟨?_, rfl⟩
  refine ((pool_snapshots_coherent (fun _ _ => 0)
    [.ok listed, .error GoError.contextCanceled, .ok erring] ?_).1 "t" 7).mpr ?_
  · intro metadata mem
    have cases : metadata = listed ∨ erring = metadata := by
      simpa [responses, Except.toOption] using mem
    rcases cases with rfl | rfl <;> decide
  · exact ⟨[], listed, [erring], rfl, ⟨_, List.mem_cons_self, rfl, rfl, rfl⟩,
      by simp [Kmsg.MetadataResponse.ListsError, erring]⟩

end AgentPool

end Warpstream
