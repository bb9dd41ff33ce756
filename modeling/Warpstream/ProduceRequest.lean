import Warpstream.ProduceResult

set_option autoImplicit false

/- `buildMultiTopicProduceRequestFromEncoded`: the request of one attempt. -/
namespace Warpstream

namespace Kmsg

structure ProduceRequestTopicPartition where
  partition : Int
  records : Bytes

structure ProduceRequestTopic where
  topic : String
  topicID : TopicID
  partitions : List ProduceRequestTopicPartition

structure ProduceRequest where
  version : Int
  acks : Int
  topics : List ProduceRequestTopic := []

end Kmsg

/-- Why a request cannot be built. -/
inductive BuildError where
  | unknownTopic (topic : String)
  | duplicatePartition (partition : Int) (topic : String)
deriving DecidableEq

def BuildError.err : BuildError → GoError
  | .unknownTopic topic => { node := { text := "topic " ++ topic.quote ++ " not known" } }
  | .duplicatePartition partition topic =>
      { node := { text := "duplicate partition " ++ toString partition ++ " for topic " ++
          topic.quote } }

/-- The loop over the partitions of one topic. -/
structure TopicBuild where
  seen : List Int := []
  reqPartitions : List Kmsg.ProduceRequestTopicPartition := []
  stats : ProduceRequestStats

def TopicBuild.add (topic : String) (b : TopicBuild) (p : EncodedTopicPartitionRecords) :
    Except BuildError TopicBuild :=
  if p.partition ∈ b.seen then .error (.duplicatePartition p.partition topic)
  else if p.encoded = [] then .ok { b with seen := b.seen ++ [p.partition] }
  else
    .ok {
      seen := b.seen ++ [p.partition]
      reqPartitions := b.reqPartitions ++ [⟨p.partition, p.encoded⟩]
      stats := b.stats.add p.encodedStats }

/-- One topic of the request. -/
def buildTopic (topicID : String → Option TopicID) (built : Kmsg.ProduceRequest × ProduceRequestStats)
    (group : String × List EncodedTopicPartitionRecords) :
    Except BuildError (Kmsg.ProduceRequest × ProduceRequestStats) :=
  match topicID group.1 with
  | none => .error (.unknownTopic group.1)
  | some id => do
      let b ← group.2.foldlM (TopicBuild.add group.1) { stats := built.2 }
      .ok ({ built.1 with topics := built.1.topics ++ [⟨group.1, id, b.reqPartitions⟩] }, b.stats)

def buildMultiTopicProduceRequestFromEncoded (version : Int) (topicID : String → Option TopicID)
    (partitions : List EncodedTopicPartitionRecords) :
    Except BuildError (Kmsg.ProduceRequest × ProduceRequestStats) :=
  (FirstSeen.groupBy EncodedTopicPartitionRecords.topic partitions).foldlM (buildTopic topicID)
    ({ version := version, acks := -1 }, {})

/-- Distinct partitions of a topic are all taken. -/
theorem exists_foldlM_add (topic : String) (b : TopicBuild)
    (partitions : List EncodedTopicPartitionRecords)
    (distinct : (b.seen ++ partitions.map (·.partition)).Nodup) :
    ∃ b', partitions.foldlM (TopicBuild.add topic) b = .ok b' := by
  induction partitions generalizing b with
  | nil => exact ⟨b, rfl⟩
  | cons p rest ih =>
      have fresh : p.partition ∉ b.seen := fun mem =>
        (List.nodup_append.mp distinct).2.2 _ mem _ List.mem_cons_self rfl
      obtain ⟨next, added, seen⟩ : ∃ next, TopicBuild.add topic b p = .ok next ∧
          next.seen = b.seen ++ [p.partition] := by
        rw [TopicBuild.add, if_neg fresh]
        split <;> exact ⟨_, rfl, rfl⟩
      rw [List.foldlM_cons, added]
      refine ih next ?_
      rw [seen, List.append_assoc]
      exact distinct

/-- The partitions that have bytes to send. -/
def nonEmpty (partitions : List EncodedTopicPartitionRecords) : List EncodedTopicPartitionRecords :=
  partitions.filter fun p => p.encoded ≠ []

/-- What a request says about a partition. -/
def EncodedTopicPartitionRecords.reqPartition (p : EncodedTopicPartitionRecords) :
    Kmsg.ProduceRequestTopicPartition :=
  ⟨p.partition, p.encoded⟩

def ProduceRequestStats.addAll (s : ProduceRequestStats)
    (partitions : List EncodedTopicPartitionRecords) : ProduceRequestStats :=
  (partitions.map (·.encodedStats)).foldl ProduceRequestStats.add s

theorem ProduceRequestStats.addAll_append (s : ProduceRequestStats)
    (left right : List EncodedTopicPartitionRecords) :
    s.addAll (left ++ right) = (s.addAll left).addAll right := by
  rw [addAll, List.map_append, List.foldl_append]
  rfl

/-- The sum does not depend on the order of the partitions. -/
theorem ProduceRequestStats.addAll_perm (s : ProduceRequestStats)
    {left right : List EncodedTopicPartitionRecords} (perm : left.Perm right) :
    s.addAll left = s.addAll right := by
  apply (perm.map _).foldl_eq'
  intro x _ y _ z
  simp only [ProduceRequestStats.add, ProduceRequestStats.mk.injEq]
  omega

/-- What the loop over a topic's partitions has built when it ends without an error. -/
theorem of_foldlM_add {topic : String} {b b' : TopicBuild}
    {partitions : List EncodedTopicPartitionRecords} (seen : b.seen.Nodup)
    (built : partitions.foldlM (TopicBuild.add topic) b = .ok b') :
    (b.seen ++ partitions.map (·.partition)).Nodup ∧
      b'.reqPartitions = b.reqPartitions ++ (nonEmpty partitions).map (·.reqPartition) ∧
      b'.stats = b.stats.addAll (nonEmpty partitions) := by
  induction partitions generalizing b with
  | nil =>
      obtain rfl := Except.ok.inj built
      simp [seen, nonEmpty, ProduceRequestStats.addAll]
  | cons p rest ih =>
      rw [List.foldlM_cons, TopicBuild.add] at built
      by_cases dup : p.partition ∈ b.seen
      · rw [if_pos dup] at built
        cases built
      · rw [if_neg dup] at built
        have fresh : (b.seen ++ [p.partition]).Nodup := by
          rw [List.nodup_append_comm, List.singleton_append, List.nodup_cons]
          exact ⟨dup, seen⟩
        by_cases empty : p.encoded = []
        · rw [if_pos empty] at built
          obtain ⟨distinct, reqPartitions, stats⟩ := ih fresh built
          rw [List.append_assoc] at distinct
          refine ⟨distinct, ?_, ?_⟩
          · simpa [nonEmpty, empty] using reqPartitions
          · simpa [nonEmpty, empty] using stats
        · rw [if_neg empty] at built
          obtain ⟨distinct, reqPartitions, stats⟩ := ih fresh built
          rw [List.append_assoc] at distinct
          refine ⟨distinct, ?_, ?_⟩
          · simpa [nonEmpty, empty, EncodedTopicPartitionRecords.reqPartition] using reqPartitions
          · simpa [nonEmpty, empty, ProduceRequestStats.addAll] using stats

/-- What the loop over the topics has built when it ends without an error. -/
theorem of_foldlM_buildTopic {topicID : String → Option TopicID}
    {groups : List (String × List EncodedTopicPartitionRecords)}
    {built built' : Kmsg.ProduceRequest × ProduceRequestStats}
    (done : groups.foldlM (buildTopic topicID) built = .ok built') :
    (∀ g ∈ groups, topicID g.1 ≠ none ∧ (g.2.map (·.partition)).Nodup) ∧
      ∃ topics : List Kmsg.ProduceRequestTopic,
        built'.1 = { built.1 with topics := built.1.topics ++ topics } ∧
        topics.map (·.topic) = groups.map Prod.fst ∧
        (∀ t ∈ topics, topicID t.topic = some t.topicID ∧
          ∃ g ∈ groups, g.1 = t.topic ∧ t.partitions = (nonEmpty g.2).map (·.reqPartition)) ∧
        built'.2 = built.2.addAll (nonEmpty (groups.flatMap Prod.snd)) := by
  induction groups generalizing built with
  | nil =>
      obtain rfl := Except.ok.inj done
      exact ⟨by simp, [], by simp, rfl, by simp, rfl⟩
  | cons g rest ih =>
      rw [List.foldlM_cons, buildTopic] at done
      cases known : topicID g.1 with
      | none =>
          rw [known] at done
          cases done
      | some id =>
          rw [known] at done
          cases taken : g.2.foldlM (TopicBuild.add g.1) { stats := built.2 } with
          | error e =>
              rw [taken] at done
              cases done
          | ok b =>
              rw [taken] at done
              obtain ⟨distinct, reqPartitions, stats⟩ := of_foldlM_add List.nodup_nil taken
              obtain ⟨all, topics, request, names, entries, total⟩ := ih done
              refine ⟨?_, ⟨g.1, id, b.reqPartitions⟩ :: topics, ?_, ?_, ?_, ?_⟩
              · rw [List.forall_mem_cons]
                exact ⟨⟨by simp [known], distinct⟩, all⟩
              · rw [request]
                simp
              · rw [List.map_cons, names, List.map_cons]
              · rw [List.forall_mem_cons]
                refine ⟨⟨known, g, List.mem_cons_self, rfl, reqPartitions⟩, ?_⟩
                intro t mem
                obtain ⟨id, g', inside, own⟩ := entries t mem
                exact ⟨id, g', List.mem_cons_of_mem _ inside, own⟩
              · rw [total, stats, nonEmpty, nonEmpty, ← ProduceRequestStats.addAll_append,
                  ← List.filter_append, List.flatMap_cons]
                rfl

/-- Known topics with distinct partitions are all taken. -/
theorem exists_foldlM_buildTopic {topicID : String → Option TopicID}
    {groups : List (String × List EncodedTopicPartitionRecords)}
    {built : Kmsg.ProduceRequest × ProduceRequestStats}
    (good : ∀ g ∈ groups, topicID g.1 ≠ none ∧ (g.2.map (·.partition)).Nodup) :
    ∃ built', groups.foldlM (buildTopic topicID) built = .ok built' := by
  induction groups generalizing built with
  | nil => exact ⟨built, rfl⟩
  | cons g rest ih =>
      obtain ⟨known, distinct⟩ := good g List.mem_cons_self
      obtain ⟨id, found⟩ := Option.ne_none_iff_exists'.mp known
      obtain ⟨b, taken⟩ := exists_foldlM_add g.1 { stats := built.2 } g.2 distinct
      rw [List.foldlM_cons, buildTopic, found]
      simp only [taken]
      apply ih
      intro g mem
      exact good g (List.mem_cons_of_mem _ mem)

theorem error_of_foldlM_buildTopic {topicID : String → Option TopicID}
    {groups : List (String × List EncodedTopicPartitionRecords)}
    {built : Kmsg.ProduceRequest × ProduceRequestStats} {e : BuildError}
    (distinct : ∀ g ∈ groups, (g.2.map (·.partition)).Nodup)
    (failed : groups.foldlM (buildTopic topicID) built = .error e) :
    ∃ topic, e = .unknownTopic topic := by
  induction groups generalizing built with
  | nil => cases failed
  | cons g rest ih =>
      obtain ⟨b, taken⟩ := exists_foldlM_add g.1 { stats := built.2 } g.2
        (distinct g List.mem_cons_self)
      have later := fun g mem => distinct g (List.mem_cons_of_mem _ mem)
      rw [List.foldlM_cons, buildTopic] at failed
      split at failed
      · exact ⟨g.1, (Except.error.inj failed).symm⟩
      · rw [taken] at failed
        exact ih later failed

/-- No topic-partition is listed twice when none is listed twice inside its topic. -/
theorem nodup_topicPartition_iff (partitions : List EncodedTopicPartitionRecords) :
    (partitions.map EncodedTopicPartitionRecords.topicPartition).Nodup ↔
      ∀ g ∈ FirstSeen.groupBy EncodedTopicPartitionRecords.topic partitions,
        (g.2.map (·.partition)).Nodup := by
  have groups := FirstSeen.groups_groupBy EncodedTopicPartitionRecords.topic partitions
  simp only [List.nodup_iff_pairwise_ne, List.pairwise_map]
  constructor
  · intro distinct g mem
    rw [groups.members g.1 g.2 mem, List.pairwise_filter]
    refine distinct.imp fun {p q} apart left right same => apart ?_
    have topics := (of_decide_eq_true left).trans (of_decide_eq_true right).symm
    rw [EncodedTopicPartitionRecords.topicPartition, topics, same]
    rfl
  · intro distinct
    rw [List.pairwise_iff_forall_sublist]
    intro p q listed same
    obtain ⟨topics, partition⟩ := TopicPartition.mk.inj same
    have here : p ∈ partitions := listed.subset List.mem_cons_self
    obtain ⟨g, mem, topic⟩ := List.mem_map.mp (groups.covers p here)
    have apart := distinct g mem
    rw [groups.members g.1 g.2 mem, List.pairwise_filter, List.pairwise_iff_forall_sublist] at apart
    exact apart listed (decide_eq_true topic.symm) (decide_eq_true (topics.symm.trans topic.symm))
      partition

/-- With one entry for each topic-partition, only an unknown topic fails the request. -/
theorem error_of_buildMultiTopicProduceRequestFromEncoded {version : Int}
    {topicID : String → Option TopicID} {partitions : List EncodedTopicPartitionRecords}
    {e : BuildError}
    (distinct : (partitions.map EncodedTopicPartitionRecords.topicPartition).Nodup)
    (failed : buildMultiTopicProduceRequestFromEncoded version topicID partitions = .error e) :
    ∃ topic, e = .unknownTopic topic :=
  error_of_foldlM_buildTopic ((nodup_topicPartition_iff partitions).mp distinct) failed

/-- The request is built exactly for known topics and distinct partitions. -/
theorem exists_buildMultiTopicProduceRequestFromEncoded_iff (version : Int)
    (topicID : String → Option TopicID) (partitions : List EncodedTopicPartitionRecords) :
    (∃ built, buildMultiTopicProduceRequestFromEncoded version topicID partitions = .ok built) ↔
      (∀ p ∈ partitions, topicID p.topic ≠ none) ∧
        (partitions.map EncodedTopicPartitionRecords.topicPartition).Nodup := by
  have groups := FirstSeen.groups_groupBy EncodedTopicPartitionRecords.topic partitions
  have keys := FirstSeen.keys_groupBy EncodedTopicPartitionRecords.topic partitions
  rw [nodup_topicPartition_iff]
  constructor
  · rintro ⟨built, done⟩
    obtain ⟨good, -⟩ := of_foldlM_buildTopic done
    refine ⟨fun p mem => ?_, fun g mem => (good g mem).2⟩
    obtain ⟨g, inside, topic⟩ := List.mem_map.mp (groups.covers p mem)
    rw [← topic]
    exact (good g inside).1
  · rintro ⟨known, distinct⟩
    refine exists_foldlM_buildTopic fun g mem => ⟨?_, distinct g mem⟩
    have listed : g.1 ∈ partitions.map EncodedTopicPartitionRecords.topic := by
      rw [← List.mem_eraseDups, ← keys]
      exact List.mem_map_of_mem mem
    obtain ⟨p, inside, topic⟩ := List.mem_map.mp listed
    rw [← topic]
    exact known p inside

/-- A request is refused exactly for an unknown topic or a repeated partition. Otherwise it
has each listed topic once, with all its partitions that have bytes, as they were given. -/
theorem buildMultiTopicProduceRequestFromEncoded_exact (version : Int)
    (topicID : String → Option TopicID) (partitions : List EncodedTopicPartitionRecords) :
    ((∃ e, buildMultiTopicProduceRequestFromEncoded version topicID partitions = .error e) ↔
        (∃ p ∈ partitions, topicID p.topic = none) ∨
          ¬ (partitions.map EncodedTopicPartitionRecords.topicPartition).Nodup) ∧
      ∀ req stats,
        buildMultiTopicProduceRequestFromEncoded version topicID partitions = .ok (req, stats) →
        req.topics.map (·.topic) = (partitions.map (·.topic)).eraseDups ∧
          (∀ t ∈ req.topics, topicID t.topic = some t.topicID ∧
            t.partitions = (partitions.filter fun p => p.topic = t.topic ∧ p.encoded ≠ []).map
              fun p => ⟨p.partition, p.encoded⟩) ∧
          stats = ((partitions.filter fun p => p.encoded ≠ []).map (·.encodedStats)).foldl
            ProduceRequestStats.add {} := by
  have groups := FirstSeen.groups_groupBy EncodedTopicPartitionRecords.topic partitions
  constructor
  · have accepted := exists_buildMultiTopicProduceRequestFromEncoded_iff version topicID partitions
    have refused : (∃ p ∈ partitions, topicID p.topic = none) ∨
        ¬ (partitions.map EncodedTopicPartitionRecords.topicPartition).Nodup ↔
        ¬ ∃ built, buildMultiTopicProduceRequestFromEncoded version topicID partitions =
          .ok built := by
      rw [accepted]
      simp only [ne_eq, not_and_or, not_forall, not_not, exists_prop]
    rw [refused]
    cases buildMultiTopicProduceRequestFromEncoded version topicID partitions with
    | error e => simp
    | ok built => simp
  · intro req stats done
    obtain ⟨-, topics, request, names, entries, total⟩ := of_foldlM_buildTopic done
    have same : req.topics = topics := by
      rw [show req = _ from request]
      rfl
    rw [same]
    refine ⟨names.trans (FirstSeen.keys_groupBy _ partitions), ?_, ?_⟩
    · intro t mem
      obtain ⟨id, g, inside, topic, own⟩ := entries t mem
      refine ⟨id, own.trans ?_⟩
      rw [groups.members g.1 g.2 inside, topic, nonEmpty, List.filter_filter]
      simp only [Bool.decide_and, Bool.and_comm]
      rfl
    · refine total.trans (ProduceRequestStats.addAll_perm {} ?_)
      exact (FirstSeen.flatMap_groupBy_perm _ partitions).filter _

/-- Two topics in turn, and a partition without bytes. -/
theorem buildMultiTopicProduceRequestFromEncoded_exact_two :
    let partitions : List EncodedTopicPartitionRecords :=
      [⟨"b", 1, [7], { records := 1 }⟩, ⟨"a", 0, [8], { records := 2 }⟩,
        ⟨"b", 0, [9], { records := 4 }⟩, ⟨"a", 3, [], { records := 8 }⟩]
    ∃ req stats,
      buildMultiTopicProduceRequestFromEncoded 9 (fun _ => some 5) partitions = .ok (req, stats) ∧
      req.topics.map (·.topic) = ["b", "a"] ∧ stats.records = 7 := by
  intro partitions
  obtain ⟨-, exactly⟩ := buildMultiTopicProduceRequestFromEncoded_exact 9 (fun _ => some 5) partitions
  obtain ⟨⟨req, stats⟩, done⟩ :=
    (exists_buildMultiTopicProduceRequestFromEncoded_iff 9 (fun _ => some 5) partitions).mpr
      ⟨by decide, by decide⟩
  obtain ⟨topics, -, sum⟩ := exactly req stats done
  refine ⟨req, stats, done, ?_, ?_⟩
  · rw [topics]
    decide
  · rw [sum]
    decide

end Warpstream
