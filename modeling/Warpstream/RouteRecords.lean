import Warpstream.PartitionAssignment
import Warpstream.RoutedTopicPartition

set_option autoImplicit false

/- `routeRecords`: the records of a call grouped by partition, each partition routed once. A
record is a pointer into a heap, as the caller may pass one record several times. -/
namespace Warpstream

abbrev RecordPtr := Nat

abbrev RecordHeap := RecordPtr → Kgo.Record

def Kgo.Record.topicPartition (r : Kgo.Record) : TopicPartition := ⟨r.topic, r.partition⟩

/-- The records of one partition, with what routing found for it. -/
structure PartitionGroup (β : Type) where
  tp : TopicPartition
  records : List RecordPtr
  found : β

/-- `routedGroup` and `rejectedTopicPartitionRecords`. -/
abbrev RoutedGroup := PartitionGroup (Agent × RouteOutcome)
abbrev RejectedGroup := PartitionGroup (GoError × RouteOutcome)

/-- The item that a group of records is buffered as. -/
def RoutedGroup.item (heap : RecordHeap) (g : RoutedGroup) : RoutedTopicPartitionRecords :=
  { topic := g.tp.topic
    partition := g.tp.partition
    records := g.records.map heap
    nodeID := g.found.1.nodeID
    nodeState := g.found.1.state }

def noAgentAssigned (tp : TopicPartition) : GoError :=
  { node :=
      { text := "no agent assigned for topic " ++ tp.topic.quote ++ " partition " ++
          toString tp.partition } }

/-- Add a record to the group of its partition. -/
def appendRecord {β : Type} (key : TopicPartition) (r : RecordPtr)
    (groups : List (PartitionGroup β)) : List (PartitionGroup β) :=
  groups.map fun g => if g.tp = key then { g with records := g.records ++ [r] } else g

/-- The state of the loop. `lookups` are the queries of the strategy. -/
structure Routing where
  groups : List RoutedGroup := []
  rejected : List RejectedGroup := []
  lookups : List TopicPartition := []

section Routing

-- how the Demoter answers the lookup of a partition
variable (candidatesWithRoute : TopicPartition → List Agent × RouteOutcome) (heap : RecordHeap)

def Routing.add (s : Routing) (r : RecordPtr) : Routing :=
  let key := (heap r).topicPartition
  if key ∈ s.groups.map (·.tp) then { s with groups := appendRecord key r s.groups }
  else if key ∈ s.rejected.map (·.tp) then { s with rejected := appendRecord key r s.rejected }
  else
    match candidatesWithRoute key with
    | ([], outcome) =>
        { s with
          rejected := s.rejected ++ [⟨key, [r], noAgentAssigned key, outcome⟩]
          lookups := s.lookups ++ [key] }
    | (agent :: _, outcome) =>
        { s with
          groups := s.groups ++ [⟨key, [r], agent, outcome⟩]
          lookups := s.lookups ++ [key] }

def routeRecords (records : List RecordPtr) : Routing :=
  records.foldl (Routing.add candidatesWithRoute heap) {}

end Routing

theorem map_tp_appendRecord {β : Type} (key : TopicPartition) (r : RecordPtr)
    (groups : List (PartitionGroup β)) :
    (appendRecord key r groups).map (·.tp) = groups.map (·.tp) := by
  rw [appendRecord, List.map_map]
  refine List.map_congr_left fun g _ => ?_
  rw [Function.comp_apply]
  split <;> rfl

theorem mem_appendRecord {β : Type} {key : TopicPartition} {r : RecordPtr}
    {groups : List (PartitionGroup β)} {g : PartitionGroup β} (mem : g ∈ appendRecord key r groups) :
    ∃ old ∈ groups, g.tp = old.tp ∧ g.found = old.found ∧
      ((g.tp ≠ key ∧ g.records = old.records) ∨
        (g.tp = key ∧ g.records = old.records ++ [r])) := by
  obtain ⟨old, inside, rfl⟩ := List.mem_map.mp mem
  split
  · rename_i here
    exact ⟨old, inside, rfl, rfl, Or.inr ⟨here, rfl⟩⟩
  · rename_i other
    exact ⟨old, inside, rfl, rfl, Or.inl ⟨other, rfl⟩⟩

theorem flatMap_appendRecord {β : Type} {key : TopicPartition} {r : RecordPtr}
    {groups : List (PartitionGroup β)} (distinct : (groups.map (·.tp)).Nodup)
    (present : key ∈ groups.map (·.tp)) :
    ((appendRecord key r groups).flatMap (·.records)).Perm
      (groups.flatMap (·.records) ++ [r]) := by
  induction groups with
  | nil => cases present
  | cons g rest ih =>
      obtain ⟨fresh, later⟩ := List.nodup_cons.mp distinct
      by_cases here : g.tp = key
      · have others : appendRecord key r rest = rest := by
          refine (List.map_congr_left fun other mem => ?_).trans (List.map_id rest)
          have apart : other.tp ≠ key := fun same =>
            fresh (List.mem_map.mpr ⟨other, mem, same.trans here.symm⟩)
          rw [if_neg apart]
          rfl
        have first : appendRecord key r (g :: rest) =
            { g with records := g.records ++ [r] } :: rest := by
          rw [appendRecord, List.map_cons, if_pos here]
          exact congrArg _ others
        rw [first]
        simp only [List.flatMap_cons, List.append_assoc]
        exact List.perm_append_comm.append_left g.records
      · have inside : key ∈ rest.map (·.tp) := by
          rcases List.mem_cons.mp present with same | inside
          · exact absurd same.symm here
          · exact inside
        have first : appendRecord key r (g :: rest) = g :: appendRecord key r rest := by
          simp [appendRecord, here]
        rw [first]
        simp only [List.flatMap_cons, List.append_assoc]
        exact (ih later inside).append_left g.records

/-- What routing a list of records gives. -/
structure Routing.Routed (candidatesWithRoute : TopicPartition → List Agent × RouteOutcome)
    (heap : RecordHeap) (records : List RecordPtr) (s : Routing) : Prop where
  all : (s.groups.flatMap (·.records) ++ s.rejected.flatMap (·.records)).Perm records
  distinct : (s.groups.map (·.tp) ++ s.rejected.map (·.tp)).Nodup
  lookups : s.lookups.Perm (s.groups.map (·.tp) ++ s.rejected.map (·.tp))
  groups : ∀ g ∈ s.groups, (∀ r ∈ g.records, (heap r).topicPartition = g.tp) ∧ g.records ≠ [] ∧
    ∃ others, candidatesWithRoute g.tp = (g.found.1 :: others, g.found.2)
  rejected : ∀ g ∈ s.rejected, (∀ r ∈ g.records, (heap r).topicPartition = g.tp) ∧
    (candidatesWithRoute g.tp).1 = [] ∧ g.found.1 = noAgentAssigned g.tp

variable {candidatesWithRoute : TopicPartition → List Agent × RouteOutcome} {heap : RecordHeap}
  {records : List RecordPtr} {s : Routing}

theorem Routing.Routed.add (routed : s.Routed candidatesWithRoute heap records) (r : RecordPtr) :
    (s.add candidatesWithRoute heap r).Routed candidatesWithRoute heap (records ++ [r]) := by
  have all := routed.all.append_right [r]
  have parts := List.nodup_append.mp routed.distinct
  unfold Routing.add
  dsimp only
  split
  · rename_i known
    refine ⟨?_, by simpa only [map_tp_appendRecord] using routed.distinct,
      by simpa only [map_tp_appendRecord] using routed.lookups, fun g mem => ?_, routed.rejected⟩
    · refine ((flatMap_appendRecord parts.1 known).append_right _).trans (List.Perm.trans ?_ all)
      simp only [List.append_assoc]
      exact (List.perm_append_comm).append_left _
    · obtain ⟨old, inside, tp, found, records⟩ := mem_appendRecord mem
      obtain ⟨same, some, answer⟩ := routed.groups old inside
      rw [tp, found]
      rcases records with ⟨-, kept⟩ | ⟨here, grown⟩
      · exact ⟨kept ▸ same, kept ▸ some, answer⟩
      · refine ⟨fun q inside => ?_, by simp [grown], answer⟩
        rw [grown, List.mem_append, List.mem_singleton] at inside
        rcases inside with old | rfl
        · exact same q old
        · exact here.symm.trans tp
  · split
    · rename_i known
      refine ⟨?_, by simpa only [map_tp_appendRecord] using routed.distinct,
        by simpa only [map_tp_appendRecord] using routed.lookups, routed.groups, fun g mem => ?_⟩
      · refine ((flatMap_appendRecord parts.2.1 known).append_left _).trans
          (List.Perm.trans ?_ all)
        rw [List.append_assoc]
      · obtain ⟨old, inside, tp, found, records⟩ := mem_appendRecord mem
        obtain ⟨same, answer⟩ := routed.rejected old inside
        rw [tp, found]
        rcases records with ⟨-, kept⟩ | ⟨here, grown⟩
        · exact ⟨kept ▸ same, answer⟩
        · refine ⟨fun q inside => ?_, answer⟩
          rw [grown, List.mem_append, List.mem_singleton] at inside
          rcases inside with old | rfl
          · exact same q old
          · exact here.symm.trans tp
    · rename_i notRouted notRejected
      have fresh : (heap r).topicPartition ∉
          s.groups.map (·.tp) ++ s.rejected.map (·.tp) := by
        rw [List.mem_append, not_or]
        exact ⟨notRouted, notRejected⟩
      have added : ((s.groups.map (·.tp) ++ s.rejected.map (·.tp)) ++
          [(heap r).topicPartition]).Nodup := by
        rw [List.nodup_append]
        refine ⟨routed.distinct, List.nodup_singleton _, fun a mem b new same => fresh ?_⟩
        rw [List.mem_singleton.mp new] at same
        exact same ▸ mem
      split
      · rename_i outcome answer
        refine ⟨?_, ?_, ?_, routed.groups, fun g mem => ?_⟩
        · simpa only [List.flatMap_append, List.flatMap_singleton, List.append_assoc] using all
        · simpa only [List.map_append, List.map_singleton, List.append_assoc] using added
        · simpa only [List.map_append, List.map_singleton, List.append_assoc] using
            routed.lookups.append_right [(heap r).topicPartition]
        · rcases List.mem_append.mp mem with old | new
          · exact routed.rejected g old
          · obtain rfl := List.mem_singleton.mp new
            exact ⟨by simp, by rw [answer], rfl⟩
      · rename_i agent others outcome answer
        refine ⟨?_, ?_, ?_, fun g mem => ?_, routed.rejected⟩
        · refine List.Perm.trans ?_ all
          simp only [List.flatMap_append, List.flatMap_singleton, List.append_assoc]
          exact (List.perm_append_comm).append_left _
        · refine (List.Perm.nodup_iff ?_).mpr added
          simp only [List.map_append, List.map_singleton, List.append_assoc]
          exact (List.perm_append_comm).append_left _
        · refine (routed.lookups.append_right [(heap r).topicPartition]).trans ?_
          simp only [List.map_append, List.map_singleton, List.append_assoc]
          exact (List.perm_append_comm).append_left _
        · rcases List.mem_append.mp mem with old | new
          · exact routed.groups g old
          · obtain rfl := List.mem_singleton.mp new
            exact ⟨by simp, by simp, others, answer⟩

theorem routed_routeRecords (candidatesWithRoute : TopicPartition → List Agent × RouteOutcome)
    (heap : RecordHeap) (records : List RecordPtr) :
    (routeRecords candidatesWithRoute heap records).Routed candidatesWithRoute heap records := by
  have fold (rest done : List RecordPtr) (s : Routing)
      (routed : s.Routed candidatesWithRoute heap done) :
      (rest.foldl (Routing.add candidatesWithRoute heap) s).Routed candidatesWithRoute heap
        (done ++ rest) := by
    induction rest generalizing done s with
    | nil => simpa using routed
    | cons r rest ih =>
        have next := ih (done ++ [r]) _ (routed.add r)
        rwa [List.append_assoc] at next
  exact fold records [] {} ⟨List.Perm.refl _, by simp, List.Perm.refl _, by simp, by simp⟩

end Warpstream
