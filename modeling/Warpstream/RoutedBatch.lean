import Warpstream.Lib.FirstSeen
import Warpstream.Record

set_option autoImplicit false

/- The per-item behaviour the buffers delegate to, and the grouping of a flush's
entries into one wire item per topic-partition. A Go panic is `none`. -/
namespace Warpstream

inductive AgentState where
  | healthy
  | demoted
deriving DecidableEq, Repr

structure Agent where
  nodeID : Int
  state : AgentState := .healthy
deriving DecidableEq, Repr

/-- `routedBatch[W]`. -/
class RoutedBatch (W : Type) where
  getTopicPartition : W → TopicPartition
  getNodeID : W → Int
  recordCount : W → Nat
  payloadBytes : W → Nat
  uncompressedWireBytes : W → Nat
  splitByMaxBytes : W → Nat → List W
  mergeWith : W → List W → Option W

/-- An item with its completion callback. Callbacks are values of a type `D` that
the owner of the buffer interprets. -/
structure Promised (W D : Type) where
  item : W
  done : D
deriving DecidableEq

section promised

variable {W D : Type} [RoutedBatch W]

open RoutedBatch

def unpromise (parts : List (Promised W D)) : List W := parts.map Promised.item

/-- The chunks of one item. More than one chunk shares the callback `fanIn`, which
completes the item's own when the last of them has reported. -/
def splitPromisedRoutedBatchByBatchMaxBytes (p : Promised W D) (batchMaxBytes : Nat) (fanIn : D) :
    List (Promised W D) :=
  let chunks := splitByMaxBytes p.item batchMaxBytes
  if chunks.length ≤ 1 then [p] else chunks.map fun c => ⟨c, fanIn⟩

/-- `g[0].mergeWith(g[1:])`. -/
def mergeGroup : List W → Option W
  | [] => none
  | first :: others => mergeWith first others

def mergePromisedRoutedBatchByTopicPartition (entries : List (Promised W D)) : Option (List W) :=
  (FirstSeen.groupBy getTopicPartition (unpromise entries)).mapM fun g => mergeGroup g.2

end promised

/-- An item that fits is left alone, and no chunk of an item with records is empty. -/
class LawfulSplit (W : Type) [RoutedBatch W] : Prop where
  fits : ∀ (w : W) (max : Nat), RoutedBatch.uncompressedWireBytes w ≤ max →
    (RoutedBatch.splitByMaxBytes w max).length ≤ 1
  nonempty : ∀ (w : W) (max : Nat), 0 < RoutedBatch.recordCount w →
    ∀ c ∈ RoutedBatch.splitByMaxBytes w max, 0 < RoutedBatch.recordCount c

/-- Two items that `mergeWith` accepts together. -/
def SameRouting {W : Type} [RoutedBatch W] (p o : W) : Prop :=
  RoutedBatch.getTopicPartition p = RoutedBatch.getTopicPartition o ∧
    RoutedBatch.getNodeID p = RoutedBatch.getNodeID o

/-- Items that carry a list of records which splitting cuts and merging joins. -/
class LawfulRoutedBatch (W : Type) (R : outParam Type) [RoutedBatch W] where
  records : W → List R
  recordCount_eq : ∀ w : W, RoutedBatch.recordCount w = (records w).length
  split_records : ∀ (w : W) (max : Nat),
    (RoutedBatch.splitByMaxBytes w max).flatMap records = records w
  split_routing : ∀ (w : W) (max : Nat), ∀ c ∈ RoutedBatch.splitByMaxBytes w max, SameRouting c w
  split_nonempty : ∀ (w : W) (max : Nat), records w ≠ [] →
    ∀ c ∈ RoutedBatch.splitByMaxBytes w max, records c ≠ []
  mergeWith_eq : ∀ (w : W) (others : List W), (∀ o ∈ others, SameRouting w o) →
    ∃ merged, RoutedBatch.mergeWith w others = some merged ∧ SameRouting merged w ∧
      records merged = (w :: others).flatMap records

theorem forall₂_of_mapM {α β : Type} {f : α → Option β} {P : α → β → Prop} {xs : List α}
    (each : ∀ x ∈ xs, ∃ y, f x = some y ∧ P x y) : ∃ ys, xs.mapM f = some ys ∧ List.Forall₂ P xs ys := by
  induction xs with
  | nil => exact ⟨[], rfl, .nil⟩
  | cons x rest ih =>
      obtain ⟨y, first, here⟩ := each x (by simp)
      obtain ⟨ys, later, there⟩ := ih fun x mem => each x (List.mem_cons_of_mem _ mem)
      exact ⟨y :: ys, by simp [List.mapM_cons, first, later], .cons here there⟩

theorem exists_left_of_forall₂ {α β : Type} {P : α → β → Prop} {xs : List α} {ys : List β}
    (each : List.Forall₂ P xs ys) : ∀ y ∈ ys, ∃ x ∈ xs, P x y := by
  induction each with
  | nil => exact List.forall_mem_nil _
  | cons here _ ih =>
      intro y mem
      rcases List.mem_cons.mp mem with rfl | later
      · exact ⟨_, List.mem_cons_self, here⟩
      · obtain ⟨x, inside, there⟩ := ih y later
        exact ⟨x, List.mem_cons_of_mem _ inside, there⟩

section lawful

variable {W D R : Type} [RoutedBatch W] [LawfulRoutedBatch W R]

open RoutedBatch LawfulRoutedBatch

/-- The records that a list of items carries for one topic-partition. -/
def partitionRecords (tp : TopicPartition) (items : List W) : List R :=
  (items.filter fun w => getTopicPartition w = tp).flatMap records

theorem partitionRecords_append (tp : TopicPartition) (left right : List W) :
    partitionRecords tp (left ++ right) = partitionRecords tp left ++ partitionRecords tp right := by
  simp [partitionRecords]

theorem partitionRecords_flatMap {α : Type} (tp : TopicPartition) (xs : List α) (f : α → List W) :
    partitionRecords tp (xs.flatMap f) = xs.flatMap fun x => partitionRecords tp (f x) := by
  induction xs with
  | nil => rfl
  | cons x rest ih => rw [List.flatMap_cons, List.flatMap_cons, partitionRecords_append, ih]

/-- The chunks of an item carry its records. -/
theorem partitionRecords_split (tp : TopicPartition) (p : Promised W D) (max : Nat) (fanIn : D) :
    partitionRecords tp (unpromise (splitPromisedRoutedBatchByBatchMaxBytes p max fanIn)) =
      partitionRecords tp [p.item] := by
  unfold splitPromisedRoutedBatchByBatchMaxBytes unpromise
  simp only
  split
  · rfl
  · have route : ∀ c ∈ splitByMaxBytes p.item max,
        getTopicPartition c = getTopicPartition p.item :=
      fun c mem => (split_routing p.item max c mem).1
    have whole := split_records p.item max
    rw [List.map_map]
    change partitionRecords tp ((splitByMaxBytes p.item max).map id) = _
    rw [List.map_id]
    unfold partitionRecords
    by_cases here : getTopicPartition p.item = tp
    · rw [List.filter_eq_self.mpr fun c mem => by simpa [here] using route c mem, whole]
      simp [here]
    · rw [List.filter_eq_nil_iff.mpr fun c mem => by simpa [route c mem] using here]
      simp [here]

/-- A wire item stands for one group. -/
structure Merged (group : TopicPartition × List W) (wire : W) : Prop where
  topicPartition : getTopicPartition wire = group.1
  records : LawfulRoutedBatch.records wire = group.2.flatMap LawfulRoutedBatch.records

theorem mergeGroup_merged {nodeID : Int} {items : List W}
    (node : ∀ w ∈ items, getNodeID w = nodeID) :
    ∀ group ∈ FirstSeen.groupBy getTopicPartition items,
      ∃ wire, mergeGroup group.2 = some wire ∧ Merged group wire := by
  rintro ⟨tp, members⟩ mem
  have groups := FirstSeen.groups_groupBy getTopicPartition items
  have all := groups.members tp members mem
  have inside : ∀ w ∈ members, getTopicPartition w = tp ∧ getNodeID w = nodeID := by
    intro w found
    rw [all, List.mem_filter] at found
    exact ⟨of_decide_eq_true found.2, node w found.1⟩
  cases members with
  | nil => exact absurd rfl (groups.nonempty tp [] mem)
  | cons first others =>
      have head := inside first (by simp)
      have same : ∀ o ∈ others, SameRouting first o := by
        intro o found
        have other := inside o (List.mem_cons_of_mem _ found)
        exact ⟨head.1.trans other.1.symm, head.2.trans other.2.symm⟩
      obtain ⟨merged, eq, route, joined⟩ := mergeWith_eq first others same
      exact ⟨merged, eq, ⟨route.1.trans head.1, joined⟩⟩

theorem partitionRecords_of_merged {groups : List (TopicPartition × List W)} {wire : List W}
    (each : List.Forall₂ Merged groups wire) (tp : TopicPartition) :
    partitionRecords tp wire =
      ((groups.filter fun g => g.1 = tp).flatMap Prod.snd).flatMap LawfulRoutedBatch.records := by
  induction each with
  | nil => rfl
  | @cons group w _ rest here _ ih =>
      have step := partitionRecords_append tp [w] rest
      rw [List.singleton_append] at step
      rw [step, ih]
      by_cases found : group.1 = tp
      · simp [partitionRecords, here.topicPartition, found, here.records]
      · simp [partitionRecords, here.topicPartition, found]

theorem keys_of_merged {groups : List (TopicPartition × List W)} {wire : List W}
    (each : List.Forall₂ Merged groups wire) :
    wire.map getTopicPartition = groups.map Prod.fst := by
  induction each with
  | nil => rfl
  | cons here _ ih => rw [List.map_cons, List.map_cons, ih, here.topicPartition]

theorem exists_group_of_merged {groups : List (TopicPartition × List W)} {wire : List W}
    (each : List.Forall₂ Merged groups wire) : ∀ w ∈ wire, ∃ group ∈ groups, Merged group w := by
  induction each with
  | nil => simp
  | cons here _ ih =>
      intro w mem
      rcases List.mem_cons.mp mem with rfl | later
      · exact ⟨_, by simp, here⟩
      · obtain ⟨group, found, merged⟩ := ih w later
        exact ⟨group, List.mem_cons_of_mem _ found, merged⟩

/-- Merging a flush's entries for one agent never panics; it gives one wire item
per topic-partition that carries that partition's records in order. -/
theorem mergePromised_spec {nodeID : Int} {entries : List (Promised W D)}
    (node : ∀ p ∈ entries, getNodeID p.item = nodeID) :
    ∃ wire, mergePromisedRoutedBatchByTopicPartition entries = some wire ∧
      (wire.map getTopicPartition).Nodup ∧ (entries ≠ [] → wire ≠ []) ∧
      ((∀ p ∈ entries, records p.item ≠ []) → ∀ w ∈ wire, records w ≠ []) ∧
      ∀ tp, partitionRecords tp wire = partitionRecords tp (unpromise entries) := by
  have nodes : ∀ w ∈ unpromise entries, getNodeID w = nodeID := by
    intro w mem
    obtain ⟨p, inside, rfl⟩ := List.mem_map.mp mem
    exact node p inside
  have groups := FirstSeen.groups_groupBy getTopicPartition (unpromise entries)
  obtain ⟨wire, eq, each⟩ := forall₂_of_mapM (mergeGroup_merged nodes)
  have keys := keys_of_merged each
  refine ⟨wire, eq, keys ▸ groups.nodup, ?_, ?_, ?_⟩
  · intro some empty
    obtain ⟨p, mem⟩ := List.exists_mem_of_ne_nil _ some
    have key := groups.covers p.item (List.mem_map_of_mem mem)
    rw [← keys, empty] at key
    cases key
  · intro nonempty w mem
    obtain ⟨⟨tp, members⟩, found, here⟩ := exists_group_of_merged each w mem
    rw [here.records]
    obtain ⟨x, inside⟩ := List.exists_mem_of_ne_nil _ (groups.nonempty tp members found)
    have original := inside
    rw [groups.members tp members found, List.mem_filter] at original
    obtain ⟨p, entry, rfl⟩ := List.mem_map.mp original.1
    intro empty
    exact nonempty p entry (List.flatMap_eq_nil_iff.mp empty p.item inside)
  · intro tp
    rw [partitionRecords_of_merged each tp, FirstSeen.filter_groupBy]
    rfl

end lawful

end Warpstream
