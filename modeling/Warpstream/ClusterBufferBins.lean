import Warpstream.ClusterBufferGroups

set_option autoImplicit false

/- Every agent's buffer holds items for that agent only, and no more of them than one batch
takes: `mergeWith` has what it needs in every flush. -/
namespace Warpstream

open RoutedBatch

/-- What the items of a buffer have to be for `mergeWith` not to panic. -/
structure MergeSafe {W : Type} [RoutedBatch W] (Good : W → Prop) (batchMaxBytes : Nat) : Prop where
  positive : ∀ w, Good w → 0 < recordCount w
  split : ∀ w, Good w → ∀ c ∈ splitByMaxBytes w batchMaxBytes, Good c ∧ SameRouting c w
  merge : ∀ (w : W) (others : List W), (∀ o ∈ w :: others, Good o) →
    (∀ o ∈ others, SameRouting w o) →
    (others = [] ∨ ((w :: others).map uncompressedWireBytes).sum ≤ batchMaxBytes) →
    ∃ merged, mergeWith w others = some merged

theorem forall₂_of_mapM_eq_some {α β : Type} {f : α → Option β} {P : α → β → Prop} {xs : List α}
    {ys : List β} (eq : xs.mapM f = some ys) (each : ∀ x ∈ xs, ∀ y, f x = some y → P x y) :
    List.Forall₂ P xs ys := by
  induction xs generalizing ys with
  | nil =>
      obtain rfl : [] = ys := Option.some.inj eq
      exact .nil
  | cons x rest ih =>
      simp only [List.mapM_cons, Option.bind_eq_bind, Option.bind_eq_some_iff] at eq
      obtain ⟨y, first, later, folded, same⟩ := eq
      obtain rfl := Option.some.inj same
      exact .cons (each x List.mem_cons_self y first)
        (ih folded fun x mem => each x (List.mem_cons_of_mem _ mem))

/-- The wire items of a flush: one for each topic-partition, for the agent of its entries. -/
theorem wire_of_merge {W D : Type} [RoutedBatch W] {nodeID : Int} {entries : List (Promised W D)}
    {wire : List W}
    (routing : ∀ (w : W) (others : List W) (merged : W), mergeWith w others = some merged →
      SameRouting merged w)
    (node : ∀ p ∈ entries, getNodeID p.item = nodeID)
    (eq : mergePromisedRoutedBatchByTopicPartition entries = some wire) :
    (wire.map getTopicPartition).Nodup ∧ ∀ w ∈ wire, getNodeID w = nodeID := by
  have groups := FirstSeen.groups_groupBy getTopicPartition (unpromise entries)
  have each := forall₂_of_mapM_eq_some
    (P := fun group w => getTopicPartition w = group.1 ∧ getNodeID w = nodeID) eq ?_
  · refine ⟨?_, fun w mem => ?_⟩
    · have keys : wire.map getTopicPartition =
          (FirstSeen.groupBy getTopicPartition (unpromise entries)).map Prod.fst := by
        rw [← List.forall₂_eq_eq_eq, List.forall₂_map_left_iff, List.forall₂_map_right_iff]
        exact (each.imp fun _ _ here => here.1).flip
      rw [keys]
      exact groups.nodup
    · obtain ⟨-, -, -, same⟩ := exists_left_of_forall₂ each w mem
      exact same
  · rintro ⟨tp, members⟩ mem w merged
    have all := groups.members tp members mem
    cases members with
    | nil => cases merged
    | cons first others =>
        obtain ⟨key, same⟩ := routing first others w merged
        have inside : first ∈ first :: others := List.mem_cons_self
        rw [all, List.mem_filter] at inside
        obtain ⟨p, entry, rfl⟩ := List.mem_map.mp inside.1
        exact ⟨key.trans (of_decide_eq_true inside.2), same.trans (node p entry)⟩

namespace AgentBuffer

variable {W D : Type} [RoutedBatch W] {Good : W → Prop} {a b : AgentBuffer W D}

structure Bin (Good : W → Prop) (a : AgentBuffer W D) : Prop where
  sums : a.Sums
  entries : ∀ p ∈ a.entries, Good p.item ∧ getNodeID p.item = a.nodeID
  room : a.nextProduceItems.length ≤ 1 ∨ a.nextProduceWireBytes ≤ a.batchMaxBytes

theorem Bin.pending (bin : a.Bin Good) :
    ∀ p ∈ a.nextProduceItems, Good p.item ∧ getNodeID p.item = a.nodeID :=
  fun p mem => bin.entries p (List.mem_append_right _ mem)

theorem Bin.wire (bin : a.Bin Good)
    (routing : ∀ (w : W) (others : List W) (merged : W), mergeWith w others = some merged →
      SameRouting merged w) {f : Flush W D} (mem : f ∈ a.flushes) :
    (f.wire.map getTopicPartition).Nodup ∧ ∀ w ∈ f.wire, getNodeID w = a.nodeID :=
  wire_of_merge routing (fun p entry => (bin.entries p (List.mem_append_left _
    (List.mem_flatMap.mpr ⟨f, mem, entry⟩))).2) (bin.sums.merged f mem).2

theorem Bin.moves {added : List (Promised W D)} (bin : a.Bin Good) (moves : Moves a added b)
    (positive : ∀ w, Good w → 0 < recordCount w)
    (good : ∀ p ∈ added, Good p.item ∧ getNodeID p.item = a.nodeID) : b.Bin Good := by
  refine ⟨moves.sums bin.sums, ?_, ?_⟩
  · rw [moves.entries, moves.config.1]
    intro p mem
    exact (List.mem_append.mp mem).elim (bin.entries p) (good p)
  · -- an item joins what is pending only if both fit, and pending items have records
    have kept := moves.invariant
      (fun b => b.Sums ∧ (∀ p ∈ b.nextProduceItems, Good p.item) ∧
        (b.nextProduceItems.length ≤ 1 ∨ b.nextProduceWireBytes ≤ b.batchMaxBytes))
      (fun p => Good p.item) ⟨bin.sums, fun p mem => (bin.pending p mem).1, bin.room⟩
      (fun p mem => (good p mem).1) ?_ ?_ ?_
    · exact kept.2.2
    · intro b wire held pending merged
      exact ⟨(Moves.flush .refl pending merged).sums held.1, List.forall_mem_nil _,
        Or.inl (Nat.zero_le 1)⟩
    · intro b p held fine room
      refine ⟨(Moves.refl.append p room).sums held.1, fun q mem => ?_, ?_⟩
      · rcases List.mem_append.mp mem with old | new
        · exact held.2.1 q old
        · rwa [List.mem_singleton.mp new]
      · by_cases idle : b.nextProduceRecords = 0
        · have none : b.nextProduceItems = [] := by
            rw [List.eq_nil_iff_forall_not_mem]
            intro q mem
            have counted := held.1.records
            rw [idle] at counted
            have zero := List.sum_eq_zero_iff.mp counted.symm _
              (List.mem_map_of_mem (f := fun p => recordCount p.item) mem)
            have some := positive q.item (held.2.1 q mem)
            omega
          left
          simp [appendNextProduce, none]
        · right
          have below : ¬ (0 < b.nextProduceRecords ∧
              b.batchMaxBytes < b.nextProduceWireBytes + uncompressedWireBytes p.item) := room
          simp only [appendNextProduce]
          omega
    · intro b timer closed held
      exact ⟨⟨held.1.records, held.1.bytes, held.1.merged⟩, held.2⟩

/-- A flush of more than one item is within the size limit. -/
def Roomy (a : AgentBuffer W D) : Prop :=
  ∀ f ∈ a.flushes, f.entries.length ≤ 1 ∨
    (f.entries.map fun p => uncompressedWireBytes p.item).sum ≤ a.batchMaxBytes

theorem Bin.roomy {added : List (Promised W D)} (bin : a.Bin Good) (roomy : a.Roomy)
    (moves : Moves a added b) (positive : ∀ w, Good w → 0 < recordCount w)
    (good : ∀ p ∈ added, Good p.item ∧ getNodeID p.item = a.nodeID) : b.Roomy := by
  induction moves with
  | refl => exact roomy
  | flush before pending merged ih =>
      have mid := bin.moves before positive good
      intro f mem
      rcases List.mem_append.mp mem with old | new
      · exact ih good f old
      · rw [List.mem_singleton.mp new]
        exact mid.room.imp_right fun fits => by rwa [mid.sums.bytes] at fits
  | append p before room ih => exact ih fun q mem => good q (List.mem_append_left _ mem)
  | flags timer closed before ih => exact ih good

/-- What is pending can be merged. -/
theorem Bin.merge (bin : a.Bin Good) (safe : MergeSafe Good a.batchMaxBytes) :
    ∃ wire, mergePromisedRoutedBatchByTopicPartition a.nextProduceItems = some wire := by
  have groups := FirstSeen.groups_groupBy getTopicPartition (unpromise a.nextProduceItems)
  have each : ∀ group ∈ FirstSeen.groupBy getTopicPartition (unpromise a.nextProduceItems),
      ∃ wire, mergeGroup group.2 = some wire ∧ True := by
    rintro ⟨tp, members⟩ mem
    have all := groups.members tp members mem
    have inside : ∀ w ∈ members, Good w ∧ getNodeID w = a.nodeID ∧ getTopicPartition w = tp := by
      intro w found
      rw [all, List.mem_filter] at found
      obtain ⟨p, entry, rfl⟩ := List.mem_map.mp found.1
      exact ⟨(bin.pending p entry).1, (bin.pending p entry).2, of_decide_eq_true found.2⟩
    have sub : members.Sublist (unpromise a.nextProduceItems) := all ▸ List.filter_sublist
    cases members with
    | nil => exact absurd rfl (groups.nonempty tp [] mem)
    | cons first others =>
        obtain ⟨-, node, key⟩ := inside first List.mem_cons_self
        obtain ⟨merged, eq⟩ := safe.merge first others (fun o found => (inside o found).1)
          (fun o found => by
            obtain ⟨-, node', key'⟩ := inside o (List.mem_cons_of_mem _ found)
            exact ⟨key.trans key'.symm, node.trans node'.symm⟩) (by
          rcases bin.room with one | fits
          · left
            have short := sub.length_le
            rw [unpromise, List.length_map, List.length_cons] at short
            exact List.length_eq_zero_iff.mp (by omega)
          · right
            refine Nat.le_trans ?_ fits
            rw [bin.sums.bytes]
            have least := (sub.map uncompressedWireBytes).sum_le_sum fun _ _ => Nat.zero_le _
            rwa [unpromise, List.map_map] at least)
        exact ⟨merged, eq, trivial⟩
  obtain ⟨wire, eq, -⟩ := forall₂_of_mapM each
  exact ⟨wire, eq⟩

theorem Bin.startFlushLocked (bin : a.Bin Good) (safe : MergeSafe Good a.batchMaxBytes) :
    ∃ b, a.startFlushLocked = some b := by
  unfold AgentBuffer.startFlushLocked
  split
  · exact ⟨a, rfl⟩
  · obtain ⟨wire, merged⟩ := bin.merge safe
    exact ⟨_, by rw [merged]; rfl⟩

theorem Bin.close (bin : a.Bin Good) (safe : MergeSafe Good a.batchMaxBytes) :
    ∃ b, a.close = some b := by
  unfold AgentBuffer.close
  split
  · exact ⟨a, rfl⟩
  · have marked : Bin Good { a with closed := true } :=
      ⟨⟨bin.sums.records, bin.sums.bytes, bin.sums.merged⟩, bin.entries, bin.room⟩
    exact marked.startFlushLocked safe

theorem Bin.addChunks {chunks : List (Promised W D)} (bin : a.Bin Good)
    (safe : MergeSafe Good a.batchMaxBytes)
    (good : ∀ p ∈ chunks, Good p.item ∧ getNodeID p.item = a.nodeID) :
    ∃ r, a.addChunks chunks = some r := by
  have fold : ∃ b, chunks.foldlM addToNextProduceLocked a = some b := by
    induction chunks generalizing a with
    | nil => exact ⟨a, rfl⟩
    | cons p rest ih =>
        obtain ⟨mid, added⟩ : ∃ mid, a.addToNextProduceLocked p = some mid := by
          unfold addToNextProduceLocked
          split
          · obtain ⟨b, started⟩ := bin.startFlushLocked safe
            exact ⟨_, by rw [started]; rfl⟩
          · exact ⟨_, rfl⟩
        have moves := (addToNextProduceLocked_moves added).1
        have next := bin.moves moves safe.positive (by simpa using good p List.mem_cons_self)
        obtain ⟨b, later⟩ := ih next (by rw [moves.config.2]; exact safe)
          fun q mem => by
            rw [moves.config.1]
            exact good q (List.mem_cons_of_mem _ mem)
        exact ⟨b, by rw [List.foldlM_cons, added]; exact later⟩
  unfold AgentBuffer.addChunks
  split
  · exact ⟨_, rfl⟩
  · obtain ⟨b, folded⟩ := fold
    exact ⟨_, by rw [folded]; rfl⟩

/-- The chunks of good items are good and keep their agent. -/
theorem good_splitAll {max : Nat} {nodeID : Int} {items : List (Promised W D)}
    (safe : MergeSafe Good max) (good : ∀ p ∈ items, Good p.item ∧ getNodeID p.item = nodeID)
    (fanIn : Nat → D) : ∀ c ∈ splitAll max fanIn items, Good c.item ∧ getNodeID c.item = nodeID := by
  induction items generalizing fanIn with
  | nil => exact List.forall_mem_nil _
  | cons p rest ih =>
      obtain ⟨fine, node⟩ := good p List.mem_cons_self
      intro c mem
      rcases List.mem_append.mp mem with here | later
      · unfold splitPromisedRoutedBatchByBatchMaxBytes at here
        dsimp only at here
        split at here
        · rw [List.mem_singleton.mp here]
          exact ⟨fine, node⟩
        · obtain ⟨chunk, inside, rfl⟩ := List.mem_map.mp here
          obtain ⟨fine', same⟩ := safe.split p.item fine chunk inside
          exact ⟨fine', same.2.trans node⟩
      · exact ih (fun q inside => good q (List.mem_cons_of_mem _ inside)) _ c later

/-- What `Add` and `MultiAdd` do: nothing, or adding good chunks. -/
theorem addTo_good {a : AgentBuffer W Callback} (fanIn : Nat → Callback) {adding : Adding W}
    (safe : MergeSafe Good a.batchMaxBytes)
    (good : ∀ p ∈ adding.items, Good p.item ∧ getNodeID p.item = a.nodeID) :
    ClusterBuffer.addTo a fanIn adding = some (a, []) ∨
      ∃ chunks, ClusterBuffer.addTo a fanIn adding = a.addChunks chunks ∧
        ∀ c ∈ chunks, Good c.item ∧ getNodeID c.item = a.nodeID := by
  have many (items : List (Promised W Callback))
      (good : ∀ p ∈ items, Good p.item ∧ getNodeID p.item = a.nodeID) :
      a.multiAdd items fanIn = some (a, []) ∨
        ∃ chunks, a.multiAdd items fanIn = a.addChunks chunks ∧
          ∀ c ∈ chunks, Good c.item ∧ getNodeID c.item = a.nodeID := by
    unfold AgentBuffer.multiAdd
    split
    · exact Or.inl rfl
    · exact Or.inr ⟨_, rfl, good_splitAll safe good fanIn⟩
  cases adding with
  | one p =>
      simp only [ClusterBuffer.addTo, AgentBuffer.add]
      split
      · exact Or.inl rfl
      · split
        · exact many [p] good
        · exact Or.inr ⟨[p], rfl, good⟩
  | many items => exact many items good

end AgentBuffer

namespace ClusterBuffer

variable {W : Type} [RoutedBatch W] {Good : W → Prop} {max : Nat} {c c' : ClusterBuffer W}
  {ops ops' : List (Op W)}

/-- Items go to the buffer of their agent. -/
def BinOp (Good : W → Prop) (c : ClusterBuffer W) : Op W → Prop
  | .add _ item => Good item
  | .multiAdd _ todo wrapped => (∀ w ∈ todo, Good w) ∧ ∀ p ∈ wrapped, Good p.item
  | .addToBuffers _ adding => ∀ p ∈ adding.items, Good p.item
  | .agentBufferFor nodeID adding => ∀ p ∈ adding.items, Good p.item ∧ getNodeID p.item = nodeID
  | .agentAdd agent adding => ∃ a, c.agentBuffers[agent]? = some a ∧
      ∀ p ∈ adding.items, Good p.item ∧ getNodeID p.item = a.nodeID
  | _ => True

structure Binned (Good : W → Prop) (max : Nat) (c : ClusterBuffer W) (ops : List (Op W)) :
    Prop where
  size : c.batchMaxBytes = max
  agents : ∀ a ∈ c.agentBuffers, a.batchMaxBytes = max ∧ a.Bin Good
  sound : ∀ op ∈ ops, c.BinOp Good op

/-- The agents' buffers stay where they are. -/
def KeepsNodes (c c' : ClusterBuffer W) : Prop :=
  ∀ (k : Nat) (a : AgentBuffer W Callback), c.agentBuffers[k]? = some a →
    ∃ a', c'.agentBuffers[k]? = some a' ∧ a'.nodeID = a.nodeID

theorem BinOp.mono (keeps : KeepsNodes c c') {op : Op W} (ok : c.BinOp Good op) :
    c'.BinOp Good op := by
  cases op with
  | agentAdd agent adding =>
      obtain ⟨a, found, good⟩ := ok
      obtain ⟨a', found', same⟩ := keeps agent a found
      exact ⟨a', found', by rwa [same]⟩
  | _ => exact ok

theorem Binned.perm (binned : Binned Good max c ops) (perm : ops.Perm ops') :
    Binned Good max c ops' :=
  ⟨binned.size, binned.agents, fun op mem => binned.sound op (perm.mem_iff.mpr mem)⟩

/-- A step that leaves the agents' buffers as they are. -/
theorem Binned.pass (binned : Binned Good max c ops) (size : c'.batchMaxBytes = c.batchMaxBytes)
    (agents : c'.agentBuffers = c.agentBuffers)
    (newOps : ∀ op ∈ ops', op ∈ ops ∨ c.BinOp Good op) : Binned Good max c' ops' := by
  have keeps : KeepsNodes c c' := fun k a found => ⟨a, agents ▸ found, rfl⟩
  refine ⟨size.trans binned.size, agents ▸ binned.agents, fun op mem => ?_⟩
  exact ((newOps op mem).elim (binned.sound op) id).mono keeps

/-- A critical section of an agent's buffer. -/
theorem Binned.setAgent {agent : Nat} {a after : AgentBuffer W Callback}
    (binned : Binned Good max c ops) (size : c'.batchMaxBytes = c.batchMaxBytes)
    (found : c.agentBuffers[agent]? = some a)
    (agents : c'.agentBuffers = c.agentBuffers.set agent after)
    (same : after.nodeID = a.nodeID ∧ after.batchMaxBytes = a.batchMaxBytes) (bin : after.Bin Good)
    (newOps : ∀ op ∈ ops', op ∈ ops ∨ c.BinOp Good op) : Binned Good max c' ops' := by
  have inside := (List.getElem?_eq_some_iff.mp found).1
  have keeps : KeepsNodes c c' := fun k b place => by
    rw [agents]
    by_cases here : k = agent
    · subst here
      obtain rfl := Option.some.inj (found.symm.trans place)
      exact ⟨after, List.getElem?_set_self inside, same.1⟩
    · exact ⟨b, by rwa [List.getElem?_set_ne (Ne.symm here)], rfl⟩
  refine ⟨size.trans binned.size, fun b mem => ?_, fun op mem => ?_⟩
  · rw [agents] at mem
    rcases List.mem_or_eq_of_mem_set mem with old | rfl
    · exact binned.agents b old
    · exact ⟨same.2.trans (binned.agents a (List.mem_of_getElem? found)).1, bin⟩
  · exact ((newOps op mem).elim (binned.sound op) id).mono keeps

/-- What `Add` and `MultiAdd` do to the buffer of an agent. -/
theorem moves_of_addTo {a after : AgentBuffer W Callback} {fanIn : Nat → Callback} {adding : Adding W}
    {refused : List Callback} (safe : MergeSafe Good a.batchMaxBytes)
    (good : ∀ p ∈ adding.items, Good p.item ∧ getNodeID p.item = a.nodeID)
    (added : addTo a fanIn adding = some (after, refused)) : ∃ chunks, a.Moves chunks after ∧
      ∀ p ∈ chunks, Good p.item ∧ getNodeID p.item = a.nodeID := by
  rcases AgentBuffer.addTo_good fanIn safe good with nothing | ⟨chunks, eq, fine⟩
  · obtain ⟨rfl, -⟩ := Prod.mk.inj (Option.some.inj (added.symm.trans nothing))
    exact ⟨[], .refl, List.forall_mem_nil _⟩
  · rcases AgentBuffer.addChunks_cases (eq.symm.trans added) with ⟨-, rfl, -⟩ | ⟨-, -, -, moves⟩
    · exact ⟨[], .refl, List.forall_mem_nil _⟩
    · exact ⟨chunks, moves, fine⟩

/-- A critical section leaves refusals and flushes, which are about no items. -/
theorem Binned.locked {op : Op W} {effect : Effect W} {agent : Nat}
    {a after : AgentBuffer W Callback} {added : List (Promised W Callback)}
    (binned : Binned Good max c (op :: ops)) (safe : MergeSafe Good max)
    (refused : List Callback) (d : Delivery) (size : effect.next.batchMaxBytes = c.batchMaxBytes)
    (found : c.agentBuffers[agent]? = some a)
    (agents : effect.next.agentBuffers = c.agentBuffers.set agent after)
    (moves : a.Moves added after)
    (good : ∀ p ∈ added, Good p.item ∧ getNodeID p.item = a.nodeID)
    (spawned : effect.spawned = flushTasks agent a.flushes.length
      (after.flushes.drop a.flushes.length))
    (left : effect.ops = refused.map fun cb => Op.done cb d) :
    Binned Good max effect.next (effect.ops ++ effect.spawned.flatten ++ ops) := by
  have bin := (binned.agents a (List.mem_of_getElem? found)).2.moves moves safe.positive good
  refine binned.setAgent size found agents moves.config bin fun new mem => ?_
  rw [left, spawned] at mem
  rcases List.mem_append.mp mem with fresh | old
  · rcases List.mem_append.mp fresh with refusal | flush
    · obtain ⟨cb, -, rfl⟩ := List.mem_map.mp refusal
      exact Or.inr trivial
    · obtain ⟨index, f, -, rfl⟩ := mem_flushTasks.mp flush
      exact Or.inr trivial
  · exact Or.inl (List.mem_cons_of_mem _ old)

theorem Binned.newAgentBuffer {nodeID : Int} {adding : Adding W}
    (binned : Binned Good max c (.agentBufferFor nodeID adding :: ops)) :
    Binned Good max { c with
        agentBuffers := c.agentBuffers ++ [{ nodeID := nodeID, batchMaxBytes := c.batchMaxBytes }] }
      (.agentAdd c.agentBuffers.length adding :: ops) := by
  have keeps (k : Nat) (a : AgentBuffer W Callback) (found : c.agentBuffers[k]? = some a) :
      (c.agentBuffers ++ [{ nodeID := nodeID, batchMaxBytes := c.batchMaxBytes }])[k]? = some a := by
    rw [List.getElem?_append_left (List.getElem?_eq_some_iff.mp found).1, found]
  refine ⟨binned.size, fun a mem => ?_, fun op mem => ?_⟩
  · rcases List.mem_append.mp mem with old | new
    · exact binned.agents a old
    · rw [List.mem_singleton.mp new]
      exact ⟨binned.size, ⟨rfl, rfl, List.forall_mem_nil _⟩, List.forall_mem_nil _,
        Or.inl (Nat.zero_le 1)⟩
  · rcases List.mem_cons.mp mem with rfl | old
    · exact ⟨_, List.getElem?_concat_length, binned.sound _ List.mem_cons_self⟩
    · exact (binned.sound op (List.mem_cons_of_mem _ old)).mono
        fun k a found => ⟨a, keeps k a found, rfl⟩

theorem Binned.runs {ctxErr : Nat → Option GoError} {op : Op W} {effect : Effect W}
    (binned : Binned Good max c (op :: ops)) (safe : MergeSafe Good max)
    (ran : Runs c ctxErr op effect) :
    Binned Good max effect.next (effect.ops ++ effect.spawned.flatten ++ ops) := by
  have ok := binned.sound op List.mem_cons_self
  have turns (next : List (Op W)) (size : effect.next.batchMaxBytes = c.batchMaxBytes)
      (agents : effect.next.agentBuffers = c.agentBuffers) (new : ∀ op ∈ next, c.BinOp Good op) :
      Binned Good max effect.next (next ++ ops) :=
    binned.pass size agents fun op mem =>
      (List.mem_append.mp mem).symm.imp (List.mem_cons_of_mem _) (new op)
  cases ran with
  | add ctx item =>
      refine turns [_] rfl rfl fun op mem => ?_
      obtain rfl := List.mem_singleton.mp mem
      exact fun p inside => List.mem_singleton.mp inside ▸ ok
  | wrapped ctx wrapped =>
      refine turns [_] rfl rfl fun op mem => ?_
      obtain rfl := List.mem_singleton.mp mem
      exact ok.2
  | wrap ctx item todo wrapped =>
      refine turns [_] rfl rfl fun op mem => ?_
      obtain rfl := List.mem_singleton.mp mem
      refine ⟨fun w inside => ok.1 w (List.mem_cons_of_mem _ inside), fun p inside => ?_⟩
      rcases List.mem_append.mp inside with old | new
      · exact ok.2 p old
      · rw [List.mem_singleton.mp new]
        exact ok.1 item List.mem_cons_self
  | ctxFailed n adding err ended =>
      rw [List.flatten_nil, List.append_nil]
      refine turns _ rfl rfl fun op mem => ?_
      obtain ⟨p, -, rfl⟩ := List.mem_map.mp mem
      trivial
  | addToBuffer ctx p =>
      refine turns [_] rfl rfl fun op mem => ?_
      obtain rfl := List.mem_singleton.mp mem
      intro q inside
      rw [List.mem_singleton.mp inside]
      exact ⟨ok p List.mem_cons_self, rfl⟩
  | addToBuffers ctx items bins binning =>
      rw [List.flatten_nil, List.append_nil]
      refine turns _ rfl rfl fun op mem => ?_
      obtain ⟨bin, inside, rfl⟩ := List.mem_map.mp mem
      have members := (FirstSeen.groups_groupBy (fun p : Promised W Callback => getNodeID p.item)
        items).members bin.1 bin.2 (binning.mem_iff.mp inside)
      intro p here
      rw [Adding.items, members, List.mem_filter] at here
      exact ⟨ok p here.1, of_decide_eq_true here.2⟩
  | bufferClosed nodeID adding closed =>
      rw [List.flatten_nil, List.append_nil]
      refine turns _ rfl rfl fun op mem => ?_
      obtain ⟨p, -, rfl⟩ := List.mem_map.mp mem
      trivial
  | agentBuffer nodeID adding agent found =>
      refine turns [_] rfl rfl fun op mem => ?_
      obtain rfl := List.mem_singleton.mp mem
      obtain ⟨bound, same, -⟩ := List.findIdx?_eq_some_iff_getElem.mp found
      exact ⟨_, List.getElem?_eq_getElem bound, (of_decide_eq_true same).symm ▸ ok⟩
  | newAgentBuffer nodeID adding absent => exact binned.newAgentBuffer
  | agentAdd agent adding a after refused found added =>
      obtain ⟨b, place, good⟩ := ok
      obtain rfl := Option.some.inj (found.symm.trans place)
      have size := (binned.agents a (List.mem_of_getElem? found)).1
      obtain ⟨chunks, moves, fine⟩ := moves_of_addTo (size ▸ safe) good added
      exact binned.locked safe refused _ rfl found rfl moves fine rfl rfl
  | doneBare | done | doneAgain =>
      refine turns [_] rfl rfl fun op mem => ?_
      obtain rfl := List.mem_singleton.mp mem
      trivial
  | fanIn j d f found more => exact turns [] rfl rfl (List.forall_mem_nil _)
  | fanInLast j d f result found last chosen =>
      refine turns [_] rfl rfl fun op mem => ?_
      obtain rfl := List.mem_singleton.mp mem
      trivial
  | fireLost i d it found fired => exact turns [] rfl rfl (List.forall_mem_nil _)
  | fireWon i d it found first =>
      refine turns [_] rfl rfl fun op mem => ?_
      obtain rfl := List.mem_singleton.mp mem
      trivial
  | origDone i d it found => exact turns [] rfl rfl (List.forall_mem_nil _)
  | flush agent index entries res =>
      rw [List.flatten_nil, List.append_nil]
      refine turns _ rfl rfl fun op mem => ?_
      obtain ⟨e, -, rfl⟩ := List.mem_map.mp mem
      trivial
  | closeAgent agent a after found closing =>
      exact binned.locked safe [] ⟨{}, .closed⟩ rfl found rfl (AgentBuffer.close_moves closing)
        (List.forall_mem_nil _) rfl rfl

def Roomy (c : ClusterBuffer W) : Prop := ∀ a ∈ c.agentBuffers, a.Roomy

theorem Roomy.setAgent {agent : Nat} {a after : AgentBuffer W Callback}
    {added : List (Promised W Callback)} (roomy : c.Roomy) (binned : Binned Good max c ops)
    (safe : MergeSafe Good max) (found : c.agentBuffers[agent]? = some a)
    (agents : c'.agentBuffers = c.agentBuffers.set agent after) (moves : a.Moves added after)
    (good : ∀ p ∈ added, Good p.item ∧ getNodeID p.item = a.nodeID) : c'.Roomy := by
  intro b mem
  rw [agents] at mem
  rcases List.mem_or_eq_of_mem_set mem with old | rfl
  · exact roomy b old
  · have inside := List.mem_of_getElem? found
    exact (binned.agents a inside).2.roomy (roomy a inside) moves safe.positive good

theorem Binned.roomy {ctxErr : Nat → Option GoError} {op : Op W} {effect : Effect W}
    (binned : Binned Good max c (op :: ops)) (safe : MergeSafe Good max)
    (ran : Runs c ctxErr op effect) (roomy : c.Roomy) : effect.next.Roomy := by
  have ok := binned.sound op List.mem_cons_self
  cases ran with
  | newAgentBuffer nodeID adding absent =>
      intro a mem
      rcases List.mem_append.mp mem with old | new
      · exact roomy a old
      · rw [List.mem_singleton.mp new]
        exact List.forall_mem_nil _
  | agentAdd agent adding a after refused found added =>
      obtain ⟨b, place, good⟩ := ok
      obtain rfl := Option.some.inj (found.symm.trans place)
      have size := (binned.agents a (List.mem_of_getElem? found)).1
      obtain ⟨chunks, moves, fine⟩ := moves_of_addTo (size ▸ safe) good added
      exact roomy.setAgent binned safe found rfl moves fine
  | closeAgent agent a after found closing =>
      exact roomy.setAgent binned safe found rfl (AgentBuffer.close_moves closing)
        (List.forall_mem_nil _)
  | _ => exact roomy

end ClusterBuffer

/-- The items that an action adds are good. -/
def ClusterAction.Adds {W : Type} (Good : W → Prop) : ClusterAction W → Prop
  | .add _ item => Good item
  | .multiAdd _ items => ∀ w ∈ items, Good w
  | _ => True

theorem ClusterAction.Adds.imp {W : Type} {Good Fair : W → Prop} {action : ClusterAction W}
    (adds : action.Adds Good) (fair : ∀ w, Good w → Fair w) : action.Adds Fair := by
  cases action with
  | add ctx item => exact fair item adds
  | multiAdd ctx items => exact fun w mem => fair w (adds w mem)
  | cancel | watchFires | timerFlush | close | run => trivial

theorem ClusterAction.adds_of_isInternal {W : Type} {Good : W → Prop} {action : ClusterAction W}
    (internal : action.isInternal = true) : action.Adds Good := by
  cases action with
  | add | multiAdd => cases internal
  | cancel | watchFires | timerFlush | close | run => trivial

namespace ClusterRun

open ClusterBuffer

variable {W : Type} [RoutedBatch W]

/-- The action runs into a panic of `mergeWith`. -/
def panics (r : ClusterRun W) : ClusterAction W → Bool
  | .timerFlush agent => (r.buffer.agentBuffers[agent]?).any fun a => a.timerFlush.isNone
  | .run task _ =>
      match r.tasks[task]? with
      | some (.agentAdd agent adding :: _) =>
          (r.buffer.agentBuffers[agent]?).any fun a =>
            (addTo a (fun k => .fanIn (r.buffer.fanIns.length + k)) adding).isNone
      | some (.closeAgent agent :: _) =>
          (r.buffer.agentBuffers[agent]?).any fun a => a.close.isNone
      | _ => false
  | _ => false

variable {Good : W → Prop} {max : Nat} {r r' : ClusterRun W} {action : ClusterAction W}

theorem binned_init (max : Nat) :
    (ClusterRun.init (W := W) max).buffer.Binned Good max
      (ClusterRun.init (W := W) max).tasks.flatten :=
  ⟨rfl, List.forall_mem_nil _, List.forall_mem_nil _⟩

theorem binned_spawn (binned : r.buffer.Binned Good max r.tasks.flatten) {tasks : List (List (Op W))}
    (sound : ∀ op ∈ tasks.flatten, r.buffer.BinOp Good op) :
    (r.spawn tasks).buffer.Binned Good max (r.spawn tasks).tasks.flatten := by
  refine binned.pass rfl rfl fun op mem => ?_
  rw [ClusterRun.spawn, List.flatten_append, List.mem_append] at mem
  exact mem.imp_right (sound op)

theorem binned_step [DecidableEq W] (binned : r.buffer.Binned Good max r.tasks.flatten)
    (safe : MergeSafe Good max) (good : action.Adds Good) (stepped : r.step action = some r') :
    r'.buffer.Binned Good max r'.tasks.flatten := by
  cases steps_of_step stepped with
  | add ctx item =>
      refine binned_spawn binned fun op mem => ?_
      obtain rfl : op = .add ctx item := by simpa using mem
      exact good
  | multiAddNone ctx => exact binned
  | multiAdd ctx items =>
      refine binned_spawn binned fun op mem => ?_
      obtain rfl : op = .multiAdd ctx items [] := by simpa using mem
      exact ⟨good, fun p none => by cases none⟩
  | cancel ctx err running => exact ⟨binned.size, binned.agents, binned.sound⟩
  | watchFires i it ctx err found hasCtx ended =>
      refine binned_spawn (r := { r with buffer := { r.buffer with
        items := r.buffer.items.set i { it with watch := .started } } })
        (binned.pass rfl rfl fun op mem => Or.inl mem) fun op mem => ?_
      obtain rfl : op = .fireOrigDone i ⟨{ err := some err }, .ctx⟩ := by simpa using mem
      trivial
  | timerFlush agent a after found started =>
      have moves := (AgentBuffer.startFlushLocked_moves started).1
      have bin := (binned.agents a (List.mem_of_getElem? found)).2.moves moves safe.positive
        (List.forall_mem_nil _)
      refine binned.setAgent rfl found rfl moves.config bin fun op mem => ?_
      rw [ClusterRun.spawn, List.flatten_append, List.mem_append] at mem
      refine mem.imp_right fun new => ?_
      obtain ⟨index, f, -, rfl⟩ := mem_flushTasks.mp new
      trivial
  | closeAgain => exact binned
  | close =>
      refine binned_spawn (r := { r with buffer := { r.buffer with closed := true } })
        (binned.pass rfl rfl fun op mem => Or.inl mem) fun op mem => ?_
      obtain ⟨task, inside, here⟩ := List.mem_flatten.mp mem
      obtain ⟨agent, -, rfl⟩ := List.mem_map.mp inside
      obtain rfl := List.mem_singleton.mp here
      trivial
  | run task choice op rest effect found ran =>
      exact ((binned.perm (Pool.flatten_perm found)).runs safe ran).perm
        (Pool.flatten_run_perm found _ _)

theorem roomy_step [DecidableEq W] (binned : r.buffer.Binned Good max r.tasks.flatten)
    (safe : MergeSafe Good max) (roomy : r.buffer.Roomy) (stepped : r.step action = some r') :
    r'.buffer.Roomy := by
  cases steps_of_step stepped with
  | timerFlush agent a after found started =>
      exact roomy.setAgent binned safe found rfl (AgentBuffer.startFlushLocked_moves started).1
        (List.forall_mem_nil _)
  | run task choice op rest effect found ran =>
      exact (binned.perm (Pool.flatten_perm found)).roomy safe ran roomy
  | _ => exact roomy

/-- No critical section panics. -/
theorem panics_eq_false (binned : r.buffer.Binned Good max r.tasks.flatten)
    (safe : MergeSafe Good max) (action : ClusterAction W) : r.panics action = false := by
  have held {agent : Nat} {a : AgentBuffer W Callback}
      (found : r.buffer.agentBuffers[agent]? = some a) :
      MergeSafe Good a.batchMaxBytes ∧ a.Bin Good := by
    obtain ⟨size, bin⟩ := binned.agents a (List.mem_of_getElem? found)
    exact ⟨size ▸ safe, bin⟩
  have none {agent : Nat} {op : AgentBuffer W Callback → Bool}
      (each : ∀ a, r.buffer.agentBuffers[agent]? = some a → op a = false) :
      (r.buffer.agentBuffers[agent]?).any op = false := by
    cases found : r.buffer.agentBuffers[agent]? with
    | none => rfl
    | some a => exact each a found
  cases action with
  | timerFlush agent =>
      refine none fun a found => ?_
      obtain ⟨b, started⟩ := (held found).2.startFlushLocked (held found).1
      rw [AgentBuffer.timerFlush, started]
      rfl
  | run task choice =>
      simp only [panics]
      split
      · rename_i agent adding rest found
        refine none fun a place => ?_
        obtain ⟨b, place', good⟩ := binned.sound (.agentAdd agent adding)
          (List.mem_flatten.mpr ⟨_, List.mem_of_getElem? found, List.mem_cons_self⟩)
        obtain rfl := Option.some.inj (place.symm.trans place')
        obtain ⟨safe, bin⟩ := held place
        rcases AgentBuffer.addTo_good (fun k => .fanIn (r.buffer.fanIns.length + k)) safe good with
          nothing | ⟨chunks, eq, fine⟩
        · rw [nothing]
          rfl
        · obtain ⟨after, added⟩ := bin.addChunks safe fine
          rw [eq, added]
          rfl
      · refine none fun a place => ?_
        obtain ⟨b, closing⟩ := (held place).2.close (held place).1
        rw [closing]
        rfl
      · rfl
  | add | multiAdd | cancel | watchFires | close => rfl

end ClusterRun

end Warpstream
