import Warpstream.HedgeWaves

set_option autoImplicit false

/- What the legs of concurrent cascades are credited for. As long as the groups of the legs
stay together in the hedge buffer, the result a leg reads is that of the one flush which
carried all of its items. -/
namespace Warpstream

open RoutedBatch

theorem groupLegs_agents_nodup (chosen : List (Int × EncodedTopicPartitionRecords)) :
    ((groupLegs chosen).map HedgeLeg.agent).Nodup := by
  have nodup := (FirstSeen.groups_groupBy Prod.fst chosen).nodup
  simpa [groupLegs, List.map_map, Function.comp_def] using nodup

/-- An accumulator starts with the partitions of the call. -/
theorem pending_of_start {cfg : HedgeConfig} {c : Cascade} (started : Cascade.start cfg = .ok c)
    {tp : TopicPartition} {p : EncodedTopicPartitionRecords}
    (found : c.acc.pending.lookup tp = some p) : p ∈ cfg.partitions := by
  have fold (rest : List EncodedTopicPartitionRecords) (a b : ProduceResultAccumulator)
      (seeded : rest.foldlM seedPending a = .ok b) (found : b.pending.lookup tp = some p) :
      a.pending.lookup tp = some p ∨ p ∈ rest := by
    induction rest generalizing a with
    | nil =>
        obtain rfl : a = b := Except.ok.inj seeded
        exact Or.inl found
    | cons q rest ih =>
        rw [List.foldlM_cons, seedPending] at seeded
        split at seeded
        · cases seeded
        · rcases ih _ seeded with old | later
          · by_cases same : tp = q.topicPartition
            · subst same
              obtain rfl : q = p := by simpa using old
              exact Or.inr List.mem_cons_self
            · rw [AList.lookup_insert_ne same] at old
              exact Or.inl old
          · exact Or.inr (List.mem_cons_of_mem _ later)
  unfold Cascade.start at started
  cases made : newProduceResultAccumulator cfg.partitions with
  | error err =>
      rw [made] at started
      cases started
  | ok acc =>
      rw [made] at started
      obtain rfl := Except.ok.inj started
      rcases fold cfg.partitions {} acc made found with empty | mem
      · cases empty
      · exact mem

namespace HedgeLeg

theorem mem_items {leg : HedgeLeg} {w : RoutedEncodedTopicPartitionRecords} :
    w ∈ leg.items ↔ ∃ p ∈ leg.parts, w = { p with nodeID := leg.agent } := by
  simp [HedgeLeg.items, unpromise, newMultiRoutedEncodedTopicPartitionRecords, eq_comm]

end HedgeLeg

/-- The calls carry partitions with records. -/
def HedgeAction.HasRecords : HedgeAction → Prop
  | .call cfg => ∀ p ∈ cfg.partitions, 0 < p.encodedStats.records
  | _ => True

namespace HedgeRun

def groups (r : HedgeRun) : List (Group RoutedEncodedTopicPartitionRecords) :=
  r.legs.map fun l => l.owner.group

/-- No flush starts between two items of a leg's group. -/
def keepsTogether [Snappy] (r : HedgeRun) : HedgeAction → Bool
  | .buffer action => r.run.keepsTogether action
  | _ => true

/-- A result sent to the channel of a leg: that of its context, of a closed buffer, or of a
flush that carried all items of the leg. -/
def SentOk [Snappy] (r : HedgeRun) (s : SentLeg) (d : Delivery) : Prop :=
  match d.cause with
  | .ctx => ∃ err, r.run.ctxErr s.ctx = some err ∧ d.res = { err := some err }
  | .closed => r.run.buffer.closed = true ∧ d.res = { err := some GoError.errBufferClosed }
  | .flush agent index => ⟨agent, index, d.res⟩ ∈ r.run.buffer.returned ∧
      ∃ a f, r.run.buffer.agentBuffers[agent]? = some a ∧ a.flushes[index]? = some f ∧
        r.run.buffer.Holds f.entries s.group

/-- The calls keep their configuration, and nothing becomes pending again. -/
def CallsLe (calls calls' : List HedgeCall) : Prop :=
  ∀ (q : Nat) (call : HedgeCall), calls[q]? = some call → ∃ call', calls'[q]? = some call' ∧
    call'.cfg = call.cfg ∧ ∀ tp p, call'.cascade.acc.pending.lookup tp = some p →
      call.cascade.acc.pending.lookup tp = some p

structure Inv [Snappy] (r : HedgeRun) : Prop where
  run : r.run.Inv
  grouped : r.run.buffer.Grouped r.groups r.run.tasks.flatten
  fresh : ∀ l ∈ r.legs, l.owner.ctx < r.nextCtx
  keys : (r.legs.map fun l => (l.owner.ctx, l.owner.leg.agent)).Nodup
  own : ∀ l ∈ r.legs, ∃ call, r.calls[l.owner.call]? = some call ∧
    ∀ p ∈ l.owner.leg.parts, p ∈ call.cfg.partitions
  records : ∀ call ∈ r.calls, ∀ p ∈ call.cfg.partitions, 0 < p.encodedStats.records
  pending : ∀ call ∈ r.calls, ∀ tp p, call.cascade.acc.pending.lookup tp = some p →
    p ∈ call.cfg.partitions
  sent : ∀ l ∈ r.legs, ∀ d, l.sent = some d → r.SentOk l.owner d
  collected : ∀ l ∈ r.legs, l.collected = true → ∃ d call, l.sent = some d ∧
    r.calls[l.owner.call]? = some call ∧
    ∀ tp, LegResult.Acks ⟨l.owner.leg.own, d.res⟩ tp → tp ∉ call.cascade.acc.pending

variable [Snappy] {r r' : HedgeRun}

theorem inv_init (batchMaxBytes : Nat) : Inv (HedgeRun.init batchMaxBytes) where
  run := ClusterRun.inv_init batchMaxBytes
  grouped := ⟨List.forall_mem_nil _, fun _ _ found => (by cases found)⟩
  fresh _ mem := by cases mem
  keys := List.nodup_nil
  own _ mem := by cases mem
  records _ mem := by cases mem
  pending _ mem := by cases mem
  sent _ mem := by cases mem
  collected _ mem := by cases mem

theorem SentOk.mono {s : SentLeg} {d : Delivery} (ok : r.SentOk s d)
    (grows : ClusterBuffer.Grows r.run.buffer r'.run.buffer)
    (ends : ∀ n err, r.run.ctxErr n = some err → r'.run.ctxErr n = some err) : r'.SentOk s d := by
  unfold SentOk at ok ⊢
  split at ok
  · obtain ⟨err, ended, res⟩ := ok
    exact ⟨err, ends _ _ ended, res⟩
  · exact ⟨grows.closed ok.1, ok.2⟩
  · obtain ⟨returned, a, f, found, flush, holds⟩ := ok
    obtain ⟨a', new, found', flushes⟩ := grows.agents _ a found
    refine ⟨grows.returned _ returned, a', f, found', ?_, holds.mono grows fun e mem => mem⟩
    rw [flushes, List.getElem?_append_left (List.getElem?_eq_some_iff.mp flush).1]
    exact flush

/-- The context of its wave and its agent identify a leg. -/
theorem Inv.leg_unique (inv : Inv r) {l l' : LegDone} (mem : l ∈ r.legs) (mem' : l' ∈ r.legs)
    (ctx : l.owner.ctx = l'.owner.ctx) (agent : l.owner.leg.agent = l'.owner.leg.agent) : l = l' :=
  List.inj_on_of_nodup_map inv.keys mem mem' (Prod.ext ctx agent)

theorem Inv.group_nodes (inv : Inv r) :
    ∀ g ∈ r.groups, ∀ w ∈ g.items, getNodeID w = g.nodeID ∧ 0 < recordCount w := by
  intro g mem w inside
  obtain ⟨l, place, rfl⟩ := List.mem_map.mp mem
  obtain ⟨p, part, rfl⟩ := HedgeLeg.mem_items.mp inside
  obtain ⟨call, found, parts⟩ := inv.own l place
  exact ⟨rfl, inv.records call (List.mem_of_getElem? found) p (parts p part)⟩

/-- A callback that runs for a leg brings the result of a flush with all of its items. -/
theorem Inv.sentOk (inv : Inv r) {l : LegDone} (mem : l ∈ r.legs) {i : Nat} {d : Delivery}
    {it : Item RoutedEncodedTopicPartitionRecords} (op : .origDone i d ∈ r.run.tasks.flatten)
    (found : r.run.buffer.items[i]? = some it) (ctx : it.ctx = some l.owner.ctx)
    (node : it.item.nodeID = l.owner.leg.agent) : r.SentOk l.owner d := by
  have sourced := (inv.run.origins.sound _ op).1
  unfold ClusterBuffer.Sourced at sourced
  unfold SentOk
  cases cause : d.cause with
  | ctx =>
    simp only [cause] at sourced ⊢
    obtain ⟨k, it', n, err, same, found', ctx', ended, res⟩ := sourced
    obtain rfl := Callback.wrapped.inj same
    obtain rfl := Option.some.inj (found.symm.trans found')
    obtain rfl := Option.some.inj (ctx.symm.trans ctx')
    exact ⟨err, ended, res⟩
  | closed =>
    simp only [cause] at sourced ⊢
    exact sourced
  | flush agent index =>
    simp only [cause] at sourced ⊢
    obtain ⟨returned, a, f, e, foundAgent, flush, inside, reports⟩ := sourced
    have batch : f.entries ∈ a.batches :=
      List.mem_append_left _ (List.mem_map_of_mem (List.mem_of_getElem? flush))
    obtain ⟨g, known, ⟨k, it', done, found', ctx', item, own⟩, holds⟩ :=
      inv.grouped.batches _ a foundAgent f.entries batch e inside
    -- the entry is for the item itself, not for a chunk of it
    have same : k = i := by
      rcases reports with direct | ⟨j, h, indirect, -⟩
      · exact Callback.wrapped.inj (done.symm.trans direct)
      · cases done.symm.trans indirect
    subst same
    obtain rfl := Option.some.inj (found.symm.trans found')
    obtain ⟨l', mem', rfl⟩ := List.mem_map.mp known
    have sameAgent : l.owner.leg.agent = l'.owner.leg.agent := by
      rw [← node, item]
      exact (inv.group_nodes _ known e.item own).1
    obtain rfl := inv.leg_unique mem mem' (Option.some.inj (ctx.symm.trans ctx')) sameAgent
    exact ⟨returned, a, f, foundAgent, flush, holds⟩

omit [Snappy] in
theorem mem_deliver {action : ClusterAction RoutedEncodedTopicPartitionRecords} {l' : LegDone}
    (mem : l' ∈ r.deliver action) : ∃ l ∈ r.legs, l'.owner = l.owner ∧ l'.collected = l.collected ∧
      (l'.sent = l.sent ∨ l.sent = none ∧ ∃ i d it, .origDone i d ∈ r.run.tasks.flatten ∧
        r.run.buffer.items[i]? = some it ∧ it.ctx = some l.owner.ctx ∧
        it.item.nodeID = l.owner.leg.agent ∧ l'.sent = some d) := by
  unfold deliver at mem
  split at mem
  · split at mem
    · rename_i i d rest task
      split at mem
      · rename_i it found
        obtain ⟨l, inside, rfl⟩ := List.mem_map.mp mem
        refine ⟨l, inside, l.fire_owner it d, l.fire_collected it d, ?_⟩
        unfold LegDone.fire
        split
        · rename_i own
          refine Or.inr ⟨own.2.2, i, d, it, ?_, found, own.1, own.2.1, rfl⟩
          exact List.mem_flatten.mpr ⟨_, List.mem_of_getElem? task, List.mem_cons_self⟩
        · exact Or.inl rfl
      · exact ⟨l', mem, rfl, rfl, Or.inl rfl⟩
    · exact ⟨l', mem, rfl, rfl, Or.inl rfl⟩
  · exact ⟨l', mem, rfl, rfl, Or.inl rfl⟩

omit [Snappy] in
theorem deliver_owners {α : Type} (f : SentLeg → α)
    (action : ClusterAction RoutedEncodedTopicPartitionRecords) :
    ((r.deliver action).map fun l => f l.owner) = r.legs.map fun l => f l.owner := by
  unfold deliver
  split
  · split
    · split
      · simp [List.map_map, Function.comp_def]
      · rfl
    · rfl
  · rfl

/-- The buffer takes a step of its own. -/
theorem Inv.buffer (inv : Inv r) {action : ClusterAction RoutedEncodedTopicPartitionRecords}
    {run : ClusterRun RoutedEncodedTopicPartitionRecords} (internal : action.isInternal = true)
    (together : r.run.keepsTogether action = true) (stepped : r.run.step action = some run) :
    Inv { r with run := run, legs := r.deliver action } := by
  have steps := ClusterRun.steps_of_step stepped
  have records := ClusterAction.hasRecords_of_isInternal internal
  have groups : HedgeRun.groups { r with run := run, legs := r.deliver action } = r.groups :=
    deliver_owners SentLeg.group action
  constructor
  · exact ClusterRun.inv_step r.run action run inv.run records stepped
  · rw [groups]
    exact steps.grouped inv.grouped internal together (fun w max => rfl)
      (fun g mem w inside => (inv.group_nodes g mem w inside).1)
      (fun g mem w inside => (inv.group_nodes g mem w inside).2)
  · intro l' mem
    obtain ⟨l, inside, owner, -⟩ := mem_deliver mem
    rw [owner]
    exact inv.fresh l inside
  · exact (deliver_owners (fun s => (s.ctx, s.leg.agent)) action).symm ▸ inv.keys
  · intro l' mem
    obtain ⟨l, inside, owner, -⟩ := mem_deliver mem
    rw [owner]
    exact inv.own l inside
  · exact inv.records
  · exact inv.pending
  · intro l' mem d sent
    obtain ⟨l, inside, owner, -, kept | ⟨-, i, d', it, op, found, ctx, node, now⟩⟩ := mem_deliver mem
    · rw [owner]
      exact (inv.sent l inside d (kept ▸ sent)).mono steps.grows fun _ _ => steps.ctxErr_mono
    · obtain rfl := Option.some.inj (now.symm.trans sent)
      rw [owner]
      exact (inv.sentOk inside op found ctx node).mono steps.grows fun _ _ => steps.ctxErr_mono
  · intro l' mem read
    obtain ⟨l, inside, owner, same, kept | ⟨none, -⟩⟩ := mem_deliver mem
    · rw [owner, kept]
      exact inv.collected l inside (same ▸ read)
    · obtain ⟨d, -, sent, -⟩ := inv.collected l inside (same ▸ read)
      cases none.symm.trans sent

theorem Inv.begin (inv : Inv r) {cfg : HedgeConfig} {cascade : Cascade}
    (started : Cascade.start cfg = .ok cascade)
    (records : ∀ p ∈ cfg.partitions, 0 < p.encodedStats.records) : Inv (r.begin cfg cascade) := by
  have kept (q : Nat) (call : HedgeCall) (found : r.calls[q]? = some call) :
      (r.begin cfg cascade).calls[q]? = some call := by
    rw [HedgeRun.begin, List.getElem?_append_left (List.getElem?_eq_some_iff.mp found).1]
    exact found
  have new (call : HedgeCall) (mem : call ∈ (r.begin cfg cascade).calls) :
      call ∈ r.calls ∨ call = ⟨cfg, cascade, r.nextCtx, r.nextCtx⟩ := by
    simpa [HedgeRun.begin] using mem
  refine ⟨inv.run, inv.grouped, ?_, inv.keys, ?_, ?_, ?_, inv.sent, ?_⟩
  · intro l mem
    exact Nat.lt_succ_of_lt (inv.fresh l mem)
  · intro l mem
    obtain ⟨call, found, parts⟩ := inv.own l mem
    exact ⟨call, kept _ call found, parts⟩
  · intro call mem
    rcases new call mem with old | rfl
    · exact inv.records call old
    · exact records
  · intro call mem tp p found
    rcases new call mem with old | rfl
    · exact inv.pending call old tp p found
    · exact pending_of_start started found
  · intro l mem read
    obtain ⟨d, call, sent, found, done⟩ := inv.collected l mem read
    exact ⟨d, call, sent, kept _ call found, done⟩

omit [Snappy] in
/-- Changing the cascade of one call, which never adds to what is pending. -/
theorem callsLe_set {q : Nat} {call call' : HedgeCall} (found : r.calls[q]? = some call)
    (cfg : call'.cfg = call.cfg)
    (shrinks : ∀ tp p, call'.cascade.acc.pending.lookup tp = some p →
      call.cascade.acc.pending.lookup tp = some p) : CallsLe r.calls (r.calls.set q call') := by
  intro k other foundOther
  by_cases same : k = q
  · subst same
    obtain rfl := Option.some.inj (found.symm.trans foundOther)
    exact ⟨call', List.getElem?_set_self (List.getElem?_eq_some_iff.mp found).1, cfg, shrinks⟩
  · exact ⟨other, by rw [List.getElem?_set_ne (Ne.symm same)]; exact foundOther, rfl, fun _ _ h => h⟩

omit [Snappy] in
theorem mem_calls_set {q : Nat} {call call' other : HedgeCall} (found : r.calls[q]? = some call)
    (cfg : call'.cfg = call.cfg)
    (shrinks : ∀ tp p, call'.cascade.acc.pending.lookup tp = some p →
      call.cascade.acc.pending.lookup tp = some p) (mem : other ∈ r.calls.set q call') :
    ∃ old ∈ r.calls, other.cfg = old.cfg ∧ ∀ tp p, other.cascade.acc.pending.lookup tp = some p →
      old.cascade.acc.pending.lookup tp = some p := by
  rcases List.mem_or_eq_of_mem_set mem with old | rfl
  · exact ⟨other, old, rfl, fun _ _ h => h⟩
  · exact ⟨call, List.mem_of_getElem? found, cfg, shrinks⟩

omit [Snappy] in
theorem not_mem_pending_of_shrinks {a b : ProduceResultAccumulator} {tp : TopicPartition}
    (shrinks : ∀ p, b.pending.lookup tp = some p → a.pending.lookup tp = some p)
    (absent : tp ∉ a.pending) : tp ∉ b.pending := by
  intro mem
  obtain ⟨p, found⟩ := Option.isSome_iff_exists.mp (AList.lookup_isSome.mpr mem)
  exact absent (AList.lookup_isSome.mp (Option.isSome_iff_exists.mpr ⟨p, shrinks p found⟩))

/-- The cascade of a call changes and the buffer does not. -/
theorem Inv.setCall (inv : Inv r) {q : Nat} {call call' : HedgeCall}
    (found : r.calls[q]? = some call) (cfg : call'.cfg = call.cfg)
    (shrinks : ∀ tp p, call'.cascade.acc.pending.lookup tp = some p →
      call.cascade.acc.pending.lookup tp = some p) :
    Inv { r with calls := r.calls.set q call' } := by
  have le := callsLe_set found cfg shrinks
  refine ⟨inv.run, inv.grouped, inv.fresh, inv.keys, ?_, ?_, ?_, inv.sent, ?_⟩
  · intro l mem
    obtain ⟨old, foundOld, parts⟩ := inv.own l mem
    obtain ⟨new, foundNew, same, -⟩ := le _ old foundOld
    exact ⟨new, foundNew, same ▸ parts⟩
  · intro other mem
    obtain ⟨old, place, same, -⟩ := mem_calls_set found cfg shrinks mem
    rw [same]
    exact inv.records old place
  · intro other mem tp p waits
    obtain ⟨old, place, same, less⟩ := mem_calls_set found cfg shrinks mem
    rw [same]
    exact inv.pending old place tp p (less tp p waits)
  · intro l mem read
    obtain ⟨d, old, sent, foundOld, done⟩ := inv.collected l mem read
    obtain ⟨new, foundNew, -, less⟩ := le _ old foundOld
    exact ⟨d, new, sent, foundNew, fun tp acks => not_mem_pending_of_shrinks (less tp) (done tp acks)⟩

/-- A wave reads the result of one of its legs. -/
theorem Inv.collect (inv : Inv r) {q i : Nat} {call : HedgeCall} {leg : HedgeLeg} {l : LegDone}
    {d : Delivery} (found : r.calls[q]? = some call) (mem : l ∈ r.legs)
    (owner : l.owner = ⟨q, call.attemptCtx, leg⟩) (sent : l.sent = some d) :
    Inv (r.collect q call (call.cascade.receive i leg d.res) l.owner) := by
  have base : Inv (r.setCascade q call (call.cascade.receive i leg d.res)) :=
    inv.setCall found rfl fun tp p waits =>
      ProduceResultAccumulator.lookup_pending_of_accumulate ⟨leg.own, d.res⟩ waits
  have owners {α : Type} (f : SentLeg → α) :
      ((r.legs.map (LegDone.collect l.owner)).map fun l => f l.owner) =
        r.legs.map fun l => f l.owner := by
    simp [List.map_map, Function.comp_def]
  have groups : HedgeRun.groups (r.collect q call (call.cascade.receive i leg d.res) l.owner) =
      r.groups := owners SentLeg.group
  refine ⟨base.run, by rw [groups]; exact base.grouped, ?_, ?_, ?_, base.records, base.pending,
    ?_, ?_⟩
  · intro l' mem'
    obtain ⟨k, inside, rfl⟩ := List.mem_map.mp mem'
    rw [LegDone.collect_owner]
    exact inv.fresh k inside
  · exact (owners fun s => (s.ctx, s.leg.agent)).symm ▸ inv.keys
  · intro l' mem'
    obtain ⟨k, inside, rfl⟩ := List.mem_map.mp mem'
    rw [LegDone.collect_owner]
    exact base.own k inside
  · intro l' mem' d' sent'
    obtain ⟨k, inside, rfl⟩ := List.mem_map.mp mem'
    rw [LegDone.collect_sent] at sent'
    rw [LegDone.collect_owner]
    exact inv.sent k inside d' sent'
  · intro l' mem' read
    obtain ⟨k, inside, rfl⟩ := List.mem_map.mp mem'
    rw [LegDone.collect_owner, LegDone.collect_sent]
    by_cases same : k.owner = l.owner
    · obtain rfl := inv.leg_unique inside mem (by rw [same]) (by rw [same])
      refine ⟨d, { call with cascade := call.cascade.receive i leg d.res }, sent, ?_, fun tp acks => ?_⟩
      · rw [owner]
        exact List.getElem?_set_self (List.getElem?_eq_some_iff.mp found).1
      · rw [owner] at acks
        rw [← AList.lookup_eq_none]
        exact (ProduceResultAccumulator.lookup_pending_accumulate ⟨leg.own, d.res⟩ tp).1 acks
    · refine base.collected k inside ?_
      rwa [LegDone.collect, if_neg same] at read

/-- The partitions of a wave's legs are those of the call. -/
theorem Inv.parts_of_wave (inv : Inv r) {q : Nat} {call : HedgeCall}
    (found : r.calls[q]? = some call) {order : List EncodedTopicPartitionRecords}
    {tried : GoMap TopicPartition (List Int)} {chosen : List (Int × EncodedTopicPartitionRecords)}
    {legs : List HedgeLeg} (pending : call.cascade.acc.Remaining order)
    (picked : pickCandidates call.cfg call.cascade.tried order = .ok (tried, chosen))
    (grouped : legs.Perm (groupLegs chosen)) :
    ∀ leg ∈ legs, ∀ p ∈ leg.parts, p ∈ call.cfg.partitions := by
  intro leg mem p part
  obtain ⟨tp, waits⟩ := pending_of_wave pending picked grouped leg mem p part
  exact inv.pending call (List.mem_of_getElem? found) tp p waits

/-- A wave is sent. -/
theorem Inv.dispatch (inv : Inv r) {q : Nat} {call : HedgeCall} {cascade : Cascade}
    {legs : List HedgeLeg} (found : r.calls[q]? = some call)
    (same : cascade.acc = call.cascade.acc) (agents : (legs.map HedgeLeg.agent).Nodup)
    (parts : ∀ leg ∈ legs, ∀ p ∈ leg.parts, p ∈ call.cfg.partitions) :
    Inv (r.dispatch q call cascade legs) := by
  have base : Inv { r with
      calls := r.calls.set q { call with cascade := cascade, attemptCtx := r.nextCtx } } :=
    inv.setCall found rfl fun tp p waits => by rwa [same] at waits
  have place : (r.calls.set q { call with cascade := cascade, attemptCtx := r.nextCtx })[q]? =
      some { call with cascade := cascade, attemptCtx := r.nextCtx } :=
    List.getElem?_set_self (List.getElem?_eq_some_iff.mp found).1
  have positive (leg : HedgeLeg) (mem : leg ∈ legs) (w : RoutedEncodedTopicPartitionRecords)
      (inside : w ∈ leg.items) : 0 < recordCount w := by
    obtain ⟨p, part, rfl⟩ := HedgeLeg.mem_items.mp inside
    exact inv.records call (List.mem_of_getElem? found) p (parts leg mem p part)
  have only (op : Op RoutedEncodedTopicPartitionRecords) (mem : op ∈ [legs.map fun leg =>
      (.multiAdd (some r.nextCtx) leg.items [] : Op RoutedEncodedTopicPartitionRecords)].flatten) :
      ∃ leg ∈ legs, op = .multiAdd (some r.nextCtx) leg.items [] := by
    simpa [eq_comm] using mem
  have new (l : LegDone) (mem : l ∈ (r.dispatch q call cascade legs).legs) :
      l ∈ r.legs ∨ ∃ leg ∈ legs, l = { owner := ⟨q, r.nextCtx, leg⟩ } := by
    simpa [HedgeRun.dispatch, eq_comm] using mem
  refine ⟨?_, ?_, ?_, ?_, ?_, base.records, base.pending, ?_, ?_⟩
  · refine inv.run.spawn _ ?_ ?_ ?_
    · intro op mem
      obtain ⟨leg, -, rfl⟩ := only op mem
      rfl
    · intro op mem i d
      obtain ⟨leg, -, rfl⟩ := only op mem
      exact ⟨fun same => (by cases same), fun same => (by cases same)⟩
    · intro op mem
      obtain ⟨leg, inside, rfl⟩ := only op mem
      exact ⟨positive leg inside, fun p none => by cases none⟩
  · refine inv.grouped.grow (ClusterBuffer.Grows.refl _) ?_ ?_ ?_
    · intro g mem
      rw [groups, HedgeRun.dispatch, List.map_append]
      exact List.mem_append_left _ mem
    · intro op mem
      rw [HedgeRun.dispatch, ClusterRun.spawn, List.flatten_append] at mem
      refine (List.mem_append.mp mem).imp_right fun fresh => ?_
      obtain ⟨leg, inside, rfl⟩ := only op fresh
      refine ⟨SentLeg.group ⟨q, r.nextCtx, leg⟩, ?_, rfl, rfl, fun p none => by cases none⟩
      rw [groups, HedgeRun.dispatch, List.map_append, List.map_map]
      exact List.mem_append_right _ (List.mem_map_of_mem inside)
    · intro agent a foundAgent batch mem
      exact Or.inl ⟨a, foundAgent, mem⟩
  · intro l mem
    change l.owner.ctx < r.nextCtx + 1
    rcases new l mem with old | ⟨leg, -, rfl⟩
    · exact Nat.lt_succ_of_lt (inv.fresh l old)
    · exact Nat.lt_succ_self r.nextCtx
  · rw [HedgeRun.dispatch, List.map_append, List.map_map, List.nodup_append]
    refine ⟨inv.keys, ?_, ?_⟩
    · have pairs := agents.map (f := fun a : Int => (r.nextCtx, a)) fun a b eq => (Prod.mk.inj eq).2
      rwa [List.map_map] at pairs
    · intro key old key' fresh
      obtain ⟨l, inside, rfl⟩ := List.mem_map.mp old
      obtain ⟨leg, -, rfl⟩ := List.mem_map.mp fresh
      have below := inv.fresh l inside
      intro eq
      have sameCtx : l.owner.ctx = r.nextCtx := (Prod.mk.inj eq).1
      omega
  · intro l mem
    rcases new l mem with old | ⟨leg, inside, rfl⟩
    · exact base.own l old
    · exact ⟨_, place, parts leg inside⟩
  · intro l mem d sent
    rcases new l mem with old | ⟨leg, -, rfl⟩
    · exact inv.sent l old d sent
    · cases sent
  · intro l mem read
    rcases new l mem with old | ⟨leg, -, rfl⟩
    · exact base.collected l old read
    · cases read

theorem inv_step (r : HedgeRun) (action : HedgeAction) (r' : HedgeRun) (inv : Inv r)
    (records : action.HasRecords) (together : r.keepsTogether action = true)
    (stepped : r.step action = some r') : Inv r' := by
  cases steps_of_step stepped with
  | call cfg cascade started => exact inv.begin started records
  | dispatch q call order legs tried chosen found pending picked grouped =>
      refine inv.dispatch found rfl ?_ (inv.parts_of_wave found pending picked grouped)
      exact (grouped.map HedgeLeg.agent).nodup_iff.mpr (groupLegs_agents_nodup chosen)
  | stop action q call exhaustion unread found =>
      exact inv.setCall found rfl fun tp p waits => waits
  | legResult q i call leg l d found waits mem owner sent => exact inv.collect found mem owner sent
  | buffer action run internal moved => exact inv.buffer internal together moved

/-- Every run in which the groups of the legs stay together. -/
theorem inv_run {batchMaxBytes : Nat} {actions : List HedgeAction}
    (records : ∀ action ∈ actions, action.HasRecords)
    (together : Machine.along step keepsTogether (HedgeRun.init batchMaxBytes) actions = true)
    (runs : Machine.run step (HedgeRun.init batchMaxBytes) actions = some r) : Inv r :=
  Machine.invariant_along_of_mem HedgeAction.HasRecords Inv records together inv_step
    (inv_init batchMaxBytes) runs

/-- The flush has an entry for the leg's own part of a partition. -/
def CarriesOwn (r : HedgeRun) (agent index : Nat) (s : SentLeg) (tp : TopicPartition) : Prop :=
  ∃ a f e i it p, r.run.buffer.agentBuffers[agent]? = some a ∧ a.flushes[index]? = some f ∧
    e ∈ f.entries ∧ e.done = .wrapped i ∧ r.run.buffer.items[i]? = some it ∧
    it.ctx = some s.ctx ∧ p ∈ s.leg.parts ∧ p.topicPartition = tp ∧
    e.item = { p with nodeID := s.leg.agent }

omit [Snappy] in
theorem carriesOwn_of_holds {agent index : Nat} {s : SentLeg} {tp : TopicPartition}
    {a : AgentBuffer RoutedEncodedTopicPartitionRecords Callback}
    {f : Flush RoutedEncodedTopicPartitionRecords Callback}
    (found : r.run.buffer.agentBuffers[agent]? = some a) (flush : a.flushes[index]? = some f)
    (holds : r.run.buffer.Holds f.entries s.group) (own : tp ∈ s.leg.own) :
    r.CarriesOwn agent index s tp := by
  obtain ⟨p, part, rfl⟩ := List.mem_map.mp own
  obtain ⟨e, inside, item, i, it, done, foundItem, ctx, -, -⟩ :=
    holds _ (HedgeLeg.mem_items.mpr ⟨p, part, rfl⟩)
  exact ⟨a, f, e, i, it, p, found, flush, inside, done, foundItem, ctx, part, rfl, item⟩

/-- Per agent's buffer and flush, the callback and the partition of every entry. -/
def flushed (r : HedgeRun) : List (List (List (Callback × TopicPartition))) :=
  r.run.buffer.agentBuffers.map fun a => a.flushes.map fun f => f.entries.map fun e =>
    (e.done, e.item.topicPartition)

omit [Snappy] in
theorem CarriesOwn.mem_flushed {agent index : Nat} {s : SentLeg} {tp : TopicPartition}
    (carries : r.CarriesOwn agent index s tp) : ∃ flushes entries i,
      r.flushed[agent]? = some flushes ∧ flushes[index]? = some entries ∧
      (.wrapped i, tp) ∈ entries ∧ (r.run.buffer.items.map Item.ctx)[i]? = some (some s.ctx) := by
  obtain ⟨a, f, e, i, it, p, found, flush, inside, done, foundItem, ctx, -, rfl, item⟩ := carries
  let view := fun f : Flush RoutedEncodedTopicPartitionRecords Callback =>
    f.entries.map fun e => (e.done, e.item.topicPartition)
  refine ⟨a.flushes.map view, view f, i, ?_, ?_, ?_, ?_⟩
  · rw [flushed, List.getElem?_map, found]
    rfl
  · rw [List.getElem?_map, flush]
    rfl
  · exact List.mem_map.mpr ⟨e, inside, by rw [done, item]⟩
  · rw [List.getElem?_map, foundItem, Option.map_some, ctx]

/-- Every flush has returned, each time with a success for all of its partitions. -/
def allFlushesAcked (r : HedgeRun) : Bool :=
  r.flushed.zipIdx.all fun (flushes, agent) => flushes.zipIdx.all fun (entries, index) =>
    let results := r.run.buffer.returned.filter fun f => f.agent = agent && f.index = index
    !results.isEmpty && results.all fun f => f.res.succeeded &&
      entries.all fun e => f.res.resp.any fun resp => e.2 ∈ resp.entries.map Prod.fst

omit [Snappy] in
theorem CarriesOwn.acked {agent index : Nat} {s : SentLeg} {tp : TopicPartition}
    (carries : r.CarriesOwn agent index s tp) (acked : r.allFlushesAcked = true) :
    r.run.buffer.FlushReturned agent index ∧
      ∀ res, ⟨agent, index, res⟩ ∈ r.run.buffer.returned → res.succeeded = true ∧
        ∃ resp, res.resp = some resp ∧ tp ∈ resp.entries.map Prod.fst := by
  obtain ⟨flushes, entries, i, place, flush, inside, -⟩ := carries.mem_flushed
  have one := List.all_eq_true.mp (List.all_eq_true.mp acked _ (List.mk_mem_zipIdx_iff_getElem?.mpr
    place)) _ (List.mk_mem_zipIdx_iff_getElem?.mpr flush)
  simp only [Bool.and_eq_true, Bool.not_eq_true', List.isEmpty_eq_false_iff, List.all_eq_true,
    List.mem_filter, decide_eq_true_eq] at one
  obtain ⟨some_, each⟩ := one
  constructor
  · obtain ⟨f, mem⟩ := List.exists_mem_of_ne_nil _ some_
    simp only [List.mem_filter, Bool.and_eq_true, decide_eq_true_eq] at mem
    obtain ⟨returned, rfl, rfl⟩ := mem
    exact ⟨f.res, returned⟩
  · intro res returned
    obtain ⟨succeeded, covers⟩ := each _ ⟨returned, rfl, rfl⟩
    obtain ⟨resp, present, listed⟩ := (Option.any_eq_true _ _).mp (covers _ inside)
    exact ⟨succeeded, resp, present, of_decide_eq_true listed⟩

/-- A result with a response comes from a flush with all items of the leg. -/
theorem Inv.flush_of_resp (inv : Inv r) {l : LegDone} (mem : l ∈ r.legs) {d : Delivery}
    (sent : l.sent = some d) (resp : d.res.resp ≠ none) :
    ∃ agent index, d.cause = .flush agent index ∧ ⟨agent, index, d.res⟩ ∈ r.run.buffer.returned ∧
      ∀ tp ∈ l.owner.leg.own, r.CarriesOwn agent index l.owner tp := by
  have ok := inv.sent l mem d sent
  unfold SentOk at ok
  split at ok
  · obtain ⟨err, -, res⟩ := ok
    exact absurd (by rw [res]) resp
  · exact absurd (by rw [ok.2]) resp
  · rename_i agent index cause
    obtain ⟨returned, a, f, found, flush, holds⟩ := ok
    exact ⟨agent, index, cause, returned, fun tp own => carriesOwn_of_holds found flush holds own⟩

/-- Only reading a result resolves partitions. -/
theorem Steps.resolved {action : HedgeAction} (steps : Steps r action r') {q : Nat}
    {call call' : HedgeCall} (found : r.calls[q]? = some call) (found' : r'.calls[q]? = some call')
    {tp : TopicPartition} (now : tp ∈ call'.cascade.acc.resolved)
    (before : tp ∉ call.cascade.acc.resolved) :
    ∃ l ∈ r.legs, l.owner.call = q ∧ l.owner.ctx = call.attemptCtx ∧
      ∃ d, l.sent = some d ∧ LegResult.Acks ⟨l.owner.leg.own, d.res⟩ tp := by
  have unchanged (other : HedgeCall) (place : r.calls[q]? = some other)
      (same : call'.cascade.acc = other.cascade.acc) : False := by
    obtain rfl := Option.some.inj (found.symm.trans place)
    exact before (same ▸ now)
  have inside : q < r.calls.length := (List.getElem?_eq_some_iff.mp found).1
  -- a step that sets the cascade of one call
  have set (k : Nat) (old new : HedgeCall) (place : r.calls[k]? = some old)
      (eq : (r.calls.set k new)[q]? = some call') : (q = k ∧ call' = new) ∨ call' = call := by
    by_cases same : q = k
    · subst same
      rw [List.getElem?_set_self inside] at eq
      exact Or.inl ⟨rfl, (Option.some.inj eq).symm⟩
    · rw [List.getElem?_set_ne (Ne.symm same)] at eq
      exact Or.inr (Option.some.inj (eq.symm.trans found))
  cases steps with
  | call cfg cascade started =>
      rw [HedgeRun.begin, List.getElem?_append_left inside] at found'
      exact (unchanged call' found' rfl).elim
  | dispatch k old order legs tried chosen place pending picked grouped =>
      rcases set k old _ place found' with ⟨rfl, rfl⟩ | rfl
      · exact (unchanged old place rfl).elim
      · exact absurd now before
  | stop action k old exhaustion unread place =>
      rcases set k old _ place found' with ⟨rfl, rfl⟩ | rfl
      · exact (unchanged old place rfl).elim
      · exact absurd now before
  | legResult k i old leg l d place waits mem owner sent =>
      rcases set k old _ place found' with ⟨rfl, rfl⟩ | rfl
      · obtain rfl := Option.some.inj (found.symm.trans place)
        refine ⟨l, mem, by rw [owner], by rw [owner], d, sent, ?_⟩
        rw [owner]
        exact ProduceResultAccumulator.acks_of_resolved ⟨leg.own, d.res⟩ now before
      · exact absurd now before
  | buffer action run internal moved => exact (unchanged call' found' rfl).elim

end HedgeRun

/-- One record for a partition. Its bytes play no part while nothing is merged. -/
def oneRecord (partition : Int) : EncodedTopicPartitionRecords :=
  ⟨"t", partition, [], { records := 1, uncompressedBytes := 40 }⟩

/-- A call whose partitions have one fallback agent. -/
def oneFallback (partitions : List Int) : HedgeConfig :=
  ⟨2, 0, fun _ => [{ nodeID := 1 }], partitions.map oneRecord⟩

def allAcked (partitions : List Int) : ProduceResult :=
  { resp := some { topics := [{ topic := "t", partitions := partitions.map fun p => ⟨p, 0⟩ }] } }

/-- The next operations of a goroutine, none of which chooses anything. -/
def runTask (task n : Nat) : List HedgeAction := List.replicate n (.buffer (.run task {}))

/-- The wave of a call adds its only group to the hedge buffer. -/
def addGroup (call task firstItem : Nat) (partitions : List Int) : List HedgeAction :=
  let parts := partitions.map oneRecord
  let group : List (Promised RoutedEncodedTopicPartitionRecords Callback) :=
    parts.mapIdx fun i p => ⟨{ p with nodeID := 1 }, .wrapped (firstItem + i)⟩
  .wave call parts [⟨1, parts⟩] :: runTask task (partitions.length + 1) ++
    .buffer (.run task { bins := [(1, group)] }) :: runTask task 2

/-- A flush of `n` items is acknowledged and reports to them. -/
def ackFlush (task n : Nat) (partitions : List Int) : List HedgeAction :=
  .buffer (.run task { res := allAcked partitions }) :: runTask task (3 * n)

/-- One call with partitions 1 and 2, another with one partition whose item is pending when
the group of the first is added. -/
def twoGroups (other : Int) : List HedgeAction :=
  .call (oneFallback [1, 2]) :: .call (oneFallback [other]) :: addGroup 1 0 0 [other] ++
    addGroup 0 1 1 [1, 2]

/-- The item for partition 1 fills the batch, so the flush that returns here started before
the item for partition 2 was added. -/
def splitGroup (other : Int) : List HedgeAction := twoGroups other ++ ackFlush 2 2 [other, 1]

/-- The batch has room for all three items, and one flush carries both groups whole. -/
def sharedFlush (other : Int) : List HedgeAction :=
  twoGroups other ++ .buffer (.timerFlush 0) :: ackFlush 2 3 [other, 1, 2]

theorem hasRecords_sharedFlush (other : Int) : ∀ action ∈ sharedFlush other, action.HasRecords := by
  simp [sharedFlush, twoGroups, addGroup, ackFlush, runTask, HedgeAction.HasRecords, oneFallback,
    oneRecord]

/-- In every run of concurrent cascades in which no flush of the hedge buffer starts between
two items of a leg's group, whenever a step marks a partition of a call as resolved, it
does so from the result of a flush that carried the call's own item for the partition. -/
theorem hedge_credit_only_for_own_items [Snappy] {batchMaxBytes : Nat} {actions : List HedgeAction}
    {r : HedgeRun} (records : ∀ action ∈ actions, action.HasRecords)
    (together : Machine.along HedgeRun.step HedgeRun.keepsTogether (HedgeRun.init batchMaxBytes)
      actions = true)
    (runs : Machine.run HedgeRun.step (HedgeRun.init batchMaxBytes) actions = some r)
    {action : HedgeAction} {r' : HedgeRun} (stepped : r.step action = some r') {q : Nat}
    {call call' : HedgeCall} (found : r.calls[q]? = some call) (found' : r'.calls[q]? = some call')
    {tp : TopicPartition} (now : tp ∈ call'.cascade.acc.resolved)
    (before : tp ∉ call.cascade.acc.resolved) :
    ∃ l ∈ r.legs, l.owner.call = q ∧ l.owner.ctx = call.attemptCtx ∧
      (∀ p ∈ l.owner.leg.parts, p ∈ call.cfg.partitions) ∧
      ∃ d agent index, l.sent = some d ∧ d.cause = .flush agent index ∧
        ⟨agent, index, d.res⟩ ∈ r.run.buffer.returned ∧ r.CarriesOwn agent index l.owner tp := by
  have inv := HedgeRun.inv_run records together runs
  obtain ⟨l, mem, caller, ctx, d, sent, acks⟩ :=
    (HedgeRun.steps_of_step stepped).resolved found found' now before
  obtain ⟨resp, -, present, -⟩ := acks.entry
  obtain ⟨agent, index, cause, returned, own⟩ :=
    inv.flush_of_resp mem sent (by rw [present]; exact Option.some_ne_none resp)
  obtain ⟨owner, place, parts⟩ := inv.own l mem
  rw [caller] at place
  obtain rfl := Option.some.inj (found.symm.trans place)
  exact ⟨l, mem, caller, ctx, parts, d, agent, index, sent, cause, returned, own tp acks.own⟩

theorem hedge_credit_only_for_own_items_shared :
    letI := Snappy.stored
    ∃ r r', Machine.run HedgeRun.step (HedgeRun.init 1000) (sharedFlush 3) = some r ∧
      r.step (.legResult 0 0) = some r' ∧
      r.flushed = [[[(.wrapped 0, ⟨"t", 3⟩), (.wrapped 1, ⟨"t", 1⟩), (.wrapped 2, ⟨"t", 2⟩)]]] ∧
      ∀ tp ∈ [(⟨"t", 2⟩ : TopicPartition), ⟨"t", 1⟩], ∃ l ∈ r.legs, l.owner.call = 0 ∧
        ∃ agent index, r.CarriesOwn agent index l.owner tp := by
  let _ := Snappy.stored
  have state : ((Machine.run HedgeRun.step (HedgeRun.init 1000) (sharedFlush 3)).bind fun r =>
      (r.step (.legResult 0 0)).map fun r' =>
        (r.flushed, r.calls.map fun c => c.cascade.acc.resolved.keys,
          r'.calls.map fun c => c.cascade.acc.resolved.keys)) =
      some ([[[(.wrapped 0, ⟨"t", 3⟩), (.wrapped 1, ⟨"t", 1⟩), (.wrapped 2, ⟨"t", 2⟩)]]],
        [[], []], [[⟨"t", 2⟩, ⟨"t", 1⟩], []]) := by
    decide
  obtain ⟨r, runs, rest⟩ := Option.bind_eq_some_iff.mp state
  obtain ⟨r', stepped, eq⟩ := Option.map_eq_some_iff.mp rest
  obtain ⟨flushed, eq⟩ := Prod.mk.inj eq
  obtain ⟨before, after⟩ := Prod.mk.inj eq
  obtain ⟨call, others, calls, keys, -⟩ := List.map_eq_cons_iff.mp before
  obtain ⟨call', others', calls', keys', -⟩ := List.map_eq_cons_iff.mp after
  have found : r.calls[0]? = some call := by rw [calls]; rfl
  have found' : r'.calls[0]? = some call' := by rw [calls']; rfl
  refine ⟨r, r', runs, stepped, flushed, fun tp mem => ?_⟩
  have now : tp ∈ call'.cascade.acc.resolved := by
    rwa [AList.mem_keys, keys']
  have fresh : tp ∉ call.cascade.acc.resolved := by
    rw [AList.mem_keys, keys]
    exact List.not_mem_nil
  obtain ⟨l, leg, caller, -, -, d, agent, index, -, -, -, carries⟩ :=
    hedge_credit_only_for_own_items (hasRecords_sharedFlush 3) (by decide) runs stepped found found'
      now fresh
  exact ⟨l, leg, caller, agent, index, carries⟩

/-- The flush carries another call's item for partition 2, so its acknowledgement resolves
partition 2 of a call whose own item is not in it. -/
theorem hedge_credit_for_unsent_item :
    letI := Snappy.stored
    ∃ r r' call call', Machine.run HedgeRun.step (HedgeRun.init 210) (splitGroup 2) = some r ∧
      r.step (.legResult 0 0) = some r' ∧ r.calls[0]? = some call ∧ r'.calls[0]? = some call' ∧
      (⟨"t", 2⟩ : TopicPartition) ∈ call'.cascade.acc.resolved ∧
      (⟨"t", 2⟩ : TopicPartition) ∉ call.cascade.acc.resolved ∧
      ¬ ∃ l ∈ r.legs, l.owner.call = 0 ∧ ∃ d agent index, l.sent = some d ∧
        d.cause = .flush agent index ∧ r.CarriesOwn agent index l.owner ⟨"t", 2⟩ := by
  let _ := Snappy.stored
  have state : ((Machine.run HedgeRun.step (HedgeRun.init 210) (splitGroup 2)).bind fun r =>
      (r.step (.legResult 0 0)).map fun r' =>
        (r.calls[0]?.map fun c => c.cascade.acc.resolved.keys,
          r'.calls[0]?.map fun c => c.cascade.acc.resolved.keys)) =
      some (some [], some [⟨"t", 1⟩, ⟨"t", 2⟩]) := by
    decide
  have legs : (Machine.run HedgeRun.step (HedgeRun.init 210) (splitGroup 2)).map (fun r =>
      r.legs.map fun l => (l.owner.call, l.owner.ctx, l.sent.map Delivery.cause)) =
      some [(1, 2, some (.flush 0 0)), (0, 3, some (.flush 0 0))] := by
    decide
  have sent : (Machine.run HedgeRun.step (HedgeRun.init 210) (splitGroup 2)).map (fun r =>
      (r.flushed, r.run.buffer.items.map Item.ctx)) =
      some ([[[(.wrapped 0, ⟨"t", 2⟩), (.wrapped 1, ⟨"t", 1⟩)]]], [some 2, some 3, some 3]) := by
    decide
  obtain ⟨r, runs, rest⟩ := Option.bind_eq_some_iff.mp state
  obtain ⟨r', stepped, eq⟩ := Option.map_eq_some_iff.mp rest
  obtain ⟨before, after⟩ := Prod.mk.inj eq
  rw [runs] at legs sent
  simp only [Option.map_some, Option.some.injEq] at legs
  obtain ⟨flushed, items⟩ := Prod.mk.inj (Option.some.inj sent)
  obtain ⟨call, found, keys⟩ := Option.map_eq_some_iff.mp before
  obtain ⟨call', found', keys'⟩ := Option.map_eq_some_iff.mp after
  refine ⟨r, r', call, call', runs, stepped, found, found', ?_, ?_, ?_⟩
  · rw [AList.mem_keys, keys']
    decide
  · rw [AList.mem_keys, keys]
    exact List.not_mem_nil
  · rintro ⟨l, mem, caller, d, agent, index, sent, cause, carries⟩
    have view := List.mem_map_of_mem (f := fun l : LegDone =>
      (l.owner.call, l.owner.ctx, l.sent.map Delivery.cause)) mem
    rw [legs, caller, sent, Option.map_some, cause] at view
    obtain ⟨flushes, entries, i, place, flush, entry, ctx⟩ := carries.mem_flushed
    simp only [List.mem_cons, Prod.mk.injEq, zero_ne_one, false_and, true_and, Option.some.injEq,
      Cause.flush.injEq, List.not_mem_nil, or_false, false_or] at view
    obtain ⟨owner, rfl, rfl⟩ := view
    rw [flushed] at place
    obtain rfl := Option.some.inj place
    obtain rfl := Option.some.inj flush
    simp only [List.mem_cons, Prod.mk.injEq, Callback.wrapped.injEq, TopicPartition.mk.injEq,
      List.not_mem_nil, or_false] at entry
    obtain ⟨rfl, -⟩ | ⟨-, -, impossible⟩ := entry
    · rw [items, owner] at ctx
      simp at ctx
    · omega

/-- In the same runs, once a wave has read the result of a leg whose context has not ended,
in a buffer that is not closed, none of the leg's partitions is pending if every flush that
carried one of its items returned a successful response with the item's partition. -/
theorem hedge_acks_of_leg_not_lost [Snappy] {batchMaxBytes : Nat} {actions : List HedgeAction}
    {r : HedgeRun} (records : ∀ action ∈ actions, action.HasRecords)
    (together : Machine.along HedgeRun.step HedgeRun.keepsTogether (HedgeRun.init batchMaxBytes)
      actions = true)
    (runs : Machine.run HedgeRun.step (HedgeRun.init batchMaxBytes) actions = some r)
    {l : LegDone} (mem : l ∈ r.legs) (collected : l.collected = true)
    (running : r.run.ctxErr l.owner.ctx = none) (isOpen : r.run.buffer.closed = false)
    (acked : ∀ agent index, ∀ tp ∈ l.owner.leg.own, r.CarriesOwn agent index l.owner tp →
      r.run.buffer.FlushReturned agent index ∧
      ∀ res, ⟨agent, index, res⟩ ∈ r.run.buffer.returned → res.succeeded = true ∧
        ∃ resp, res.resp = some resp ∧ tp ∈ resp.entries.map Prod.fst) :
    ∃ call, r.calls[l.owner.call]? = some call ∧
      ∀ tp ∈ l.owner.leg.own, tp ∉ call.cascade.acc.pending := by
  have inv := HedgeRun.inv_run records together runs
  obtain ⟨d, call, sent, found, done⟩ := inv.collected l mem collected
  refine ⟨call, found, fun tp own => done tp ?_⟩
  have ok := inv.sent l mem d sent
  unfold HedgeRun.SentOk at ok
  split at ok
  · obtain ⟨err, ended, -⟩ := ok
    cases running.symm.trans ended
  · cases isOpen.symm.trans ok.1
  · rename_i agent index cause
    obtain ⟨returned, a, f, foundAgent, flush, holds⟩ := ok
    obtain ⟨succeeded, resp, present, listed⟩ :=
      (acked agent index tp own (HedgeRun.carriesOwn_of_holds foundAgent flush holds own)).2 d.res
        returned
    obtain ⟨noErr, resp', present', zero⟩ := ProduceResult.succeeded_iff.mp succeeded
    obtain rfl := Option.some.inj (present.symm.trans present')
    obtain ⟨⟨_, e⟩, entry, rfl⟩ := List.mem_map.mp listed
    have accepted : (LegResult.scoped ⟨l.owner.leg.own, d.res⟩).err = none :=
      scope_err_eq_none.mpr ⟨noErr, resp, present, fun e inside _ => zero e inside⟩
    exact ⟨accepted, own, resp, e, present, entry, zero _ entry⟩

theorem hedge_acks_of_leg_not_lost_shared :
    letI := Snappy.stored
    ∃ r l call, Machine.run HedgeRun.step (HedgeRun.init 1000)
        (sharedFlush 3 ++ [.legResult 0 0]) = some r ∧
      r.flushed = [[[(.wrapped 0, ⟨"t", 3⟩), (.wrapped 1, ⟨"t", 1⟩), (.wrapped 2, ⟨"t", 2⟩)]]] ∧
      l ∈ r.legs ∧ l.owner.leg.own = [⟨"t", 1⟩, ⟨"t", 2⟩] ∧ l.collected = true ∧
      r.calls[l.owner.call]? = some call ∧
      ∀ tp ∈ l.owner.leg.own, tp ∉ call.cascade.acc.pending := by
  let _ := Snappy.stored
  have state : ((Machine.run HedgeRun.step (HedgeRun.init 1000)
      (sharedFlush 3 ++ [.legResult 0 0])).bind fun r => r.legs[1]?.map fun l =>
        ((l.collected, r.run.ctxErr l.owner.ctx, r.run.buffer.closed, r.allFlushesAcked),
          l.owner.leg.own)) =
      some ((true, none, false, true), [⟨"t", 1⟩, ⟨"t", 2⟩]) := by
    decide
  have sent : (Machine.run HedgeRun.step (HedgeRun.init 1000)
      (sharedFlush 3 ++ [.legResult 0 0])).map HedgeRun.flushed =
      some [[[(.wrapped 0, ⟨"t", 3⟩), (.wrapped 1, ⟨"t", 1⟩), (.wrapped 2, ⟨"t", 2⟩)]]] := by
    decide
  obtain ⟨r, runs, rest⟩ := Option.bind_eq_some_iff.mp state
  obtain ⟨l, leg, eq⟩ := Option.map_eq_some_iff.mp rest
  obtain ⟨flags, own⟩ := Prod.mk.inj eq
  obtain ⟨collected, flags⟩ := Prod.mk.inj flags
  obtain ⟨running, flags⟩ := Prod.mk.inj flags
  obtain ⟨isOpen, acked⟩ := Prod.mk.inj flags
  rw [runs] at sent
  have flushed := Option.some.inj sent
  have records : ∀ action ∈ sharedFlush 3 ++ [.legResult 0 0], action.HasRecords := by
    intro action mem
    rcases List.mem_append.mp mem with here | last
    · exact hasRecords_sharedFlush 3 action here
    · rw [List.mem_singleton.mp last]
      trivial
  have mem := List.mem_of_getElem? leg
  obtain ⟨call, found, done⟩ :=
    hedge_acks_of_leg_not_lost records (by decide) runs mem collected running isOpen
      fun agent index tp _ carries => carries.acked acked
  exact ⟨r, l, call, runs, flushed, mem, own, collected, found, done⟩

/-- The group is spread over two flushes. Both are acknowledged, but the wave reads only the
result of the first. -/
theorem hedge_ack_lost_by_split_group :
    letI := Snappy.stored
    ∃ r l call, Machine.run HedgeRun.step (HedgeRun.init 210)
        (splitGroup 3 ++ .buffer (.timerFlush 0) :: ackFlush 3 1 [2] ++ [.legResult 0 0]) =
          some r ∧
      l ∈ r.legs ∧ l.collected = true ∧ r.run.ctxErr l.owner.ctx = none ∧
      r.run.buffer.closed = false ∧
      (∀ agent index, ∀ tp ∈ l.owner.leg.own, r.CarriesOwn agent index l.owner tp →
        r.run.buffer.FlushReturned agent index ∧
        ∀ res, ⟨agent, index, res⟩ ∈ r.run.buffer.returned → res.succeeded = true ∧
          ∃ resp, res.resp = some resp ∧ tp ∈ resp.entries.map Prod.fst) ∧
      r.calls[l.owner.call]? = some call ∧
      ∃ tp ∈ l.owner.leg.own, tp ∈ call.cascade.acc.pending := by
  let _ := Snappy.stored
  have state : ((Machine.run HedgeRun.step (HedgeRun.init 210)
      (splitGroup 3 ++ .buffer (.timerFlush 0) :: ackFlush 3 1 [2] ++
        [.legResult 0 0])).bind fun r =>
      r.legs[1]?.bind fun l => r.calls[l.owner.call]?.map fun call =>
        ((l.collected, r.run.ctxErr l.owner.ctx, r.run.buffer.closed, r.allFlushesAcked),
          l.owner.leg.own, call.cascade.acc.pending.keys)) =
      some ((true, none, false, true), [⟨"t", 1⟩, ⟨"t", 2⟩], [⟨"t", 2⟩]) := by
    decide
  obtain ⟨r, runs, rest⟩ := Option.bind_eq_some_iff.mp state
  obtain ⟨l, leg, rest⟩ := Option.bind_eq_some_iff.mp rest
  obtain ⟨call, found, eq⟩ := Option.map_eq_some_iff.mp rest
  obtain ⟨flags, parts⟩ := Prod.mk.inj eq
  obtain ⟨collected, flags⟩ := Prod.mk.inj flags
  obtain ⟨running, flags⟩ := Prod.mk.inj flags
  obtain ⟨isOpen, acked⟩ := Prod.mk.inj flags
  obtain ⟨own, pending⟩ := Prod.mk.inj parts
  refine ⟨r, l, call, runs, List.mem_of_getElem? leg, collected, running, isOpen,
    fun agent index tp _ carries => carries.acked acked, found, ⟨"t", 2⟩, ?_, ?_⟩
  · rw [own]
    decide
  · rw [AList.mem_keys, pending]
    exact List.mem_cons_self

end Warpstream
