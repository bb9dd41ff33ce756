import Warpstream.Demoter
import Warpstream.RouteRecords

set_option autoImplicit false

/- `routeRecords` as a program that asks its strategy: the answers may change from one lookup
to the next, and other goroutines may work on the strategy meanwhile. -/
namespace Warpstream

/-- The state of the loop. `refreshes` counts the calls of `triggerRefresh`. -/
structure RouteLoop where
  routing : Routing := {}
  refreshes : Nat := 0

/-- One lookup: its partition, what it performed, and the answer. -/
structure LookupRun (Op : Type) (Ret : Op → Type) where
  tp : TopicPartition
  trace : List ((o : Op) × Ret o)
  answer : List Agent × RouteOutcome

section Loop

variable {Op : Type} {Ret : Op → Type}
  (lookup : TopicPartition → Program Op Ret (List Agent × RouteOutcome)) (heap : RecordHeap)

/-- A record whose partition is new, with the answer of its lookup. -/
def RouteLoop.place (s : RouteLoop) (r : RecordPtr) : List Agent × RouteOutcome → RouteLoop
  | ([], outcome) =>
      let key := (heap r).topicPartition
      { routing :=
          { s.routing with
            rejected := s.routing.rejected ++ [⟨key, [r], noAgentAssigned key, outcome⟩]
            lookups := s.routing.lookups ++ [key] }
        -- the map of the rejected partitions is made for the first of them
        refreshes := if s.routing.rejected = [] then s.refreshes + 1 else s.refreshes }
  | (agent :: _, outcome) =>
      let key := (heap r).topicPartition
      { s with
        routing :=
          { s.routing with
            groups := s.routing.groups ++ [⟨key, [r], agent, outcome⟩]
            lookups := s.routing.lookups ++ [key] } }

def RouteLoop.add (s : RouteLoop) (r : RecordPtr) : Program Op Ret RouteLoop :=
  let key := (heap r).topicPartition
  if key ∈ s.routing.groups.map (·.tp) then
    pure { s with routing := { s.routing with groups := appendRecord key r s.routing.groups } }
  else if key ∈ s.routing.rejected.map (·.tp) then
    pure { s with routing := { s.routing with rejected := appendRecord key r s.routing.rejected } }
  else do
    let answer ← lookup key
    pure (s.place heap r answer)

def routeRecordsWith (records : List RecordPtr) : Program Op Ret RouteLoop :=
  records.foldlM (RouteLoop.add lookup heap) {}

end Loop

section Answers

variable {Op : Type} {Ret : Op → Type} {heap : RecordHeap}

/-- With one answer for each partition the loop is that of `routeRecords`. -/
theorem add_pure (candidatesWithRoute : TopicPartition → List Agent × RouteOutcome)
    (s : RouteLoop) (r : RecordPtr) :
    ∃ n, s.add (fun tp => (pure (candidatesWithRoute tp) : Program Op Ret _)) heap r =
      pure { routing := s.routing.add candidatesWithRoute heap r, refreshes := n } := by
  unfold RouteLoop.add Routing.add
  dsimp only
  split
  · exact ⟨s.refreshes, rfl⟩
  · split
    · exact ⟨s.refreshes, rfl⟩
    · cases answer : candidatesWithRoute (heap r).topicPartition with
      | mk agents outcome =>
          cases agents with
          | nil => exact ⟨_, rfl⟩
          | cons agent others => exact ⟨_, rfl⟩

theorem routeRecordsWith_pure (candidatesWithRoute : TopicPartition → List Agent × RouteOutcome)
    (records : List RecordPtr) :
    ∃ n, routeRecordsWith (fun tp => (pure (candidatesWithRoute tp) : Program Op Ret _)) heap
        records =
      pure { routing := routeRecords candidatesWithRoute heap records, refreshes := n } := by
  have loop (s : RouteLoop) :
      ∃ n, records.foldlM
          (RouteLoop.add (fun tp => (pure (candidatesWithRoute tp) : Program Op Ret _)) heap) s =
        pure
          { routing := records.foldl (Routing.add candidatesWithRoute heap) s.routing
            refreshes := n } := by
    induction records generalizing s with
    | nil => exact ⟨s.refreshes, rfl⟩
    | cons r rest ih =>
        obtain ⟨n, first⟩ := @add_pure Op Ret heap candidatesWithRoute s r
        obtain ⟨m, later⟩ := ih { routing := s.routing.add candidatesWithRoute heap r, refreshes := n }
        refine ⟨m, ?_⟩
        rw [List.foldlM_cons, first]
        exact later
  exact loop {}

end Answers

/-- What the loop has made of `records` with the lookups `runs`. -/
structure RouteLoop.Stable {Op : Type} {Ret : Op → Type} (heap : RecordHeap)
    (records : List RecordPtr) (runs : List (LookupRun Op Ret)) (s : RouteLoop) : Prop where
  asked : runs.map (·.tp) = (records.map fun r => (heap r).topicPartition).eraseDups
  accepted : s.routing.groups.map (·.tp) = (runs.filter fun run => run.answer.1 ≠ []).map (·.tp)
  rejected : s.routing.rejected.map (·.tp) = (runs.filter fun run => run.answer.1 = []).map (·.tp)
  acceptedRecords : ∀ g ∈ s.routing.groups,
    g.records = records.filter fun r => (heap r).topicPartition = g.tp
  rejectedRecords : ∀ g ∈ s.routing.rejected,
    g.records = records.filter fun r => (heap r).topicPartition = g.tp
  refreshes : s.refreshes = if s.routing.rejected = [] then 0 else 1

section Stable

variable {Op : Type} {Ret : Op → Type} {heap : RecordHeap} {records : List RecordPtr}
  {runs : List (LookupRun Op Ret)} {s : RouteLoop}

/-- Appending a record extends the group of its partition and no other. -/
theorem records_appendRecord {β : Type} {groups : List (PartitionGroup β)} (r : RecordPtr)
    (ordered : ∀ g ∈ groups, g.records = records.filter fun r => (heap r).topicPartition = g.tp) :
    ∀ g ∈ appendRecord (heap r).topicPartition r groups,
      g.records = (records ++ [r]).filter fun r => (heap r).topicPartition = g.tp := by
  intro g mem
  obtain ⟨old, inside, tp, -, ⟨other, kept⟩ | ⟨here, grown⟩⟩ := mem_appendRecord mem
  · rw [kept, ordered old inside, List.filter_append, ← tp]
    simp [Ne.symm other]
  · rw [grown, ordered old inside, List.filter_append, ← tp]
    simp [here]

/-- A group that the record does not belong to is as it was. -/
theorem records_other {β : Type} {groups : List (PartitionGroup β)} {r : RecordPtr}
    (ordered : ∀ g ∈ groups, g.records = records.filter fun r => (heap r).topicPartition = g.tp)
    (absent : (heap r).topicPartition ∉ groups.map (·.tp)) :
    ∀ g ∈ groups,
      g.records = (records ++ [r]).filter fun r => (heap r).topicPartition = g.tp := by
  intro g mem
  have other : (heap r).topicPartition ≠ g.tp := by
    intro same
    exact absent (same ▸ List.mem_map_of_mem mem)
  rw [ordered g mem, List.filter_append]
  simp [other]

namespace RouteLoop.Stable

theorem nodup (stable : s.Stable heap records runs) : (runs.map (·.tp)).Nodup := by
  rw [stable.asked, ← FirstSeen.keys_groupBy]
  exact (FirstSeen.groups_groupBy _ records).nodup

/-- The partitions of the groups are those that were asked for. -/
theorem mem_asked (stable : s.Stable heap records runs) (tp : TopicPartition) :
    tp ∈ runs.map (·.tp) ↔
      tp ∈ s.routing.groups.map (·.tp) ∨ tp ∈ s.routing.rejected.map (·.tp) := by
  rw [stable.accepted, stable.rejected]
  simp only [List.mem_map, List.mem_filter, decide_eq_true_eq]
  constructor
  · rintro ⟨run, mem, rfl⟩
    by_cases none : run.answer.1 = []
    · exact Or.inr ⟨run, ⟨mem, none⟩, rfl⟩
    · exact Or.inl ⟨run, ⟨mem, none⟩, rfl⟩
  · rintro (⟨run, ⟨mem, -⟩, rfl⟩ | ⟨run, ⟨mem, -⟩, rfl⟩)
    · exact ⟨run, mem, rfl⟩
    · exact ⟨run, mem, rfl⟩

theorem apart (stable : s.Stable heap records runs) {tp : TopicPartition}
    (accepted : tp ∈ s.routing.groups.map (·.tp)) : tp ∉ s.routing.rejected.map (·.tp) := by
  intro rejected
  rw [stable.accepted, List.mem_map] at accepted
  rw [stable.rejected, List.mem_map] at rejected
  obtain ⟨run, mem, rfl⟩ := accepted
  obtain ⟨other, mem', same⟩ := rejected
  rw [List.mem_filter, decide_eq_true_eq] at mem mem'
  obtain rfl := List.inj_on_of_nodup_map stable.nodup mem'.1 mem.1 same
  exact mem.2 mem'.2

/-- A record of a known partition asks nothing. -/
theorem asked_known (stable : s.Stable heap records runs) {r : RecordPtr}
    (known : (heap r).topicPartition ∈ runs.map (·.tp)) :
    runs.map (·.tp) = ((records ++ [r]).map fun r => (heap r).topicPartition).eraseDups := by
  rw [stable.asked, List.mem_eraseDups] at known
  rw [List.map_append, List.map_singleton, FirstSeen.eraseDups_concat, if_pos known, stable.asked]

theorem appendAccepted (stable : s.Stable heap records runs) {r : RecordPtr}
    (known : (heap r).topicPartition ∈ s.routing.groups.map (·.tp)) :
    RouteLoop.Stable heap (records ++ [r]) runs
      { s with
        routing :=
          { s.routing with
            groups := appendRecord (heap r).topicPartition r s.routing.groups } } where
  asked := stable.asked_known ((stable.mem_asked _).mpr (Or.inl known))
  accepted := (map_tp_appendRecord _ _ _).trans stable.accepted
  rejected := stable.rejected
  acceptedRecords := records_appendRecord r stable.acceptedRecords
  rejectedRecords := records_other stable.rejectedRecords (stable.apart known)
  refreshes := stable.refreshes

theorem appendRejected (stable : s.Stable heap records runs) {r : RecordPtr}
    (other : (heap r).topicPartition ∉ s.routing.groups.map (·.tp))
    (known : (heap r).topicPartition ∈ s.routing.rejected.map (·.tp)) :
    RouteLoop.Stable heap (records ++ [r]) runs
      { s with
        routing :=
          { s.routing with
            rejected := appendRecord (heap r).topicPartition r s.routing.rejected } } where
  asked := stable.asked_known ((stable.mem_asked _).mpr (Or.inr known))
  accepted := stable.accepted
  rejected := (map_tp_appendRecord _ _ _).trans stable.rejected
  acceptedRecords := records_other stable.acceptedRecords other
  rejectedRecords := records_appendRecord r stable.rejectedRecords
  refreshes := by
    have same : appendRecord (heap r).topicPartition r s.routing.rejected = [] ↔
        s.routing.rejected = [] := List.map_eq_nil_iff
    simp only [same, stable.refreshes]

theorem place (stable : s.Stable heap records runs) {r : RecordPtr}
    (notAccepted : (heap r).topicPartition ∉ s.routing.groups.map (·.tp))
    (notRejected : (heap r).topicPartition ∉ s.routing.rejected.map (·.tp))
    (trace : List ((o : Op) × Ret o)) (answer : List Agent × RouteOutcome) :
    (s.place heap r answer).Stable heap (records ++ [r])
      (runs ++ [⟨(heap r).topicPartition, trace, answer⟩]) := by
  have fresh : (heap r).topicPartition ∉ runs.map (·.tp) := by
    rw [stable.mem_asked]
    exact not_or.mpr ⟨notAccepted, notRejected⟩
  have unseen : (heap r).topicPartition ∉ records.map fun r => (heap r).topicPartition := by
    rwa [stable.asked, List.mem_eraseDups] at fresh
  have asked : List.map LookupRun.tp (runs ++ [⟨(heap r).topicPartition, trace, answer⟩]) =
      ((records ++ [r]).map fun r => (heap r).topicPartition).eraseDups := by
    rw [List.map_append, List.map_append, List.map_singleton, List.map_singleton,
      FirstSeen.eraseDups_concat, if_neg unseen, stable.asked]
  have alone : [r] = (records ++ [r]).filter
      fun q => (heap q).topicPartition = (heap r).topicPartition := by
    have none : records.filter (fun q => (heap q).topicPartition = (heap r).topicPartition) = [] := by
      rw [List.filter_eq_nil_iff]
      intro q mem same
      exact unseen (List.mem_map.mpr ⟨q, mem, of_decide_eq_true same⟩)
    rw [List.filter_append, none]
    simp
  have acceptedRecords := records_other stable.acceptedRecords notAccepted
  have rejectedRecords := records_other stable.rejectedRecords notRejected
  obtain ⟨agents, outcome⟩ := answer
  cases agents with
  | nil =>
      refine ⟨asked, ?_, ?_, acceptedRecords, ?_, ?_⟩
      · change s.routing.groups.map (·.tp) = _
        rw [List.filter_append]
        simpa using stable.accepted
      · change List.map PartitionGroup.tp (s.routing.rejected ++ [_]) = _
        rw [List.map_append, stable.rejected, List.filter_append, List.map_append]
        rfl
      · intro g mem
        rcases List.mem_append.mp mem with old | new
        · exact rejectedRecords g old
        · rw [List.mem_singleton.mp new]
          exact alone
      · change (if s.routing.rejected = [] then s.refreshes + 1 else s.refreshes) =
          if s.routing.rejected ++ [_] = [] then 0 else 1
        rw [if_neg (List.append_ne_nil_of_right_ne_nil _ (List.cons_ne_nil _ _)),
          stable.refreshes]
        split <;> rfl
  | cons agent others =>
      refine ⟨asked, ?_, ?_, ?_, rejectedRecords, stable.refreshes⟩
      · change List.map PartitionGroup.tp (s.routing.groups ++ [_]) = _
        rw [List.map_append, stable.accepted, List.filter_append, List.map_append]
        rfl
      · change s.routing.rejected.map (·.tp) = _
        rw [List.filter_append]
        simpa using stable.rejected
      · intro g mem
        rcases List.mem_append.mp mem with old | new
        · exact acceptedRecords g old
        · rw [List.mem_singleton.mp new]
          exact alone

/-- One record: at most one lookup, of its own partition. -/
theorem add (stable : s.Stable heap records runs)
    {lookup : TopicPartition → Program Op Ret (List Agent × RouteOutcome)} {r : RecordPtr}
    {trace : List ((o : Op) × Ret o)} {s' : RouteLoop}
    (added : (s.add lookup heap r).Traces trace s') :
    ∃ new : List (LookupRun Op Ret), trace = new.flatMap (·.trace) ∧
      (∀ run ∈ new, (lookup run.tp).Traces run.trace run.answer) ∧
      s'.Stable heap (records ++ [r]) (runs ++ new) := by
  unfold RouteLoop.add at added
  dsimp only at added
  split at added
  · rename_i known
    cases added
    refine ⟨[], rfl, by simp, ?_⟩
    rw [List.append_nil]
    exact stable.appendAccepted known
  · rename_i notAccepted
    split at added
    · rename_i known
      cases added
      refine ⟨[], rfl, by simp, ?_⟩
      rw [List.append_nil]
      exact stable.appendRejected notAccepted known
    · rename_i notRejected
      obtain ⟨first, second, answer, rfl, asked, last⟩ := added.of_bind
      cases last
      refine ⟨[⟨(heap r).topicPartition, first, answer⟩], by simp, ?_, ?_⟩
      · intro run mem
        rw [List.mem_singleton.mp mem]
        exact asked
      · exact stable.place notAccepted notRejected first answer

theorem foldlM (stable : s.Stable heap records runs)
    {lookup : TopicPartition → Program Op Ret (List Agent × RouteOutcome)}
    {rest : List RecordPtr} {trace : List ((o : Op) × Ret o)} {s' : RouteLoop}
    (ran : (rest.foldlM (RouteLoop.add lookup heap) s).Traces trace s') :
    ∃ new : List (LookupRun Op Ret), trace = new.flatMap (·.trace) ∧
      (∀ run ∈ new, (lookup run.tp).Traces run.trace run.answer) ∧
      s'.Stable heap (records ++ rest) (runs ++ new) := by
  induction rest generalizing records runs s trace with
  | nil =>
      cases ran
      refine ⟨[], rfl, by simp, ?_⟩
      rw [List.append_nil, List.append_nil]
      exact stable
  | cons r rest ih =>
      rw [List.foldlM_cons] at ran
      obtain ⟨first, second, mid, rfl, added, later⟩ := ran.of_bind
      obtain ⟨here, split, asked, held⟩ := stable.add added
      obtain ⟨more, split', asked', held'⟩ := ih held later
      refine ⟨here ++ more, ?_, ?_, ?_⟩
      · rw [split, split', List.flatMap_append]
      · intro run mem
        rcases List.mem_append.mp mem with old | new
        · exact asked run old
        · exact asked' run new
      · rwa [List.append_assoc, List.append_assoc] at held'

theorem init : ({} : RouteLoop).Stable heap [] ([] : List (LookupRun Op Ret)) :=
  ⟨rfl, rfl, rfl, by simp, by simp, rfl⟩

/-- The groups hold every record as often as it was passed. -/
theorem all (stable : s.Stable heap records runs) :
    (s.routing.groups.flatMap (·.records) ++ s.routing.rejected.flatMap (·.records)).Perm
      records := by
  let ofKey : TopicPartition → List RecordPtr :=
    fun k => records.filter fun r => (heap r).topicPartition = k
  have groups {β : Type} {gs : List (PartitionGroup β)}
      (ordered : ∀ g ∈ gs, g.records = ofKey g.tp) :
      gs.flatMap (·.records) = (gs.map (·.tp)).flatMap ofKey := by
    rw [List.flatMap_map]
    exact List.flatMap_congr ordered
  rw [groups stable.acceptedRecords, groups stable.rejectedRecords, ← List.flatMap_append,
    stable.accepted, stable.rejected, ← List.map_append]
  have parts := List.filter_append_perm (fun run => decide (run.answer.1 ≠ [])) runs
  have keys : ((runs.filter (fun run => run.answer.1 ≠ [])) ++
      (runs.filter fun run => run.answer.1 = [])).Perm runs := by
    refine List.Perm.trans (List.Perm.of_eq ?_) parts
    simp
  refine ((keys.map (·.tp)).flatMap_right ofKey).trans ?_
  rw [stable.asked]
  have grouped := FirstSeen.flatMap_groupBy_perm (fun r => (heap r).topicPartition) records
  rwa [FirstSeen.groupBy_eq, List.flatMap_map] at grouped

end RouteLoop.Stable

end Stable

section ProbeSlots

/-- An operation that takes the probe slot of a demoted agent. -/
def DemoterOp.takesProbe : (o : DemoterOp) × o.Ret → Bool
  | ⟨.shouldProbe _ _, granted⟩ => granted
  | ⟨.forceProbe _ _, _⟩ => true
  | _ => false

def probeSlots (trace : List ((o : DemoterOp) × o.Ret)) : Nat := trace.countP DemoterOp.takesProbe

theorem probeSlots_append (before after : List ((o : DemoterOp) × o.Ret)) :
    probeSlots (before ++ after) = probeSlots before + probeSlots after := List.countP_append

namespace Demoter

variable {now : Time} {cs : ClusterStats}

theorem probeSlots_isDemoted (nodeID : Int) :
    (isDemoted now nodeID cs).AllTraces fun trace _ => probeSlots trace = 0 := by
  apply Program.AllTraces.bind
  refine @Program.AllTraces.perform _ DemoterOp.Ret (.agentStats now nodeID) _ ?_
  intro stats
  cases stats with
  | none => exact Program.AllTraces.pure rfl
  | some stats =>
      refine @Program.AllTraces.perform _ DemoterOp.Ret (.classify nodeID stats cs) _ ?_
      intro demoted
      rfl

theorem probeSlots_classifyAll (agents : List Agent) (nonDemoted : Nat) (noDemotedAgents : Bool) :
    (classifyAll now cs agents nonDemoted noDemotedAgents).AllTraces
      fun trace _ => probeSlots trace = 0 := by
  induction agents generalizing nonDemoted noDemotedAgents with
  | nil => exact Program.AllTraces.pure rfl
  | cons c rest ih =>
      apply Program.AllTraces.bind
      intro before demoted tested
      have first := probeSlots_isDemoted c.nodeID before demoted tested
      split
      · intro after result looped
        rw [probeSlots_append, first, ih _ _ after result looped]
      · intro after result looped
        rw [probeSlots_append, first, ih _ _ after result looped]

theorem probeSlots_candidatesOf (tp : TopicPartition) (maxCandidates : Nat) :
    (candidatesOf tp maxCandidates).AllTraces fun trace _ => probeSlots trace = 0 := by
  refine @Program.AllTraces.perform _ DemoterOp.Ret (.candidatesOf tp maxCandidates) _ ?_
  intro answer
  rfl

theorem probeSlots_fetchCandidates (tp : TopicPartition) (maxCandidates left extra : Nat) :
    (fetchCandidates tp maxCandidates now cs left extra).AllTraces
      fun trace _ => probeSlots trace = 0 := by
  induction left generalizing extra with
  | zero =>
      unfold fetchCandidates
      apply Program.AllTraces.bind
      intro asked answer lookup
      have first := probeSlots_candidatesOf tp _ asked answer lookup
      apply Program.AllTraces.bind
      intro tests counted classified
      have second := probeSlots_classifyAll _ _ _ tests counted classified
      dsimp only
      split
      · apply Program.AllTraces.pure
        rw [probeSlots_append, probeSlots_append, first, second]
        rfl
      · apply Program.AllTraces.pure
        rw [probeSlots_append, probeSlots_append, first, second]
        rfl
  | succ left ih =>
      unfold fetchCandidates
      apply Program.AllTraces.bind
      intro asked answer lookup
      have first := probeSlots_candidatesOf tp _ asked answer lookup
      apply Program.AllTraces.bind
      intro tests counted classified
      have second := probeSlots_classifyAll _ _ _ tests counted classified
      dsimp only
      split
      · apply Program.AllTraces.pure
        rw [probeSlots_append, probeSlots_append, first, second]
        rfl
      · intro rest result retried
        rw [probeSlots_append, probeSlots_append, first, second, ih _ rest result retried]

/-- Whether a list of candidates has its primary. -/
def assigned (candidates : List Agent) : Nat := if candidates = [] then 0 else 1

/-- A slot is only taken for the primary, and then there is one. -/
theorem probeSlots_buildCandidates (maxCandidates : Nat) (agents candidates : List Agent) :
    (buildCandidates maxCandidates now cs agents candidates).AllTraces
      fun trace result => probeSlots trace + assigned candidates ≤ assigned result := by
  have grown (more : Agent) : assigned (candidates ++ [more]) = 1 := by simp [assigned]
  have most : assigned candidates ≤ 1 := by
    unfold assigned
    split <;> omega
  induction agents generalizing candidates with
  | nil =>
      apply Program.AllTraces.pure
      exact le_of_eq (Nat.zero_add _)
  | cons agent rest ih =>
      have next (more : List Agent) := ih more (fun a => by simp [assigned])
        (by unfold assigned; split <;> omega)
      unfold buildCandidates
      split
      · apply Program.AllTraces.pure
        exact le_of_eq (Nat.zero_add _)
      · apply Program.AllTraces.bind
        intro tests demoted tested
        have first := probeSlots_isDemoted agent.nodeID tests demoted tested
        split
        · split
          · intro trace result built
            have later := next candidates trace result built
            rw [probeSlots_append]
            omega
          · rename_i unassigned
            have none : assigned candidates = 0 := if_pos (not_not.mp unassigned)
            apply Program.AllTraces.bind
            refine @Program.AllTraces.perform _ DemoterOp.Ret (.shouldProbe now agent.nodeID) _ ?_
            intro granted
            cases granted with
            | true =>
                intro trace result built
                have later := next _ trace result built
                have one : probeSlots [⟨DemoterOp.shouldProbe now agent.nodeID, true⟩] = 1 := rfl
                rw [grown] at later
                rw [probeSlots_append, probeSlots_append]
                omega
            | false =>
                intro trace result built
                have later := next candidates trace result built
                have zero : probeSlots [⟨DemoterOp.shouldProbe now agent.nodeID, false⟩] = 0 := rfl
                rw [probeSlots_append, probeSlots_append]
                omega
        · intro trace result built
          have later := next _ trace result built
          rw [grown] at later
          rw [probeSlots_append]
          omega

/-- One lookup takes at most one probe slot, whatever it is answered. -/
theorem probeSlots_candidatesWithRoute (health : HealthCheckConfig) (tp : TopicPartition)
    (maxCandidates : Nat) :
    (candidatesWithRoute health tp maxCandidates).AllTraces
      fun trace _ => probeSlots trace ≤ 1 := by
  unfold candidatesWithRoute
  split
  · apply Program.AllTraces.pure
    exact Nat.zero_le 1
  · apply Program.AllTraces.bind
    refine @Program.AllTraces.perform _ DemoterOp.Ret (.clock) _ ?_
    intro now
    apply Program.AllTraces.bind
    refine @Program.AllTraces.perform _ DemoterOp.Ret
      (.clusterStats now health.slowMultiplier health.faultyThreshold) _ ?_
    intro clusterStats
    have clock : probeSlots [⟨DemoterOp.clock, now⟩] = 0 := rfl
    have stats : probeSlots [⟨DemoterOp.clusterStats now health.slowMultiplier
      health.faultyThreshold, clusterStats⟩] = 0 := rfl
    split
    · apply Program.AllTraces.bind
      rintro fetch ⟨agents, route, noDemotedAgents⟩ fetched
      have first := probeSlots_fetchCandidates _ _ _ _ fetch _ fetched
      dsimp only
      split
      · apply Program.AllTraces.pure
        simp only [probeSlots_append, List.append_nil]
        omega
      · split
        · apply Program.AllTraces.pure
          simp only [probeSlots_append, List.append_nil]
          omega
        · apply Program.AllTraces.bind
          intro build candidates built
          have second := probeSlots_buildCandidates _ _ _ build candidates built
          split
          · rename_i empty
            have none : assigned candidates = 0 := if_pos empty
            apply Program.AllTraces.bind
            refine @Program.AllTraces.perform _ DemoterOp.Ret (.forceProbe now _) _ ?_
            intro done
            apply Program.AllTraces.pure
            have one (id : Int) : probeSlots [⟨DemoterOp.forceProbe now id, done⟩] = 1 := rfl
            simp only [probeSlots_append, one, List.append_nil]
            omega
          · have most : assigned candidates ≤ 1 := by
              unfold assigned
              split <;> omega
            apply Program.AllTraces.pure
            simp only [probeSlots_append, List.append_nil]
            omega
    · intro trace result asked
      have zero := probeSlots_candidatesOf tp maxCandidates trace result asked
      simp only [probeSlots_append]
      omega

end Demoter

end ProbeSlots

/-- Every lookup of a partition is one run of the strategy's program. -/
def Consulted {Op : Type} {Ret : Op → Type}
    (lookup : TopicPartition → Program Op Ret (List Agent × RouteOutcome))
    (trace : List ((o : Op) × Ret o)) (runs : List (LookupRun Op Ret)) : Prop :=
  trace = runs.flatMap (·.trace) ∧ ∀ run ∈ runs, (lookup run.tp).Traces run.trace run.answer

theorem stable_routeRecordsWith {Op : Type} {Ret : Op → Type}
    {lookup : TopicPartition → Program Op Ret (List Agent × RouteOutcome)} {heap : RecordHeap}
    {records : List RecordPtr} {trace : List ((o : Op) × Ret o)} {loop : RouteLoop}
    (ran : (routeRecordsWith lookup heap records).Traces trace loop) :
    ∃ runs : List (LookupRun Op Ret), Consulted lookup trace runs ∧
      loop.Stable heap records runs ∧
      (loop.routing.groups.flatMap (·.records) ++
        loop.routing.rejected.flatMap (·.records)).Perm records := by
  obtain ⟨runs, split, asked, stable⟩ := RouteLoop.Stable.init.foldlM ran
  rw [List.nil_append, List.nil_append] at stable
  exact ⟨runs, ⟨split, asked⟩, stable, stable.all⟩

/-- Whatever the strategy answers, `routeRecords` asks it once for each partition, in the order
in which they are first seen, and splits the records into one group for each, in that order and
with their own order kept; the groups with an empty answer are rejected, and the first of them
requests the refresh. Asked through the Demoter, each partition takes at most one probe slot. -/
theorem routeRecords_stable_partition (heap : RecordHeap) (records : List RecordPtr) :
    (∀ (Op : Type) (Ret : Op → Type)
        (lookup : TopicPartition → Program Op Ret (List Agent × RouteOutcome)) trace loop,
      (routeRecordsWith lookup heap records).Traces trace loop →
        ∃ runs : List (LookupRun Op Ret), Consulted lookup trace runs ∧
          loop.Stable heap records runs ∧
          (loop.routing.groups.flatMap (·.records) ++
            loop.routing.rejected.flatMap (·.records)).Perm records) ∧
      ∀ (health : HealthCheckConfig) trace loop,
        (routeRecordsWith (fun tp => Demoter.candidatesWithRoute health tp 1) heap records).Traces
          trace loop →
        ∃ runs, Consulted (fun tp => Demoter.candidatesWithRoute health tp 1) trace runs ∧
          loop.Stable heap records runs ∧ ∀ run ∈ runs, probeSlots run.trace ≤ 1 := by
  constructor
  · intro Op Ret lookup trace loop ran
    exact stable_routeRecordsWith ran
  · intro health trace loop ran
    obtain ⟨runs, consulted, stable, -⟩ := stable_routeRecordsWith ran
    refine ⟨runs, consulted, stable, fun run mem => ?_⟩
    exact Demoter.probeSlots_candidatesWithRoute health run.tp 1 _ _ (consulted.2 run mem)

/-- A strategy that knows an agent in its first answer only: the second partition is rejected,
and the second record of the first partition is not asked for again. -/
theorem routeRecords_stable_partition_changing :
    let heap : RecordHeap := fun r => { topic := if r = 1 then "b" else "a" }
    let answer (_ : TopicPartition) (asked : Nat) : (List Agent × RouteOutcome) × Nat :=
      (if asked = 0 then ([⟨7, .healthy⟩], .leader) else ([], .missNoLeader), asked + 1)
    let loop := ((routeRecordsWith Program.perform heap [0, 1, 2]).exec answer 0).1
    (∃ runs : List (LookupRun TopicPartition fun _ => List Agent × RouteOutcome),
        loop.Stable heap [0, 1, 2] runs) ∧
      loop.routing.groups.map (·.records) = [[0, 2]] ∧
      loop.routing.rejected.map (·.records) = [[1]] ∧ loop.refreshes = 1 := by
  intro heap answer loop
  obtain ⟨trace, ran⟩ :=
    Program.exists_traces_exec answer (routeRecordsWith Program.perform heap [0, 1, 2]) 0
  obtain ⟨runs, -, stable, -⟩ := (routeRecords_stable_partition heap [0, 1, 2]).1 _ _ _ trace _ ran
  refine ⟨⟨runs, stable⟩, ?_, ?_, ?_⟩
  · decide
  · decide
  · decide

end Warpstream
