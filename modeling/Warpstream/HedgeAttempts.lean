import Warpstream.HedgerProgress

set_option autoImplicit false

/- `runHedgingAttempts` with its memoized candidate lists. The strategy is an oracle: each
query of it may be answered by any list. -/
namespace Warpstream

/-- `hedgerCandidates`, with the queries of the strategy in order. -/
structure HedgerCandidates where
  cache : GoMap TopicPartition (List Agent) := ∅
  queries : List TopicPartition := []

/-- The arguments of `runHedgingAttempts`. -/
structure HedgeAttemptsCall where
  maxHedgeAgents : Nat
  primaryID : Int
  partitions : List EncodedTopicPartitionRecords

/-- The configuration of the cascade once the lists are known. -/
def HedgeAttemptsCall.cfg (call : HedgeAttemptsCall) (h : HedgerCandidates) : HedgeConfig :=
  { maxHedgeAgents := call.maxHedgeAgents
    primaryID := call.primaryID
    candidates := fun tp => (h.cache.lookup tp).getD []
    partitions := call.partitions }

/-- A wave that was sent: what was pending and the groups. -/
structure HedgeWave where
  pending : List TopicPartition
  legs : List HedgeLeg

def HedgeLeg.sends (leg : HedgeLeg) : List (TopicPartition × Int) :=
  leg.parts.map fun p => (p.topicPartition, leg.agent)

/-- The partitions of a wave with the agents they are sent to. -/
def HedgeWave.sends (w : HedgeWave) : List (TopicPartition × Int) := w.legs.flatMap HedgeLeg.sends

/-- The state of the loop. -/
structure HedgeAttempts where
  cascade : Cascade
  candidates : HedgerCandidates
  ctxErr : Option GoError := none
  waves : List HedgeWave := []

inductive AttemptsAction where
  | cascade (action : CascadeAction)
  | ctxEnds (err : GoError)

section Model

-- how the strategy answers its query number `n`
variable (strategy : Nat → TopicPartition → List Agent)

def HedgerCandidates.fetch (h : HedgerCandidates) (tp : TopicPartition) :
    List Agent × HedgerCandidates :=
  match h.cache.lookup tp with
  | some cached => (cached, h)
  | none =>
      let list := strategy h.queries.length tp
      (list, { cache := h.cache.insert tp list, queries := h.queries ++ [tp] })

/-- The lookups of `observeCandidates`. -/
def observeCandidates (partitions : List EncodedTopicPartitionRecords) (h : HedgerCandidates) :
    HedgerCandidates :=
  partitions.foldl (fun h p => (h.fetch strategy p.topicPartition).2) h

/-- The choice of an agent for every pending partition. A choice that fails leaves the agents
tried so far behind. -/
def pickFetching (maxHedgeAgents : Nat) :
    List EncodedTopicPartitionRecords → GoMap TopicPartition (List Int) → HedgerCandidates →
      GoMap TopicPartition (List Int) × HedgerCandidates ×
        Except ProduceStop (List (Int × EncodedTopicPartitionRecords))
  | [], tried, h => (tried, h, .ok [])
  | p :: rest, tried, h =>
      let before := (tried.lookup p.topicPartition).getD []
      if maxHedgeAgents ≤ before.length then (tried, h, .error .budgetCap)
      else
        let (list, h) := h.fetch strategy p.topicPartition
        match list.find? fun c => c.nodeID ∉ before with
        | none => (tried, h, .error (if before.length = 1 then .noAlternate else .listDrained))
        | some c =>
            let (tried, h, chosen) := pickFetching maxHedgeAgents rest
              (tried.insert p.topicPartition (before ++ [c.nodeID])) h
            (tried, h, chosen.map fun chosen => (c.nodeID, p) :: chosen)

namespace HedgeAttempts

/-- Up to the loop. -/
def start (call : HedgeAttemptsCall) : Except GoError HedgeAttempts :=
  (Cascade.start (call.cfg {})).map fun c =>
    { cascade := c, candidates := observeCandidates strategy call.partitions {} }

def step (call : HedgeAttemptsCall) (a : HedgeAttempts) : AttemptsAction → Option HedgeAttempts
  | .ctxEnds err => if a.ctxErr = none then some { a with ctxErr := some err } else none
  | .cascade (.wave order legs) =>
      let c := a.cascade
      if c.phase = .top ∧ a.ctxErr = none ∧ c.acc.Remaining order then
        if order = [] then some { a with cascade := c.stop .none }
        else
          match pickFetching strategy call.maxHedgeAgents order c.tried a.candidates with
          | (tried, h, .error exhaustion) =>
              some { a with cascade := { c.stop exhaustion with tried := tried }, candidates := h }
          | (tried, h, .ok chosen) =>
              if legs.Perm (groupLegs chosen) then
                some { a with
                  cascade := c.dispatch tried legs
                  candidates := h
                  waves := a.waves ++ [⟨c.acc.pending.keys, legs⟩] }
              else none
      else none
  | .cascade action =>
      (a.cascade.step (call.cfg a.candidates) a.ctxErr action).map fun c => { a with cascade := c }

/-- The agents that a partition was sent to, in order. -/
def sentTo (a : HedgeAttempts) (tp : TopicPartition) : List Int :=
  ((a.waves.flatMap HedgeWave.sends).filter fun send => send.1 = tp).map Prod.snd

end HedgeAttempts

end Model

section Memo

variable (strategy : Nat → TopicPartition → List Agent)

/-- One query a cached list. -/
structure HedgerCandidates.Memo (h : HedgerCandidates) : Prop where
  distinct : h.queries.Nodup
  cached : ∀ tp, tp ∈ h.cache ↔ tp ∈ h.queries

theorem HedgerCandidates.fetch_of_mem {h : HedgerCandidates} {tp : TopicPartition}
    (cached : tp ∈ h.cache) :
    h.fetch strategy tp = ((h.cache.lookup tp).getD [], h) := by
  obtain ⟨list, found⟩ := Option.isSome_iff_exists.mp (AList.lookup_isSome.mpr cached)
  simp [fetch, found]

theorem HedgerCandidates.Memo.fetch {h : HedgerCandidates} (memo : h.Memo) (tp : TopicPartition) :
    (h.fetch strategy tp).2.Memo ∧
      ∀ other, other ∈ (h.fetch strategy tp).2.cache ↔ other = tp ∨ other ∈ h.cache := by
  by_cases known : tp ∈ h.cache
  · rw [fetch_of_mem strategy known]
    exact ⟨memo, fun other => (or_iff_right_of_imp fun same => same ▸ known).symm⟩
  · have missing := AList.lookup_eq_none.mpr known
    simp only [HedgerCandidates.fetch, missing]
    refine ⟨⟨?_, fun other => ?_⟩, fun other => AList.mem_insert _⟩
    · rw [List.nodup_append]
      refine ⟨memo.distinct, List.nodup_singleton _, fun a mem b new same => known ?_⟩
      rw [List.mem_singleton.mp new] at same
      exact (memo.cached tp).mpr (same ▸ mem)
    · rw [AList.mem_insert, List.mem_append, List.mem_singleton, memo.cached, or_comm]

theorem memo_observeCandidates (partitions : List EncodedTopicPartitionRecords)
    {h : HedgerCandidates} (memo : h.Memo) :
    (observeCandidates strategy partitions h).Memo ∧
      ∀ tp, tp ∈ (observeCandidates strategy partitions h).cache ↔
        tp ∈ h.cache ∨ tp ∈ partitions.map EncodedTopicPartitionRecords.topicPartition := by
  induction partitions generalizing h with
  | nil => exact ⟨memo, fun tp => by simp [observeCandidates]⟩
  | cons p rest ih =>
      obtain ⟨fetched, keys⟩ := memo.fetch strategy p.topicPartition
      obtain ⟨done, all⟩ := ih fetched
      refine ⟨done, fun tp => (all tp).trans ?_⟩
      rw [keys, List.map_cons, List.mem_cons]
      tauto

/-- With all lists known, a choice asks nothing and decides as a choice from fixed lists. -/
theorem pickFetching_eq (call : HedgeAttemptsCall) {h : HedgerCandidates}
    (order : List EncodedTopicPartitionRecords) (known : ∀ p ∈ order, p.topicPartition ∈ h.cache)
    (tried : GoMap TopicPartition (List Int)) :
    match pickCandidates (call.cfg h) tried order with
    | .ok (last, chosen) =>
        pickFetching strategy call.maxHedgeAgents order tried h = (last, h, .ok chosen)
    | .error exhaustion => ∃ last,
        pickFetching strategy call.maxHedgeAgents order tried h = (last, h, .error exhaustion) := by
  induction order generalizing tried with
  | nil => rfl
  | cons p rest ih =>
      have list := HedgerCandidates.fetch_of_mem strategy (known p List.mem_cons_self)
      simp only [pickCandidates, nextCandidate, bind, Except.bind, pickFetching,
        HedgeAttemptsCall.cfg, list]
      by_cases spent : call.maxHedgeAgents ≤ ((tried.lookup p.topicPartition).getD []).length
      · simp only [spent, ↓reduceIte]
        exact ⟨tried, rfl⟩
      · simp only [spent, ↓reduceIte]
        cases found : ((h.cache.lookup p.topicPartition).getD []).find? fun c =>
            c.nodeID ∉ (tried.lookup p.topicPartition).getD [] with
        | none =>
            simp only
            exact ⟨tried, rfl⟩
        | some c =>
            have later := ih (fun q mem => known q (List.mem_cons_of_mem _ mem))
              (tried.insert p.topicPartition
                ((tried.lookup p.topicPartition).getD [] ++ [c.nodeID]))
            simp only [HedgeAttemptsCall.cfg] at later ⊢
            revert later
            split
            · rename_i last chosen picked
              intro later
              simp only [later, picked]
              rfl
            · rename_i exhaustion picked
              rintro ⟨last, later⟩
              simp only [later, picked]
              exact ⟨last, rfl⟩

end Memo

section Sends

theorem sends_groupLegs (chosen : List (Int × EncodedTopicPartitionRecords)) :
    ((groupLegs chosen).flatMap HedgeLeg.sends).Perm
      (chosen.map fun c => (c.2.topicPartition, c.1)) := by
  have legs : (groupLegs chosen).flatMap HedgeLeg.sends =
      ((FirstSeen.groupBy Prod.fst chosen).flatMap Prod.snd).map
        fun c => (c.2.topicPartition, c.1) := by
    rw [groupLegs, List.flatMap_map, List.map_flatMap]
    refine List.flatMap_congr fun g mem => ?_
    rw [HedgeLeg.sends, List.map_map]
    refine List.map_congr_left fun c inside => ?_
    have members := (FirstSeen.groups_groupBy Prod.fst chosen).members g.1 g.2 mem
    rw [members, List.mem_filter] at inside
    rw [Function.comp_apply, of_decide_eq_true inside.2]
  rw [legs]
  exact (FirstSeen.flatMap_groupBy_perm Prod.fst chosen).map _

/-- The values of a key that occurs once. -/
theorem filter_key_eq_singleton {κ ν : Type} [DecidableEq κ] {pairs : List (κ × ν)} {k : κ} {v : ν}
    (distinct : (pairs.map Prod.fst).Nodup) (mem : (k, v) ∈ pairs) :
    (pairs.filter fun kv => kv.1 = k).map Prod.snd = [v] := by
  induction pairs with
  | nil => cases mem
  | cons first rest ih =>
      obtain ⟨fresh, later⟩ := List.nodup_cons.mp distinct
      rcases List.mem_cons.mp mem with rfl | inside
      · have none : (rest.filter fun kv => kv.1 = k) = [] := by
          rw [List.filter_eq_nil_iff]
          intro kv inside same
          exact fresh (List.mem_map.mpr ⟨kv, inside, of_decide_eq_true same⟩)
        rw [List.filter_cons_of_pos (by simp), none]
        rfl
      · have other : first.1 ≠ k := fun same =>
          fresh (same ▸ List.mem_map_of_mem (f := Prod.fst) inside)
        rw [List.filter_cons_of_neg (by simpa using other), ih later inside]

/-- The agent chosen for a partition is new to it and within the budget; the other partitions
are left alone. -/
theorem pickCandidates_lookup {cfg : HedgeConfig} {tried tried' : GoMap TopicPartition (List Int)}
    {order : List EncodedTopicPartitionRecords}
    {chosen : List (Int × EncodedTopicPartitionRecords)}
    (distinct : (order.map EncodedTopicPartitionRecords.topicPartition).Nodup)
    (picked : pickCandidates cfg tried order = .ok (tried', chosen)) :
    (∀ tp, tp ∉ order.map EncodedTopicPartitionRecords.topicPartition →
      tried'.lookup tp = tried.lookup tp) ∧
    ∀ c ∈ chosen, ∃ before, (tried.lookup c.2.topicPartition).getD [] = before ∧
      tried'.lookup c.2.topicPartition = some (before ++ [c.1]) ∧ c.1 ∉ before ∧
      before.length < cfg.maxHedgeAgents := by
  induction order generalizing tried chosen with
  | nil =>
      obtain ⟨rfl, rfl⟩ := Prod.mk.inj (Except.ok.inj picked)
      exact ⟨fun _ _ => rfl, nofun⟩
  | cons p rest ih =>
      obtain ⟨fresh, later⟩ := List.nodup_cons.mp distinct
      simp only [pickCandidates, bind, Except.bind] at picked
      split at picked
      · cases picked
      rename_i next found
      split at picked
      · cases picked
      rename_i pair tail
      obtain ⟨last, others⟩ := pair
      obtain ⟨rfl, rfl⟩ := Prod.mk.inj (Except.ok.inj picked)
      obtain ⟨untouched, spec⟩ := ih later tail
      have choice : next ∉ (tried.lookup p.topicPartition).getD [] ∧
          ((tried.lookup p.topicPartition).getD []).length < cfg.maxHedgeAgents := by
        unfold nextCandidate at found
        split at found
        · cases found
        · rename_i room
          split at found
          · rename_i c free
            rw [← Except.ok.inj found]
            exact ⟨by simpa using List.find?_some free, by omega⟩
          · cases found
      refine ⟨fun tp absent => ?_, fun c mem => ?_⟩
      · rw [List.map_cons, List.mem_cons, not_or] at absent
        rw [untouched tp absent.2, AList.lookup_insert_ne absent.1]
      · rcases List.mem_cons.mp mem with rfl | inside
        · exact ⟨_, rfl, by rw [untouched _ fresh, AList.lookup_insert], choice⟩
        · have other : c.2.topicPartition ≠ p.topicPartition := fun same => by
            have parts := pickCandidates_parts tail
            have sent : c.2 ∈ rest := parts ▸ List.mem_map_of_mem (f := Prod.snd) inside
            exact fresh (same ▸ List.mem_map_of_mem sent)
          obtain ⟨before, was, now, unused, room⟩ := spec c inside
          rw [AList.lookup_insert_ne other] at was
          exact ⟨before, was, now, unused, room⟩

end Sends

namespace HedgeAttempts

/-- The abstract cascade that the loop implements: they differ in the agents tried at most, and
only once the loop has ended. -/
def Refines (a : HedgeAttempts) (c : Cascade) : Prop :=
  ∃ tried, a.cascade = { c with tried := tried } ∧
    (c.phase = .top ∨ c.phase = .collecting → tried = c.tried)

theorem Refines.eq_of_running {a : HedgeAttempts} {c : Cascade} (refines : a.Refines c)
    (running : a.cascade.phase = .top ∨ a.cascade.phase = .collecting) : a.cascade = c := by
  obtain ⟨tried, same, kept⟩ := refines
  rw [same] at running ⊢
  rw [kept running]

structure Inv (call : HedgeAttemptsCall) (a : HedgeAttempts) (c : Cascade) : Prop where
  memo : a.candidates.Memo
  known : ∀ tp ∈ (call.cfg a.candidates).requested, tp ∈ a.candidates.cache
  ok : c.Ok (call.cfg a.candidates)
  refines : a.Refines c
  unfinished : c.phase ≠ .finished
  count : c.attempts = 1 + a.waves.length
  budget : a.waves.length + 1 ≤ call.maxHedgeAgents
  waves : ∀ w ∈ a.waves, w.pending.Nodup ∧ (w.sends.map Prod.fst).Perm w.pending
  sent : ∀ tp, (call.primaryID :: a.sentTo tp).Nodup ∧
    (call.primaryID :: a.sentTo tp).length ≤ call.maxHedgeAgents
  tried : ∀ tp ∈ (call.cfg a.candidates).requested,
    (c.tried.lookup tp).getD [] = call.primaryID :: a.sentTo tp

variable {strategy : Nat → TopicPartition → List Agent} {call : HedgeAttemptsCall}
  {a a' : HedgeAttempts} {c : Cascade}

/-- A step that sends nothing. -/
theorem Inv.quiet (inv : a.Inv call c) {c' : Cascade} (ok : c'.Ok (call.cfg a.candidates))
    (refines : a'.Refines c') (unfinished : c'.phase ≠ .finished) (tried : c'.tried = c.tried)
    (attempts : c'.attempts = c.attempts) (candidates : a'.candidates = a.candidates)
    (waves : a'.waves = a.waves) : a'.Inv call c' := by
  obtain ⟨cascade, candidates', ctxErr, waves'⟩ := a'
  obtain rfl : candidates' = a.candidates := candidates
  obtain rfl : waves' = a.waves := waves
  exact ⟨inv.memo, inv.known, ok, refines, unfinished, attempts ▸ inv.count, inv.budget, inv.waves,
    inv.sent, tried ▸ inv.tried⟩

theorem sentTo_concat (a : HedgeAttempts) (cascade : Cascade) (w : HedgeWave)
    (tp : TopicPartition) :
    sentTo { a with cascade := cascade, waves := a.waves ++ [w] } tp =
      a.sentTo tp ++ (w.sends.filter fun send => send.1 = tp).map Prod.snd := by
  simp [sentTo]

/-- A wave: every pending partition goes to one agent that it was not sent to before. -/
theorem Inv.dispatch (inv : a.Inv call c) {order : List EncodedTopicPartitionRecords}
    {legs : List HedgeLeg} {tried : GoMap TopicPartition (List Int)}
    {chosen : List (Int × EncodedTopicPartitionRecords)} (top : c.phase = .top)
    (pending : c.acc.Remaining order) (some : order ≠ [])
    (picked : pickCandidates (call.cfg a.candidates) c.tried order = .ok (tried, chosen))
    (grouped : legs.Perm (groupLegs chosen)) {w : HedgeWave}
    (wave : w = ⟨c.acc.pending.keys, legs⟩) :
    Inv call { a with cascade := c.dispatch tried legs, waves := a.waves ++ [w] }
      (c.dispatch tried legs) := by
  have keys := inv.ok.acc.remaining_keys pending
  have distinct := keys.nodup_iff.mpr c.acc.pending.keys_nodup
  obtain ⟨untouched, spec⟩ := pickCandidates_lookup distinct picked
  have sends : w.sends.Perm (chosen.map fun c => (c.2.topicPartition, c.1)) := by
    rw [wave]
    exact (grouped.flatMap_right _).trans (sends_groupLegs chosen)
  have targets : (w.sends.map Prod.fst).Perm
      (order.map EncodedTopicPartitionRecords.topicPartition) := by
    refine (sends.map Prod.fst).trans (List.Perm.of_eq ?_)
    rw [← pickCandidates_parts picked, List.map_map, List.map_map]
    rfl
  have once := targets.nodup_iff.mpr distinct
  -- what the wave adds for a partition that it carries
  have carried {tp : TopicPartition}
      (mem : tp ∈ order.map EncodedTopicPartitionRecords.topicPartition) :
      ∃ agent before, (c.tried.lookup tp).getD [] = before ∧
        tried.lookup tp = .some (before ++ [agent]) ∧ agent ∉ before ∧
        before.length < call.maxHedgeAgents ∧
        (w.sends.filter fun send => send.1 = tp).map Prod.snd = [agent] := by
    obtain ⟨p, inside, rfl⟩ := List.mem_map.mp mem
    rw [← pickCandidates_parts picked] at inside
    obtain ⟨choice, member, rfl⟩ := List.mem_map.mp inside
    obtain ⟨before, was, now, unused, room⟩ := spec choice member
    have sent : (choice.2.topicPartition, choice.1) ∈ w.sends :=
      sends.mem_iff.mpr (List.mem_map.mpr ⟨choice, member, rfl⟩)
    exact ⟨choice.1, before, was, now, unused, room, filter_key_eq_singleton once sent⟩
  have spared {tp : TopicPartition}
      (absent : tp ∉ order.map EncodedTopicPartitionRecords.topicPartition) :
      (w.sends.filter fun send => send.1 = tp).map Prod.snd = [] := by
    rw [List.map_eq_nil_iff, List.filter_eq_nil_iff]
    intro send mem same
    exact absent (targets.mem_iff.mp (of_decide_eq_true same ▸ List.mem_map_of_mem mem))
  have requested {tp : TopicPartition}
      (mem : tp ∈ order.map EncodedTopicPartitionRecords.topicPartition) :
      tp ∈ (call.cfg a.candidates).requested :=
    (inv.ok.acc.covers tp).mpr (Or.inl (keys.mem_iff.mp mem))
  have move := Cascade.Move.dispatch order legs tried chosen top pending some picked grouped
  refine ⟨inv.memo, inv.known, inv.ok.step move, ⟨tried, rfl, fun _ => rfl⟩, move.unfinished.2, ?_,
    ?_, ?_, fun tp => ?_, fun tp mem => ?_⟩
  · rw [Cascade.dispatch, inv.count, List.length_append]
    rfl
  · -- the first partition of the wave shows that the budget allows it
    obtain ⟨p, first⟩ := List.exists_mem_of_ne_nil _ some
    have mem := List.mem_map_of_mem (f := EncodedTopicPartitionRecords.topicPartition) first
    obtain ⟨agent, before, was, -, -, room, -⟩ := carried mem
    have tries := inv.ok.tried _ (keys.mem_iff.mp mem)
    have count := inv.count
    rw [was] at tries
    rw [List.length_append, List.length_singleton]
    omega
  · intro w' mem
    rcases List.mem_append.mp mem with old | new
    · exact inv.waves w' old
    · have pendingKeys : w.pending = c.acc.pending.keys := by rw [wave]
      rw [List.mem_singleton.mp new, pendingKeys]
      exact ⟨c.acc.pending.keys_nodup, targets.trans keys⟩
  · rw [sentTo_concat]
    by_cases mem : tp ∈ order.map EncodedTopicPartitionRecords.topicPartition
    · obtain ⟨agent, before, was, -, unused, room, added⟩ := carried mem
      rw [inv.tried tp (requested mem)] at was
      rw [added, ← List.cons_append, was]
      refine ⟨?_, by rw [List.length_append, List.length_singleton]; omega⟩
      have alone := (inv.sent tp).1
      rw [was] at alone
      rw [List.nodup_append]
      refine ⟨alone, List.nodup_singleton _, fun x old y new same => unused ?_⟩
      rw [← List.mem_singleton.mp new, ← same]
      exact old
    · rw [spared mem, List.append_nil]
      exact inv.sent tp
  · rw [sentTo_concat]
    by_cases carriedHere : tp ∈ order.map EncodedTopicPartitionRecords.topicPartition
    · obtain ⟨agent, before, was, now, -, -, added⟩ := carried carriedHere
      rw [added, ← List.cons_append, ← inv.tried tp mem, was, Cascade.dispatch, now,
        Option.getD_some]
    · rw [spared carriedHere, List.append_nil, Cascade.dispatch, untouched tp carriedHere]
      exact inv.tried tp mem

/-- A bound on the steps that are left. -/
def fuel (call : HedgeAttemptsCall) (a : HedgeAttempts) : Nat :=
  a.cascade.fuel (call.cfg a.candidates) + if a.ctxErr = none then 1 else 0

theorem Refines.fuel_eq (refines : a.Refines c) (cfg : HedgeConfig) :
    a.cascade.fuel cfg = c.fuel cfg := by
  obtain ⟨tried, same, -⟩ := refines
  rw [same]
  rfl

/-- A step other than a wave is one of the abstract cascade. -/
theorem Inv.step_quiet (inv : a.Inv call c) {action : CascadeAction} {after : Cascade}
    (notWave : ∀ order legs, action ≠ .wave order legs)
    (stepped : a.cascade.step (call.cfg a.candidates) a.ctxErr action = some after) :
    Inv call { a with cascade := after } after ∧
      after.fuel (call.cfg a.candidates) < a.cascade.fuel (call.cfg a.candidates) := by
  have running : a.cascade.phase = .top ∨ a.cascade.phase = .collecting := by
    cases Cascade.move_of_step stepped with
    | stop exhaustion running => exact running
    | dispatch order legs tried chosen top => exact Or.inl top
    | receive i leg res collecting => exact Or.inr collecting
  rw [inv.refines.eq_of_running running] at stepped
  have move := Cascade.move_of_step stepped
  have kept : after.tried = c.tried ∧ after.attempts = c.attempts := by
    cases action with
    | wave order legs => exact absurd rfl (notWave order legs)
    | legResult i res =>
        simp only [Cascade.step] at stepped
        split at stepped
        · obtain ⟨leg, -, rfl⟩ := Option.map_eq_some_iff.mp stepped
          exact ⟨rfl, rfl⟩
        · cases stepped
    | ctxDone | leaveLoop =>
        simp only [Cascade.step] at stepped
        split at stepped
        · obtain rfl := Option.some.inj stepped
          exact ⟨rfl, rfl⟩
        · cases stepped
  exact ⟨inv.quiet (inv.ok.step move) ⟨after.tried, rfl, fun _ => rfl⟩ move.unfinished.2 kept.1
    kept.2 rfl rfl, inv.refines.fuel_eq _ ▸ move.uses inv.ok⟩

theorem Inv.step (inv : a.Inv call c) {action : AttemptsAction}
    (stepped : a.step strategy call action = some a') :
    (∃ c', a'.Inv call c') ∧ a'.fuel call < a.fuel call := by
  cases action with
  | ctxEnds err =>
      simp only [HedgeAttempts.step] at stepped
      split at stepped
      · rename_i live
        obtain rfl := Option.some.inj stepped
        refine ⟨⟨c, inv.quiet inv.ok inv.refines inv.unfinished rfl rfl rfl rfl⟩, ?_⟩
        simp [fuel, live]
      · cases stepped
  | cascade action =>
      cases action with
      | wave order legs =>
          simp only [HedgeAttempts.step] at stepped
          split at stepped
          swap
          · cases stepped
          rename_i enabled
          obtain ⟨top, live, pending⟩ := enabled
          have same := inv.refines.eq_of_running (Or.inl top)
          rw [same] at top pending stepped
          have stop (exhaustion : ProduceStop) :
              Cascade.Move (call.cfg a.candidates) c (c.stop exhaustion) :=
            .stop exhaustion (Or.inl top)
          split at stepped
          · obtain rfl := Option.some.inj stepped
            refine ⟨⟨c.stop .none, inv.quiet (inv.ok.step (stop .none)) ⟨_, rfl, fun _ => rfl⟩
              (stop .none).unfinished.2 rfl rfl rfl rfl⟩, ?_⟩
            simpa [fuel, same] using (stop .none).uses inv.ok
          rename_i some
          have known : ∀ p ∈ order, p.topicPartition ∈ a.candidates.cache := fun p mem => by
            have keys := (inv.ok.acc.remaining_keys pending).mem_iff.mp (List.mem_map_of_mem mem)
            exact inv.known _ ((inv.ok.acc.covers _).mpr (Or.inl keys))
          have chooses := pickFetching_eq strategy call order known c.tried
          cases picked : pickCandidates (call.cfg a.candidates) c.tried order with
          | error exhaustion =>
              rw [picked] at chooses
              obtain ⟨last, fetched⟩ := chooses
              rw [fetched] at stepped
              obtain rfl := Option.some.inj stepped
              have refines : Refines { a with
                  cascade := { c.stop exhaustion with tried := last } } (c.stop exhaustion) :=
                ⟨last, rfl, by simp [Cascade.stop]⟩
              refine ⟨⟨c.stop exhaustion, inv.quiet (inv.ok.step (stop exhaustion)) refines
                (stop exhaustion).unfinished.2 rfl rfl rfl rfl⟩, ?_⟩
              have less := (stop exhaustion).uses inv.ok
              rw [← refines.fuel_eq] at less
              simpa [fuel, same] using less
          | ok choice =>
              rw [picked] at chooses
              simp only [chooses] at stepped
              split at stepped
              · rename_i grouped
                obtain rfl := Option.some.inj stepped
                refine ⟨⟨_, inv.dispatch top pending some picked grouped rfl⟩, ?_⟩
                have move := Cascade.Move.dispatch order legs choice.1 choice.2 top pending some
                  picked grouped
                simpa [fuel, same] using move.uses inv.ok
              · cases stepped
      | legResult | ctxDone | leaveLoop =>
          obtain ⟨after, moved, rfl⟩ := Option.map_eq_some_iff.mp stepped
          obtain ⟨kept, less⟩ := inv.step_quiet (fun _ _ => by simp) moved
          exact ⟨⟨after, kept⟩, Nat.add_lt_add_right less _⟩

/-- A loop that has not ended can go on, given the answers of its legs. -/
theorem Inv.exists_step (inv : a.Inv call c)
    (running : a.cascade.phase = .top ∨ a.cascade.phase = .collecting) :
    ∃ action, (a.step strategy call action).isSome := by
  have same := inv.refines.eq_of_running running
  rw [same] at running
  by_cases top : c.phase = .top ∧ a.ctxErr = none
  · have pending : c.acc.Remaining (c.acc.pending.entries.map Sigma.snd) := List.Perm.refl _
    generalize c.acc.pending.entries.map Sigma.snd = order at pending
    rcases pick : pickFetching strategy call.maxHedgeAgents order c.tried a.candidates with
      ⟨tried, h, exhaustion | chosen⟩
    · refine ⟨.cascade (.wave order []), ?_⟩
      simp only [HedgeAttempts.step, same, top, pending, and_self, ↓reduceIte, pick]
      split <;> rfl
    · refine ⟨.cascade (.wave order (groupLegs chosen)), ?_⟩
      simp only [HedgeAttempts.step, same, top, pending, and_self, ↓reduceIte, pick,
        List.Perm.refl]
      split <;> rfl
  · obtain ⟨action, enabled⟩ := Cascade.exists_step inv.ok a.ctxErr running
    refine ⟨.cascade action, ?_⟩
    cases action with
    | wave order legs =>
        simp only [Cascade.step] at enabled
        split at enabled
        · rename_i here
          exact absurd ⟨here.1, here.2.1⟩ top
        · cases enabled
    | legResult | ctxDone | leaveLoop =>
        simp only [HedgeAttempts.step, same, Option.isSome_map]
        exact enabled

theorem nodup_of_newProduceResultAccumulator {partitions : List EncodedTopicPartitionRecords}
    {acc : ProduceResultAccumulator} (made : newProduceResultAccumulator partitions = .ok acc) :
    (partitions.map EncodedTopicPartitionRecords.topicPartition).Nodup := by
  have fold (rest : List EncodedTopicPartitionRecords) (first : ProduceResultAccumulator)
      (seeded : rest.foldlM seedPending first = .ok acc) :
      (rest.map EncodedTopicPartitionRecords.topicPartition).Nodup ∧
        ∀ p ∈ rest, p.topicPartition ∉ first.pending := by
    induction rest generalizing first with
    | nil => simp
    | cons p rest ih =>
        rw [List.foldlM_cons, seedPending] at seeded
        split at seeded
        · cases seeded
        · rename_i fresh
          obtain ⟨distinct, absent⟩ := ih _ seeded
          refine ⟨List.nodup_cons.mpr ⟨fun again => ?_, distinct⟩, fun q mem => ?_⟩
          · obtain ⟨q, mem, same⟩ := List.mem_map.mp again
            exact absent q mem ((AList.mem_insert _).mpr (Or.inl same))
          · rcases List.mem_cons.mp mem with rfl | later
            · exact fresh
            · exact fun known => absent q later ((AList.mem_insert _).mpr (Or.inr known))
  exact (fold partitions {} made).1

/-- The loop is entered exactly if no partition is repeated. A call with a repeated one returns the
error of the accumulator at once, without a wave and without a query of the strategy. -/
theorem exists_start_iff :
    (∃ a, start strategy call = .ok a) ↔
      (call.partitions.map EncodedTopicPartitionRecords.topicPartition).Nodup := by
  constructor
  · rintro ⟨a, started⟩
    unfold start Cascade.start at started
    cases made : newProduceResultAccumulator (call.cfg {}).partitions with
    | error err =>
        rw [made] at started
        cases started
    | ok acc => exact nodup_of_newProduceResultAccumulator made
  · intro distinct
    have requested : (call.cfg {}).requested.Nodup := distinct
    obtain ⟨c, begun, -⟩ := Cascade.ok_start requested
    exact ⟨_, by rw [start, begun]; rfl⟩

theorem inv_start (budget : 1 ≤ call.maxHedgeAgents) (started : start strategy call = .ok a) :
    (∃ c, a.Inv call c) ∧
      a.fuel call = (call.maxHedgeAgents - 1) * (call.partitions.length + 2) + 4 := by
  unfold start Cascade.start at started
  cases made : newProduceResultAccumulator (call.cfg {}).partitions with
  | error err =>
      rw [made] at started
      cases started
  | ok acc =>
      rw [made] at started
      obtain rfl := Except.ok.inj started
      let observed := observeCandidates strategy call.partitions {}
      have distinct : (call.cfg observed).requested.Nodup :=
        nodup_of_newProduceResultAccumulator made
      obtain ⟨c, same, ok, -, -⟩ := Cascade.ok_start distinct
      have accumulated : Cascade.start (call.cfg observed) =
          .ok { acc := acc, tried := Cascade.primaryTried (call.cfg observed) } := by
        rw [Cascade.start, show (call.cfg observed).partitions = (call.cfg {}).partitions from rfl,
          made]
        rfl
      obtain rfl := Except.ok.inj (same.symm.trans accumulated)
      obtain ⟨memo, cached⟩ := memo_observeCandidates strategy call.partitions
        (h := {}) ⟨List.nodup_nil, by simp⟩
      refine ⟨⟨_, memo, fun tp mem => (cached tp).mpr (Or.inr mem), ok, ⟨_, rfl, fun _ => rfl⟩,
        by simp, rfl, budget, by simp, fun tp => ?_, fun tp mem => ?_⟩, rfl⟩
      · simpa [sentTo] using budget
      · rw [Cascade.lookup_primaryTried _ mem]
        rfl

end HedgeAttempts

/-- `runHedgingAttempts` ends after a bounded number of steps and at most `MaxHedgeAgents - 1`
waves, sends every pending partition of a wave to one agent, never sends a partition to an agent
again, reports the waves, and asks the strategy once a partition. Without a start there is no
loop: that is a call with a repeated partition (`HedgeAttempts.exists_start_iff`). -/
theorem hedging_attempts_bounded (strategy : Nat → TopicPartition → List Agent)
    {call : HedgeAttemptsCall} (budget : 1 ≤ call.maxHedgeAgents) {start a : HedgeAttempts}
    (started : HedgeAttempts.start strategy call = .ok start) {actions : List AttemptsAction}
    (runs : Machine.run (HedgeAttempts.step strategy call) start actions = some a) :
    actions.length ≤ (call.maxHedgeAgents - 1) * (call.partitions.length + 2) + 4 ∧
      ((∃ exhaustion, a.cascade.phase = .stopped exhaustion) ∨
        ∃ action, (a.step strategy call action).isSome) ∧
      a.waves.length ≤ call.maxHedgeAgents - 1 ∧
      (∀ w ∈ a.waves, w.pending.Nodup ∧ (w.sends.map Prod.fst).Perm w.pending) ∧
      (∀ tp, (call.primaryID :: a.sentTo tp).Nodup ∧
        (call.primaryID :: a.sentTo tp).length ≤ call.maxHedgeAgents) ∧
      (∀ exhaustion deadlineReached orders,
        (a.cascade.outcome exhaustion a.ctxErr deadlineReached orders).attempts =
          1 + a.waves.length) ∧
      a.candidates.queries.Nodup := by
  obtain ⟨begun, full⟩ := HedgeAttempts.inv_start budget started
  have keeps (a : HedgeAttempts) (action : AttemptsAction) (a' : HedgeAttempts)
      (inv : ∃ c, a.Inv call c) (stepped : a.step strategy call action = some a') :
      ∃ c, a'.Inv call c := inv.elim fun _ inv => (inv.step stepped).1
  obtain ⟨c, inv⟩ := Machine.invariant_run_all (fun a => ∃ c, HedgeAttempts.Inv call a c) keeps
    begun runs
  have bounded := Machine.length_run_le (fun a => ∃ c, HedgeAttempts.Inv call a c)
    (HedgeAttempts.fuel call) keeps
    (fun a action a' inv stepped => inv.elim fun _ inv => (inv.step stepped).2) begun runs
  obtain ⟨tried, same, -⟩ := inv.refines
  refine ⟨by omega, ?_, Nat.le_sub_of_add_le inv.budget, inv.waves, inv.sent, ?_, inv.memo.distinct⟩
  · cases phase : a.cascade.phase with
    | top => exact Or.inr (inv.exists_step (Or.inl phase))
    | collecting => exact Or.inr (inv.exists_step (Or.inr phase))
    | stopped exhaustion => exact Or.inl ⟨exhaustion, rfl⟩
    | finished =>
        rw [same] at phase
        exact absurd phase inv.unfinished
  · intro exhaustion deadlineReached orders
    rw [Cascade.outcome, same]
    exact inv.count

def twoPartitions : HedgeAttemptsCall :=
  { maxHedgeAgents := 3, primaryID := 1, partitions := [⟨"t", 0, [], {}⟩, ⟨"t", 1, [], {}⟩] }

/-- A strategy that lists the primary and an agent twice, and the agents of the second partition
in another order. -/
def repeating : Nat → TopicPartition → List Agent := fun _ tp =>
  if tp.partition = 0 then [{ nodeID := 1 }, { nodeID := 2 }, { nodeID := 2 }, { nodeID := 3 }]
  else [{ nodeID := 3 }, { nodeID := 1 }, { nodeID := 2 }]

/-- Both legs of the first wave fail, and the second wave sends each partition to the agent that
the other one has tried. -/
def twoWaves : List AttemptsAction :=
  let first := ⟨"t", 0, [], {}⟩
  let second := ⟨"t", 1, [], {}⟩
  let failed : ProduceResult := { err := some GoError.contextDeadlineExceeded }
  [.cascade (.wave [first, second] [⟨2, [first]⟩, ⟨3, [second]⟩]), .cascade (.legResult 1 failed),
    .cascade (.legResult 0 failed), .cascade (.wave [second, first] [⟨2, [second]⟩, ⟨3, [first]⟩])]

theorem hedging_attempts_bounded_two :
    ∃ start a : HedgeAttempts, HedgeAttempts.start repeating twoPartitions = .ok start ∧
      Machine.run (HedgeAttempts.step repeating twoPartitions) start twoWaves = some a ∧
      a.waves.length = 2 ∧ a.sentTo ⟨"t", 0⟩ = [2, 3] ∧ a.sentTo ⟨"t", 1⟩ = [3, 2] ∧
      (∀ w ∈ a.waves, w.pending.Nodup ∧ (w.sends.map Prod.fst).Perm w.pending) ∧
      (∀ tp, (1 :: a.sentTo tp).Nodup ∧ (1 :: a.sentTo tp).length ≤ 3) ∧
      a.candidates.queries.Nodup := by
  obtain ⟨start, started⟩ : ∃ start, HedgeAttempts.start repeating twoPartitions = .ok start :=
    HedgeAttempts.exists_start_iff.mpr (by decide)
  have state : (HedgeAttempts.start repeating twoPartitions).toOption.bind (fun start =>
      (Machine.run (HedgeAttempts.step repeating twoPartitions) start twoWaves).map fun a =>
        (a.waves.length, a.sentTo ⟨"t", 0⟩, a.sentTo ⟨"t", 1⟩)) = some (2, [2, 3], [3, 2]) := by
    decide +kernel
  rw [started] at state
  obtain ⟨a, runs, eq⟩ := Option.map_eq_some_iff.mp state
  obtain ⟨count, eq⟩ := Prod.mk.inj eq
  obtain ⟨first, second⟩ := Prod.mk.inj eq
  obtain ⟨-, -, -, pending, sent, -, queries⟩ :=
    hedging_attempts_bounded repeating (by decide) started runs
  exact ⟨start, a, started, runs, count, first, second, pending, sent, queries⟩

end Warpstream
