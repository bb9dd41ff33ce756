import Warpstream.CachedAgentStatsTracker

set_option autoImplicit false

/- No interleaving of `ClusterStats` and `PurgeAgents` calls brings purged stats back into the
cache. -/
namespace Warpstream

abbrev CacheThreads := Threads CacheState CacheOp CacheOp.Ret Unit

inductive CacheAction where
  | clusterStats (now : Time) (slowMultiplier faultyThreshold : ℚ)
  | purgeAgents (nodeIDs : List Int)
  | run (i : Nat) (stats : Option ClusterStats)

def CacheThreads.step (cacheTTL : Int) (s : CacheThreads) : CacheAction → Option CacheThreads
  | .clusterStats now slowMultiplier faultyThreshold => some
      (s.start (CachedAgentStatsTracker.clusterStats cacheTTL now slowMultiplier faultyThreshold))
  | .purgeAgents nodeIDs => some (s.start (CachedAgentStatsTracker.purgeAgents nodeIDs))
  | .run i stats => s.run CacheState.handle i stats

namespace CacheState

/-- What every operation respects. -/
structure Grows (s s' : CacheState) : Prop where
  tick : s.tick < s'.tick
  gen : s.cachePurgeGen ≤ s'.cachePurgeGen
  sameGen : s'.cachePurgeGen = s.cachePurgeGen → s'.cleared = s.cleared
  cleared : s.cleared ⊆ s'.cleared
  computations : s.computations ⊆ s'.computations
  purges : ∀ p ∈ s'.purges, p ∈ s.purges ∨ s.tick ≤ p.returnedAt

theorem handle_grows {o : CacheOp} {input : Option ClusterStats} {s s' : CacheState} {r : o.Ret}
    (handled : handle o input s = some (r, s')) : s.Grows s' := by
  have ticks : s.Grows s.next :=
    ⟨Nat.lt_succ_self _, le_rfl, fun _ => rfl, fun _ mem => mem, fun _ mem => mem,
      fun _ mem => Or.inl mem⟩
  cases o with
  | enter | lookup | readGen | beginCompute | removeInner | unlockRefresh | leave =>
      cases handled
      exact ⟨ticks.tick, ticks.gen, ticks.sameGen, ticks.cleared, ticks.computations, ticks.purges⟩
  | lockRefresh =>
      simp only [handle] at handled
      split at handled
      · cases handled
      · cases handled
        exact ⟨ticks.tick, ticks.gen, ticks.sameGen, ticks.cleared, ticks.computations,
          ticks.purges⟩
  | endCompute key now caller began =>
      cases handled
      exact { ticks with computations := List.subset_append_left _ _ }
  | store key gen entry =>
      cases handled
      split
      · exact ⟨ticks.tick, ticks.gen, ticks.sameGen, ticks.cleared, ticks.computations,
          ticks.purges⟩
      · exact ticks
  | clearCache removedAt =>
      cases handled
      refine ⟨ticks.tick, Nat.le_succ _, fun same => ?_, List.subset_append_left _ _,
        ticks.computations, ticks.purges⟩
      simp at same
  | leavePurge removedAt =>
      cases handled
      refine ⟨ticks.tick, ticks.gen, ticks.sameGen, ticks.cleared, ticks.computations,
        fun p mem => ?_⟩
      rcases List.mem_append.mp mem with old | new
      · exact Or.inl old
      · rw [List.mem_singleton.mp new]
        exact Or.inr le_rfl

/-- A return as it should be: its stats were computed for its parameters, in the call itself or
less than `cacheTTL` before, and not before the removal of a purge that had returned when the
call started. -/
structure Sound (cacheTTL : Int) (s : CacheState) (ret : ClusterStatsReturn) : Prop where
  started : ret.started < s.tick
  computed : ret.result ∈ s.computations
  key : ret.result.key = ret.key
  fresh : ret.cached = true → ∀ p ∈ s.purges, p.returnedAt ≤ ret.started →
    p.removedAt ≤ ret.result.began
  source : (ret.cached = true ∧ ret.now.since ret.result.now < cacheTTL) ∨
    (ret.cached = false ∧ ret.result.caller = ret.started)

structure Inv (cacheTTL : Int) (s : CacheState) : Prop where
  entries : ∀ key e, s.cache.lookup key = some e →
    ⟨key, e.computedAt, e.stats, e.caller, e.began⟩ ∈ s.computations ∧
      ∀ r ∈ s.cleared, r ≤ e.began
  cleared : ∀ r ∈ s.cleared, r < s.tick
  purges : ∀ p ∈ s.purges, p.removedAt ∈ s.cleared
  returns : ∀ ret ∈ s.returns, s.Sound cacheTTL ret

variable {cacheTTL : Int} {s s' : CacheState}

theorem inv_initial : Inv cacheTTL {} := ⟨by simp, by simp, by simp, by simp⟩

theorem Sound.grows {ret : ClusterStatsReturn} (sound : s.Sound cacheTTL ret)
    (grows : s.Grows s') : s'.Sound cacheTTL ret := by
  refine ⟨sound.started.trans grows.tick, grows.computations sound.computed, sound.key,
    fun cached p mem before => ?_, sound.source⟩
  rcases grows.purges p mem with old | new
  · exact sound.fresh cached p old before
  · have started := sound.started
    omega

/-- What an operation may rely on when it is performed. -/
def Pre (cacheTTL : Int) (s : CacheState) : CacheOp → Prop
  | .store key gen e => ⟨key, e.computedAt, e.stats, e.caller, e.began⟩ ∈ s.computations ∧
      (s.cachePurgeGen = gen → ∀ r ∈ s.cleared, r ≤ e.began)
  | .leave ret => s.Sound cacheTTL ret
  | .clearCache removedAt => removedAt < s.tick
  | .leavePurge removedAt => removedAt ∈ s.cleared
  | _ => True

theorem Inv.handle {o : CacheOp} {input : Option ClusterStats} {r : o.Ret}
    (inv : s.Inv cacheTTL) (pre : s.Pre cacheTTL o)
    (handled : CacheState.handle o input s = some (r, s')) : s'.Inv cacheTTL := by
  have grows := handle_grows handled
  have returns : ∀ ret ∈ s.returns, s'.Sound cacheTTL ret :=
    fun ret mem => (inv.returns ret mem).grows grows
  have cleared : ∀ r ∈ s.cleared, r < s'.tick := fun r mem => (inv.cleared r mem).trans grows.tick
  cases o with
  | enter | lookup | readGen | beginCompute | removeInner | unlockRefresh =>
      cases handled
      exact ⟨inv.entries, cleared, inv.purges, returns⟩
  | lockRefresh =>
      simp only [CacheState.handle] at handled
      split at handled
      · cases handled
      · cases handled
        exact ⟨inv.entries, cleared, inv.purges, returns⟩
  | endCompute key now caller began =>
      cases handled
      refine ⟨fun key e found => ?_, cleared, inv.purges, returns⟩
      obtain ⟨computed, fresh⟩ := inv.entries key e found
      exact ⟨List.mem_append_left _ computed, fresh⟩
  | store key gen entry =>
      cases handled
      split at returns
      · rename_i current
        rw [if_pos current] at cleared ⊢
        refine ⟨fun other e found => ?_, cleared, inv.purges, returns⟩
        by_cases same : other = key
        · subst same
          obtain rfl := Option.some.inj ((AList.lookup_insert _).symm.trans found)
          exact ⟨pre.1, pre.2 current⟩
        · exact inv.entries other e ((AList.lookup_insert_ne same).symm.trans found)
      · rename_i stale
        rw [if_neg stale] at cleared ⊢
        exact ⟨inv.entries, cleared, inv.purges, returns⟩
  | leave ret =>
      cases handled
      refine ⟨inv.entries, cleared, inv.purges, fun other mem => ?_⟩
      rcases List.mem_append.mp mem with old | new
      · exact returns other old
      · rw [List.mem_singleton.mp new]
        exact Sound.grows pre grows
  | clearCache removedAt =>
      cases handled
      refine ⟨fun key e found => ?_, fun r mem => ?_, fun p mem => ?_, returns⟩
      · cases found
      · rcases List.mem_append.mp mem with old | new
        · exact cleared r old
        · rw [List.mem_singleton.mp new]
          exact Nat.lt_succ_of_lt pre
      · exact List.mem_append_left _ (inv.purges p mem)
  | leavePurge removedAt =>
      cases handled
      refine ⟨inv.entries, cleared, fun p mem => ?_, returns⟩
      rcases List.mem_append.mp mem with old | new
      · exact inv.purges p old
      · rw [List.mem_singleton.mp new]
        exact pre

end CacheState

namespace CachedAgentStatsTracker

open RelyGuarantee

abbrev Safe {α : Type} (cacheTTL : Int) (p : CacheProgram α) (P : CacheState → Prop) : Prop :=
  RelyGuarantee.Safe CacheState.handle (CacheState.Inv cacheTTL) CacheState.Grows p P

variable {cacheTTL : Int}

/-- An operation whose precondition holds, and what is known after it. -/
theorem safe_perform {o : CacheOp} {f : o.Ret → CacheProgram Unit} {P : CacheState → Prop}
    (Q : o.Ret → CacheState → Prop) (stable : ∀ r, Stable CacheState.Grows (Q r))
    (pre : ∀ s, P s → s.Pre cacheTTL o)
    (post : ∀ s input r s', s.Inv cacheTTL → P s → s.Grows s' →
      CacheState.handle o input s = some (r, s') → Q r s')
    (later : ∀ r, Safe cacheTTL (f r) (Q r)) : Safe cacheTTL (perform o >>= f) P := by
  intro s input r s' inv holds handled
  have grows := CacheState.handle_grows handled
  exact ⟨inv.handle (pre s holds) handled, grows, Q r, stable r,
    post s input r s' inv holds grows handled, later r⟩

/-- The last operation of a call. -/
theorem safe_last {o : CacheOp} {P : CacheState → Prop} (pre : ∀ s, P s → s.Pre cacheTTL o) :
    Safe cacheTTL (perform o) P := by
  intro s input r s' inv holds handled
  exact ⟨inv.handle (pre s holds) handled, CacheState.handle_grows handled, fun _ => True,
    fun _ _ _ _ => trivial, trivial, trivial⟩

/-- The number of an operation that has been performed. -/
def Passed (tick : Nat) (s : CacheState) : Prop := tick < s.tick

theorem stable_passed (tick : Nat) : Stable CacheState.Grows (Passed tick) :=
  fun _ _ before grows => before.trans grows.tick

theorem stable_sound (ret : ClusterStatsReturn) :
    Stable CacheState.Grows fun s => s.Sound cacheTTL ret :=
  fun _ _ sound grows => sound.grows grows

/-- The generation that a call has read, and that nothing was cleared since its inner call
began if the generation is still the same. -/
def GenRead (gen began : Nat) (s : CacheState) : Prop :=
  gen ≤ s.cachePurgeGen ∧ (s.cachePurgeGen = gen → ∀ r ∈ s.cleared, r ≤ began)

theorem stable_genRead (gen began : Nat) : Stable CacheState.Grows (GenRead gen began) := by
  rintro s s' ⟨read, clean⟩ grows
  refine ⟨read.trans grows.gen, fun same r mem => ?_⟩
  have before : s.cachePurgeGen = gen := le_antisymm (same ▸ grows.gen) read
  rw [grows.sameGen (same.trans before.symm)] at mem
  exact clean before r mem

theorem since_lt_of_sub_lt {t u : Time} (range : cacheTTL < 2 ^ 63)
    (young : ¬ cacheTTL ≤ t.sub u) : t.since u < cacheTTL := by
  unfold Time.sub at young
  unfold Time.since
  omega

theorem lookup_bind (key : ClusterStatsCacheKey) (now : Time)
    (f : Option ClusterStatsCacheEntry → CacheProgram Unit) :
    lookup cacheTTL key now >>= f = perform (.lookup key) >>= fun entry =>
      f (Option.filter (fun e => ¬ cacheTTL ≤ now.sub e.computedAt) entry) := by
  refine congrArg (Program.op (CacheOp.lookup key)) (funext fun entry => ?_)
  cases entry with
  | none => rfl
  | some e =>
      change Program.bind (if _ then _ else _) f = f (Option.filter _ (some e))
      by_cases old : cacheTTL ≤ now.sub e.computedAt
      · rw [if_pos old, Option.filter_some_neg (by simpa using old)]
        rfl
      · rw [if_neg old, Option.filter_some_pos (by simpa using old)]
        rfl

/-- A lookup of a call: either it goes on, or it has an entry that may be returned. -/
theorem safe_lookup (range : cacheTTL < 2 ^ 63) {key : ClusterStatsCacheKey} {now : Time}
    {started : Nat} {f : Option ClusterStatsCacheEntry → CacheProgram Unit}
    (miss : Safe cacheTTL (f none) (Passed started))
    (found : ∀ e, Safe cacheTTL (f (some e)) fun s => s.Sound cacheTTL (hit key now started e)) :
    Safe cacheTTL (lookup cacheTTL key now >>= f) (Passed started) := by
  let young : ClusterStatsCacheEntry → Bool := fun e => ¬ cacheTTL ≤ now.sub e.computedAt
  let known : Option ClusterStatsCacheEntry → CacheState → Prop
    | none, s => Passed started s
    | some e, s => s.Sound cacheTTL (hit key now started e)
  rw [lookup_bind]
  refine safe_perform (fun (r : Option ClusterStatsCacheEntry) => known (r.filter young)) ?_
    (fun _ _ => trivial) ?_ ?_
  · intro r
    cases r.filter young with
    | none => exact stable_passed started
    | some e => exact stable_sound _
  · intro s input r s' inv before grows handled
    obtain ⟨rfl, -⟩ := Prod.mk.inj (Option.some.inj handled)
    cases entry : Option.filter young (s.cache.lookup key) with
    | none => exact before.trans grows.tick
    | some e =>
        obtain ⟨present, isYoung⟩ := Option.filter_eq_some_iff.mp entry
        obtain ⟨computed, fresh⟩ := inv.entries key e present
        refine CacheState.Sound.grows ⟨before, computed, rfl, ?_, ?_⟩ grows
        · exact fun _ p mem _ => fresh p.removedAt (inv.purges p mem)
        · exact Or.inl ⟨rfl, since_lt_of_sub_lt range (of_decide_eq_true isYoung)⟩
  · intro r
    cases entry : Option.filter young r with
    | none => exact miss
    | some e => exact found e

theorem safe_clusterStats (range : cacheTTL < 2 ^ 63) (now : Time)
    (slowMultiplier faultyThreshold : ℚ) :
    Safe cacheTTL (clusterStats cacheTTL now slowMultiplier faultyThreshold) fun _ => True := by
  unfold clusterStats
  refine safe_perform Passed stable_passed
    (fun _ _ => trivial) ?_ fun started => ?_
  · intro s input r s' inv _ grows handled
    obtain ⟨rfl, rfl⟩ := Prod.mk.inj (Option.some.inj handled)
    exact grows.tick
  refine safe_lookup range ?_ fun e => safe_last fun _ sound => sound
  refine safe_perform (fun _ => Passed started) (fun _ => stable_passed started)
    (fun _ _ => trivial) (fun s _ _ s' _ before grows _ => before.trans grows.tick) fun _ => ?_
  refine safe_lookup range ?_ fun e => ?_
  · -- the miss: what is known of the generation carries over to the store
    refine safe_perform (fun (gen : Nat) s => Passed started s ∧ gen ≤ s.cachePurgeGen)
      (fun gen s s' known grows => ⟨known.1.trans grows.tick, known.2.trans grows.gen⟩)
      (fun _ _ => trivial) ?_ fun gen => ?_
    · intro s input r s' inv before grows handled
      obtain ⟨rfl, rfl⟩ := Prod.mk.inj (Option.some.inj handled)
      exact ⟨before.trans grows.tick, le_rfl⟩
    refine safe_perform (fun (began : Nat) s => Passed started s ∧ GenRead gen began s)
      (fun began s s' known grows =>
        ⟨known.1.trans grows.tick, stable_genRead gen began s s' known.2 grows⟩)
      (fun _ _ => trivial) ?_ fun began => ?_
    · intro s input r s' inv known grows handled
      obtain ⟨rfl, rfl⟩ := Prod.mk.inj (Option.some.inj handled)
      exact ⟨known.1.trans grows.tick, known.2, fun _ r mem => (inv.cleared r mem).le⟩
    let key : ClusterStatsCacheKey := ⟨slowMultiplier, faultyThreshold⟩
    refine safe_perform (fun (stats : Option ClusterStats) s => (Passed started s ∧
        (⟨key, now, stats, started, began⟩ : Computation) ∈ s.computations) ∧ GenRead gen began s)
      (fun stats s s' known grows =>
        ⟨⟨known.1.1.trans grows.tick, grows.computations known.1.2⟩,
          stable_genRead gen began s s' known.2 grows⟩)
      (fun _ _ => trivial) ?_ fun stats => ?_
    · intro s input r s' inv known grows handled
      have read := stable_genRead gen began s s' known.2 grows
      obtain ⟨rfl, rfl⟩ := Prod.mk.inj (Option.some.inj handled)
      exact ⟨⟨known.1.trans grows.tick, List.mem_append_right _ (List.mem_singleton_self _)⟩, read⟩
    have own {s : CacheState} (before : Passed started s)
        (computed : (⟨key, now, stats, started, began⟩ : Computation) ∈ s.computations) :
        s.Sound cacheTTL ⟨key, now, started, ⟨key, now, stats, started, began⟩, false⟩ :=
      ⟨before, computed, rfl, nofun, Or.inr ⟨rfl, rfl⟩⟩
    refine safe_perform (fun _ s => s.Sound cacheTTL _) (fun _ => stable_sound _)
      (fun s known => ⟨known.1.2, known.2.2⟩)
      (fun s _ _ s' _ known grows _ => (own known.1.1 known.1.2).grows grows) fun _ => ?_
    exact safe_perform (fun _ s => s.Sound cacheTTL _) (fun _ => stable_sound _)
      (fun _ _ => trivial) (fun s _ _ s' _ sound grows _ => sound.grows grows) fun _ =>
        safe_last fun _ sound => sound
  · exact safe_perform (fun _ s => s.Sound cacheTTL _) (fun _ => stable_sound _)
      (fun _ _ => trivial) (fun s _ _ s' _ sound grows _ => sound.grows grows) fun _ =>
        safe_last fun _ sound => sound

theorem safe_purgeAgents (nodeIDs : List Int) :
    Safe cacheTTL (purgeAgents nodeIDs) fun _ => True := by
  unfold purgeAgents
  refine safe_perform Passed stable_passed
    (fun _ _ => trivial) ?_ fun removedAt => ?_
  · intro s input r s' inv _ grows handled
    obtain ⟨rfl, rfl⟩ := Prod.mk.inj (Option.some.inj handled)
    exact grows.tick
  refine safe_perform (fun _ s => removedAt ∈ s.cleared)
    (fun _ s s' mem grows => grows.cleared mem) (fun _ before => before) ?_ fun _ => ?_
  · intro s input r s' inv _ grows handled
    obtain ⟨rfl, rfl⟩ := Prod.mk.inj (Option.some.inj handled)
    exact List.mem_append_right _ (List.mem_singleton_self _)
  · exact safe_last fun _ mem => mem

end CachedAgentStatsTracker

/-- In every run each `ClusterStats` call returns stats that the inner tracker computed for its
parameters, in the call itself or less than `cacheTTL` before its time, and a cached result
never stems from an inner call that began before the removal of a purge which had returned
when the call started. -/
theorem cached_stats_not_older_than_purge {cacheTTL : Int} (range : cacheTTL < 2 ^ 63)
    {actions : List CacheAction} {s : CacheThreads}
    (runs : Machine.run (CacheThreads.step cacheTTL) ⟨{}, []⟩ actions = some s) :
    ∀ ret ∈ s.shared.returns,
      (ret.cached = true → ∀ p ∈ s.shared.purges, p.returnedAt ≤ ret.started →
        ¬ ret.result.began < p.removedAt) ∧
      ret.result ∈ s.shared.computations ∧ ret.result.key = ret.key ∧
      ((ret.cached = true ∧ ret.now.since ret.result.now < cacheTTL) ∨
        (ret.cached = false ∧ ret.result.caller = ret.started)) := by
  have threaded : RelyGuarantee.Threaded CacheState.handle (CacheState.Inv cacheTTL)
      CacheState.Grows s := by
    refine Machine.invariant_run_all (RelyGuarantee.Threaded CacheState.handle
      (CacheState.Inv cacheTTL) CacheState.Grows) ?_ ⟨CacheState.inv_initial, by simp⟩ runs
    intro s a s' threaded stepped
    cases a with
    | clusterStats now slow faulty =>
        obtain rfl := Option.some.inj stepped
        exact threaded.start (CachedAgentStatsTracker.safe_clusterStats range now slow faulty)
    | purgeAgents nodeIDs =>
        obtain rfl := Option.some.inj stepped
        exact threaded.start (CachedAgentStatsTracker.safe_purgeAgents nodeIDs)
    | run i stats => exact threaded.run stepped
  intro ret mem
  have sound := threaded.inv.returns ret mem
  exact ⟨fun cached p purged before => not_lt.mpr (sound.fresh cached p purged before),
    sound.computed, sound.key, sound.source⟩

/-- A purge, a call that computes, and a call that is served from the cache. -/
def purgeThenHit : List CacheAction :=
  [.purgeAgents [1], .run 0 none, .run 0 none, .run 0 none,
    .clusterStats (.unix 1000) 2 (1 / 2)] ++ List.replicate 10 (.run 1 (some {})) ++
    [.clusterStats (.unix 1001) 2 (1 / 2)] ++ List.replicate 3 (.run 2 none)

theorem cached_stats_not_older_than_purge_hit :
    ∃ s, Machine.run (CacheThreads.step 5000000000) ⟨{}, []⟩ purgeThenHit = some s ∧
      ∃ ret ∈ s.shared.returns, ret.cached = true ∧ ∃ p ∈ s.shared.purges,
        p.returnedAt ≤ ret.started ∧ ¬ ret.result.began < p.removedAt := by
  have ran : (Machine.run (CacheThreads.step 5000000000) ⟨{}, []⟩ purgeThenHit).any (fun s =>
      s.shared.returns.any fun ret => ret.cached && s.shared.purges.any fun p =>
        p.returnedAt ≤ ret.started) = true := by decide +kernel
  obtain ⟨s, runs, shape⟩ := (Option.any_eq_true _ _).mp ran
  obtain ⟨ret, mem, both⟩ := List.any_eq_true.mp shape
  obtain ⟨cached, purged⟩ := Bool.and_eq_true_iff.mp both
  obtain ⟨p, done, before⟩ := List.any_eq_true.mp purged
  have before := of_decide_eq_true before
  exact ⟨s, runs, ret, mem, cached, p, done, before,
    (cached_stats_not_older_than_purge (by norm_num) runs ret mem).1 cached p done before⟩

end Warpstream
