import Warpstream.AgentStatsTracker

set_option autoImplicit false

/- The rolling window is exact: the buckets are an epoch ring, so a snapshot sums up exactly
the requests of the last epochs. -/
namespace Warpstream

open EpochRing

/-- The 10-second epoch of a time. -/
def epoch (now : Time) : Int := now.unixNano.tdiv bucketDurationNs

/-- The arguments of a `TrackAgentRequest` call. -/
structure AgentRequest where
  now : Time
  nodeID : Int
  latency : Nat := 0
  err : Option GoError := none

namespace AgentRequest

/-- Calls that were cut short by their caller are not counted. -/
def counted (r : AgentRequest) : Bool := !errIs r.err .contextCanceled

def latencyMs (r : AgentRequest) : Nat := r.latency / 1000000

/-- What a request adds: its latency and one success, or one failure. -/
def amount (r : AgentRequest) : Nat × Nat × Nat :=
  if r.err = none then (r.latencyMs, 1, 0) else (0, 0, 1)

theorem amount_counts (r : AgentRequest) : r.amount.2.1 + r.amount.2.2 = 1 := by
  unfold amount
  split <;> rfl

end AgentRequest

/-- What the requests of a bucket add up to. -/
def AverageAgentStatsBucket.amount (b : AverageAgentStatsBucket) : Nat × Nat × Nat :=
  (b.successfulLatencySumMs, b.successfulLatencyCount, b.faultyCount)

instance : NeZero numStatsBuckets := ⟨by decide⟩

namespace AverageAgentStats

/-- The buckets of an agent are the slots of an epoch ring. -/
structure Refines (s : AverageAgentStats)
    (ring : Fin numStatsBuckets → Slot (Nat × Nat × Nat)) : Prop where
  epochStart : ∀ i, (s.buckets i).epochStart = (ring i).epoch * bucketDurationNs
  amount : ∀ i, (s.buckets i).amount = (ring i).value

theorem refines_empty : Refines {} empty :=
  ⟨fun _ => by simp [empty], fun _ => rfl⟩

theorem bucketIndex_eq {nowNs : Int} (nonneg : 0 ≤ nowNs) :
    bucketIndex nowNs = Fin.ofNat numStatsBuckets (nowNs.tdiv bucketDurationNs).toNat := by
  have quotient : 0 ≤ nowNs.tdiv bucketDurationNs := Int.tdiv_nonneg nonneg (by decide)
  apply Fin.ext
  simp only [bucketIndex, Fin.val_ofNat]
  rw [Int.tmod_eq_emod_of_nonneg quotient]
  have slots : (numStatsBuckets : Int) = 6 := rfl
  have slots' : numStatsBuckets = 6 := rfl
  rw [slots, slots']
  split <;> omega

theorem mul_bucketDurationNs_inj {a b : Nat} :
    (a : Int) * bucketDurationNs = b * bucketDurationNs ↔ a = b := by
  unfold bucketDurationNs
  omega

/-- The bucket that a request finds. -/
theorem Refines.currentBucket {s : AverageAgentStats}
    {ring : Fin numStatsBuckets → Slot (Nat × Nat × Nat)} (refines : Refines s ring) {nowNs : Int}
    (nonneg : 0 ≤ nowNs) {e : Nat} (current : nowNs.tdiv bucketDurationNs = e) :
    (s.currentBucket nowNs).epochStart = e * bucketDurationNs ∧
      (s.currentBucket nowNs).amount =
        if (ring (Fin.ofNat _ e)).epoch = e then (ring (Fin.ofNat _ e)).value else 0 := by
  have index : bucketIndex nowNs = Fin.ofNat numStatsBuckets e := by
    rw [bucketIndex_eq nonneg, current, Int.toNat_natCast]
  have start := refines.epochStart (Fin.ofNat numStatsBuckets e)
  unfold AverageAgentStats.currentBucket
  dsimp only
  rw [current, index, start]
  by_cases held : (ring (Fin.ofNat numStatsBuckets e)).epoch = e
  · simp only [held, ne_eq, not_true_eq_false, ↓reduceIte, refines.amount, start, and_self]
  · simp only [mul_bucketDurationNs_inj, held, ne_eq, not_false_eq_true, ↓reduceIte, true_and]
    rfl

/-- Tracking a request adds its amount to the slot of its epoch. -/
theorem Refines.track {s : AverageAgentStats} {ring : Fin numStatsBuckets → Slot (Nat × Nat × Nat)}
    (refines : Refines s ring) (r : AgentRequest) (nonneg : 0 ≤ r.now.unixNano) :
    Refines (s.track r.now.unixNano r.latency r.err) (add ring (epoch r.now).toNat r.amount) := by
  have quotient : 0 ≤ epoch r.now := Int.tdiv_nonneg nonneg (by decide)
  obtain ⟨e, current⟩ := Int.eq_ofNat_of_zero_le quotient
  have index : bucketIndex r.now.unixNano = Fin.ofNat numStatsBuckets e := by
    rw [bucketIndex_eq nonneg]
    change Fin.ofNat numStatsBuckets (epoch r.now).toNat = _
    rw [current, Int.toNat_natCast]
  obtain ⟨start, before⟩ := refines.currentBucket nonneg current
  rw [current, Int.toNat_natCast]
  have other {i : Fin numStatsBuckets} (different : i ≠ Fin.ofNat numStatsBuckets e) :
      add ring e r.amount i = ring i ∧
        (s.track r.now.unixNano r.latency r.err).buckets i = s.buckets i := by
    refine ⟨Function.update_of_ne different _ _, ?_⟩
    unfold AverageAgentStats.track
    rw [index]
    exact Function.update_of_ne different _ _
  have here : add ring e r.amount (Fin.ofNat numStatsBuckets e) =
      ⟨e, (s.currentBucket r.now.unixNano).amount + r.amount⟩ := by
    rw [before]
    exact Function.update_self _ _ _
  have bucket : ((s.track r.now.unixNano r.latency r.err).buckets (Fin.ofNat _ e)).epochStart =
        (s.currentBucket r.now.unixNano).epochStart ∧
      ((s.track r.now.unixNano r.latency r.err).buckets (Fin.ofNat _ e)).amount =
        (s.currentBucket r.now.unixNano).amount + r.amount := by
    unfold AverageAgentStats.track AgentRequest.amount
    dsimp only
    rw [index, Function.update_self]
    split <;> exact ⟨rfl, rfl⟩
  constructor
  · intro i
    by_cases same : i = Fin.ofNat numStatsBuckets e
    · subst same
      rw [here, bucket.1, start]
    · rw [(other same).1, (other same).2]
      exact refines.epochStart i
  · intro i
    by_cases same : i = Fin.ofNat numStatsBuckets e
    · subst same
      rw [here, bucket.2]
    · rw [(other same).1, (other same).2]
      exact refines.amount i

/-- The additions that a list of requests makes. -/
def log (requests : List AgentRequest) : List (Nat × Nat × Nat × Nat) :=
  requests.map fun r => ((epoch r.now).toNat, r.amount)

def trackAll (s : AverageAgentStats) (requests : List AgentRequest) : AverageAgentStats :=
  requests.foldl (fun s r => s.track r.now.unixNano r.latency r.err) s

theorem Refines.trackAll {s : AverageAgentStats}
    {ring : Fin numStatsBuckets → Slot (Nat × Nat × Nat)} (refines : Refines s ring)
    {requests : List AgentRequest} (nonneg : ∀ r ∈ requests, 0 ≤ r.now.unixNano) :
    Refines (s.trackAll requests) (addAll ring (log requests)) := by
  induction requests generalizing s ring with
  | nil => exact refines
  | cons r rest ih =>
      exact ih (refines.track r (nonneg r List.mem_cons_self))
        fun r mem => nonneg r (List.mem_cons_of_mem _ mem)

theorem counts_total (requests : List AgentRequest) (e : Nat) :
    (total (log requests) e).2.1 + (total (log requests) e).2.2 =
      (requests.filter fun r => (epoch r.now).toNat = e).length := by
  induction requests with
  | nil => rfl
  | cons r rest ih =>
      have cons : total (log (r :: rest)) e =
          (if (epoch r.now).toNat = e then r.amount else 0) + total (log rest) e := by
        by_cases same : (epoch r.now).toNat = e <;> simp [total, log, same]
      rw [cons]
      by_cases same : (epoch r.now).toNat = e
      · have one := r.amount_counts
        simp only [same, ↓reduceIte, Prod.snd_add, Prod.fst_add, decide_true,
          List.filter_cons_of_pos, List.length_cons]
        omega
      · simpa [same] using ih

/-- An amount without requests is zero. -/
theorem total_eq_zero_of_counts {requests : List AgentRequest} {e : Nat}
    (none : (total (log requests) e).2.1 + (total (log requests) e).2.2 = 0) :
    total (log requests) e = 0 := by
  rw [counts_total, List.length_eq_zero_iff, List.filter_eq_nil_iff] at none
  apply total_eq_zero
  intro x mem same
  obtain ⟨r, inside, rfl⟩ := List.mem_map.mp mem
  exact none r inside (decide_eq_true same)

/-- The epochs of the window that ends with `now`. -/
def window (now : Nat) : Finset Nat := (Finset.range (now + 1)).filter (now < · + numStatsBuckets)

/-- A function of an amount that counts only where there are requests. -/
def ifFilled (f : Nat × Nat × Nat → Nat) (v : Nat × Nat × Nat) : Nat :=
  if v.2.1 + v.2.2 = 0 then 0 else f v

/-- The sum over the buckets that a snapshot counts. -/
theorem Refines.sum_counted {s : AverageAgentStats}
    {ring : Fin numStatsBuckets → Slot (Nat × Nat × Nat)} (refines : Refines s ring) {nowNs : Int}
    {e : Nat} (current : nowNs.tdiv bucketDurationNs = e) (f : Nat × Nat × Nat → Nat) :
    ((s.countedBuckets nowNs).map fun b => f b.amount).sum =
      ∑ i, if e < (ring i).epoch + numStatsBuckets then ifFilled f (ring i).value else 0 := by
  have zeros (bs : List AverageAgentStatsBucket) : (bs.map fun _ => 0).sum = 0 := by simp
  have ite := List.sum_map_ite (fun b : AverageAgentStatsBucket =>
    ¬ (b.successfulLatencyCount + b.faultyCount = 0 ∨ b.epochStart <
      nowNs.tdiv bucketDurationNs * bucketDurationNs -
        (numStatsBuckets - 1 : Int) * bucketDurationNs)) (fun b => f b.amount) (fun _ => 0)
    ((List.finRange numStatsBuckets).map s.buckets)
  rw [zeros, add_zero] at ite
  unfold countedBuckets
  rw [← ite, Fin.sum_univ_def, List.map_map]
  congr 1
  refine List.map_congr_left fun i _ => ?_
  have slots : (numStatsBuckets : Int) = 6 := rfl
  have slots' : numStatsBuckets = 6 := rfl
  have counts : (s.buckets i).successfulLatencyCount + (s.buckets i).faultyCount =
      (ring i).value.2.1 + (ring i).value.2.2 := by
    rw [← refines.amount i]
    rfl
  have inside : (s.buckets i).epochStart < nowNs.tdiv bucketDurationNs * bucketDurationNs -
      (numStatsBuckets - 1 : Int) * bucketDurationNs ↔ ¬ e < (ring i).epoch + numStatsBuckets := by
    rw [current, refines.epochStart i, slots, slots']
    unfold bucketDurationNs
    omega
  simp only [Function.comp_apply, counts, inside, refines.amount i, ifFilled, not_or, not_not]
  by_cases old : e < (ring i).epoch + numStatsBuckets
  · simp only [old, and_true, ↓reduceIte, ite_not]
  · simp only [old, and_false, ↓reduceIte]

/-- The same for the buckets of a list of requests, in terms of what was tracked in each
epoch. -/
theorem sum_counted_trackAll {requests : List AgentRequest}
    (nonneg : ∀ r ∈ requests, 0 ≤ r.now.unixNano)
    (late : requests.Pairwise fun earlier later => epoch earlier.now ≤ epoch later.now + 5)
    {nowNs : Int} {e : Nat} (current : nowNs.tdiv bucketDurationNs = e)
    (latest : ∀ r ∈ requests, epoch r.now ≤ e) (f : Nat × Nat × Nat → Nat) :
    (((({} : AverageAgentStats).trackAll requests).countedBuckets nowNs).map fun b =>
      f b.amount).sum = ∑ x ∈ window e, ifFilled f (total (log requests) x) := by
  have ordered : (log requests).Pairwise fun earlier later =>
      earlier.1 < later.1 + numStatsBuckets := by
    rw [log, List.pairwise_map]
    refine late.imp_of_mem ?_
    intro a b _ memB near
    have quotient : 0 ≤ epoch b.now := Int.tdiv_nonneg (nonneg b memB) (by decide)
    have slots : numStatsBuckets = 6 := rfl
    omega
  have bounded : ∀ x ∈ log requests, x.1 ≤ e := by
    intro x mem
    obtain ⟨r, inside, rfl⟩ := List.mem_map.mp mem
    have before := latest r inside
    simp only
    omega
  have holds : EpochRing.Holds (addAll empty (log requests)) (log requests) :=
    holds_addAll holds_empty ordered
  rw [(refines_empty.trackAll nonneg).sum_counted current f]
  exact holds.sum_window (ifFilled f) rfl bounded

theorem ifFilled_total (requests : List AgentRequest) (x : Nat) {f : Nat × Nat × Nat → Nat}
    (zero : f 0 = 0) :
    ifFilled f (total (log requests) x) = f (total (log requests) x) := by
  unfold ifFilled
  split
  · rename_i none
    rw [total_eq_zero_of_counts none, zero]
  · rfl

theorem mem_window {e x : Nat} : x ∈ window e ↔ x ≤ e ∧ e ≤ x + 5 := by
  have slots : numStatsBuckets = 6 := rfl
  simp only [window, Finset.mem_filter, Finset.mem_range, slots]
  omega

/-- The totals of the window, added up, are those of the requests in it. -/
theorem sum_window_total (requests : List AgentRequest) (e : Nat) :
    ∑ x ∈ window e, total (log requests) x =
      ((requests.filter fun r => (epoch r.now).toNat ∈ window e).map AgentRequest.amount).sum := by
  rw [sum_total, log, List.filter_map, List.map_map]
  rfl

theorem sum_amounts (requests : List AgentRequest) :
    (requests.map AgentRequest.amount).sum =
      (((requests.filter fun r => r.err = none).map AgentRequest.latencyMs).sum,
        (requests.filter fun r => r.err = none).length,
        (requests.filter fun r => r.err ≠ none).length) := by
  induction requests with
  | nil => rfl
  | cons r rest ih =>
      rw [List.map_cons, List.sum_cons, ih]
      by_cases ok : r.err = none
      · simp [AgentRequest.amount, ok, Nat.add_comm]
      · simp [AgentRequest.amount, ok, Nat.add_comm]

/-- The epochs of the window with a request. -/
theorem card_filled (requests : List AgentRequest) (nonneg : ∀ r ∈ requests, 0 ≤ epoch r.now)
    (e : Nat) :
    ∑ x ∈ window e, ifFilled (fun _ => 1) (total (log requests) x) =
      ((requests.filter fun r => (epoch r.now).toNat ∈ window e).map
        fun r => epoch r.now).toFinset.card := by
  have one (x : Nat) : ifFilled (fun _ => 1) (total (log requests) x) =
      if ∃ r ∈ requests, (epoch r.now).toNat = x then 1 else 0 := by
    have empty : (total (log requests) x).2.1 + (total (log requests) x).2.2 = 0 ↔
        ¬ ∃ r ∈ requests, (epoch r.now).toNat = x := by
      rw [counts_total, List.length_eq_zero_iff, List.filter_eq_nil_iff]
      simp
    simp only [ifFilled, empty, ite_not]
  simp only [one, Finset.sum_boole, Nat.cast_id]
  refine Finset.card_bij (fun x _ => (x : Int)) ?_ ?_ ?_
  · intro x mem
    obtain ⟨inside, r, own, rfl⟩ := Finset.mem_filter.mp mem
    rw [List.mem_toFinset, List.mem_map]
    refine ⟨r, List.mem_filter.mpr ⟨own, decide_eq_true inside⟩, ?_⟩
    have quotient := nonneg r own
    omega
  · intro a _ b _ same
    exact_mod_cast same
  · intro x mem
    rw [List.mem_toFinset, List.mem_map] at mem
    obtain ⟨r, kept, rfl⟩ := mem
    obtain ⟨own, inside⟩ := List.mem_filter.mp kept
    refine ⟨(epoch r.now).toNat, Finset.mem_filter.mpr ⟨of_decide_eq_true inside, r, own, rfl⟩, ?_⟩
    have quotient := nonneg r own
    omega

/-- The snapshot of the requests of an agent, read no earlier than the last of them. -/
theorem snapshot_trackAll {requests : List AgentRequest}
    (nonneg : ∀ r ∈ requests, 0 ≤ r.now.unixNano)
    (late : requests.Pairwise fun earlier later => epoch earlier.now ≤ epoch later.now + 5)
    {nowNs : Int} {e : Nat} (current : nowNs.tdiv bucketDurationNs = e)
    (latest : ∀ r ∈ requests, epoch r.now ≤ e) :
    let inWindow := requests.filter fun r => (epoch r.now).toNat ∈ window e
    (({} : AverageAgentStats).trackAll requests).snapshot nowNs =
      { successfulRequestsLatencySumMs :=
          ((inWindow.filter fun r => r.err = none).map AgentRequest.latencyMs).sum
        successfulRequestsLatencyCount := (inWindow.filter fun r => r.err = none).length
        faultyRequestsCount := (inWindow.filter fun r => r.err ≠ none).length
        filledBuckets := (inWindow.map fun r => epoch r.now).toFinset.card } := by
  intro inWindow
  have sums (f : Nat × Nat × Nat → Nat) := sum_counted_trackAll nonneg late current latest f
  have parts : ∑ x ∈ window e, total (log requests) x = _ :=
    (sum_window_total requests e).trans (sum_amounts inWindow)
  have projected (f : Nat × Nat × Nat →+ Nat) :
      (((({} : AverageAgentStats).trackAll requests).countedBuckets nowNs).map fun b =>
        f b.amount).sum = f (∑ x ∈ window e, total (log requests) x) := by
    rw [sums f, map_sum]
    exact Finset.sum_congr rfl fun x _ => ifFilled_total requests x (map_zero f)
  have filled := (sums fun _ => 1).trans (card_filled requests
    (fun r mem => Int.tdiv_nonneg (nonneg r mem) (by decide)) e)
  have latencies := projected (AddMonoidHom.fst Nat (Nat × Nat))
  have successes := projected ((AddMonoidHom.fst Nat Nat).comp (AddMonoidHom.snd Nat (Nat × Nat)))
  have failures := projected ((AddMonoidHom.snd Nat Nat).comp (AddMonoidHom.snd Nat (Nat × Nat)))
  rw [parts] at latencies successes failures
  unfold snapshot
  simp only [AverageAgentStatsSnapshot.mk.injEq]
  refine ⟨latencies, successes, failures, ?_⟩
  rw [← filled]
  simp

end AverageAgentStats

namespace AverageAgentStatsTracker

def trackAll (t : AverageAgentStatsTracker) (requests : List AgentRequest) :
    AverageAgentStatsTracker :=
  requests.foldl (fun t r => t.trackAgentRequest r.now r.nodeID r.latency r.err) t

/-- The entry of an agent holds its own counted requests. -/
theorem getOrCreate_trackAll (t : AverageAgentStatsTracker) (requests : List AgentRequest)
    (nodeID : Int) :
    (t.trackAll requests).getOrCreate nodeID =
      (t.getOrCreate nodeID).trackAll
        (requests.filter fun r => r.nodeID = nodeID ∧ r.counted) := by
  induction requests generalizing t with
  | nil => rfl
  | cons r rest ih =>
      change (trackAll (t.trackAgentRequest r.now r.nodeID r.latency r.err) rest).getOrCreate nodeID = _
      rw [ih]
      by_cases canceled : errIs r.err .contextCanceled = true
      · simp [trackAgentRequest, canceled, AgentRequest.counted]
      · by_cases same : r.nodeID = nodeID
        · subst same
          simp [trackAgentRequest, canceled, AgentRequest.counted, getOrCreate,
            AverageAgentStats.trackAll]
        · simp [trackAgentRequest, canceled, same, getOrCreate,
            AList.lookup_insert_ne (Ne.symm same)]

end AverageAgentStatsTracker

/-- After any calls in which no counted call of the agent is more than five epochs late, a
snapshot taken no earlier than the last of them sums up exactly the agent's requests of the
last six epochs. -/
theorem stats_window_exact {requests : List AgentRequest} {nodeID : Int} {now : Time}
    (nonneg : ∀ r ∈ requests, r.nodeID = nodeID → r.counted → 0 ≤ r.now.unixNano)
    (late : (requests.filter fun r => r.nodeID = nodeID ∧ r.counted).Pairwise
      fun earlier later => epoch earlier.now ≤ epoch later.now + 5)
    (latest : ∀ r ∈ requests, r.nodeID = nodeID → r.counted → epoch r.now ≤ epoch now) :
    let inWindow := requests.filter fun r => (r.nodeID = nodeID ∧ r.counted) ∧
      epoch now - 5 ≤ epoch r.now ∧ epoch r.now ≤ epoch now
    ((AverageAgentStatsTracker.trackAll {} requests).getOrCreate nodeID).snapshot now.unixNano =
      { successfulRequestsLatencySumMs :=
          ((inWindow.filter fun r => r.err = none).map AgentRequest.latencyMs).sum
        successfulRequestsLatencyCount := (inWindow.filter fun r => r.err = none).length
        faultyRequestsCount := (inWindow.filter fun r => r.err ≠ none).length
        filledBuckets := (inWindow.map fun r => epoch r.now).toFinset.card } := by
  intro inWindow
  set own := requests.filter fun r => r.nodeID = nodeID ∧ r.counted with hown
  have mine {r : AgentRequest} (mem : r ∈ own) :
      0 ≤ r.now.unixNano ∧ epoch r.now ≤ epoch now := by
    obtain ⟨tracked, shape⟩ := List.mem_filter.mp mem
    obtain ⟨same, counted⟩ := of_decide_eq_true shape
    exact ⟨nonneg r tracked same counted, latest r tracked same counted⟩
  have narrowed : inWindow = own.filter fun r =>
      epoch now - 5 ≤ epoch r.now ∧ epoch r.now ≤ epoch now := by
    rw [hown, List.filter_filter]
    refine List.filter_congr fun r _ => ?_
    simp only [Bool.decide_and, Bool.and_comm]
  rw [AverageAgentStatsTracker.getOrCreate_trackAll, ← hown, narrowed]
  change (({} : AverageAgentStats).trackAll own).snapshot _ = _
  by_cases none : own = []
  · rw [none]
    simp [AverageAgentStats.trackAll, AverageAgentStats.snapshot, AverageAgentStats.countedBuckets]
  · obtain ⟨first, tracked⟩ := List.exists_mem_of_ne_nil own none
    have quotient : 0 ≤ epoch first.now := Int.tdiv_nonneg (mine tracked).1 (by decide)
    obtain ⟨e, current⟩ := Int.eq_ofNat_of_zero_le (quotient.trans (mine tracked).2)
    rw [AverageAgentStats.snapshot_trackAll (fun r mem => (mine mem).1) late current
      fun r mem => current ▸ (mine mem).2]
    have same : (own.filter fun r => (epoch r.now).toNat ∈ AverageAgentStats.window e) =
        own.filter fun r => epoch now - 5 ≤ epoch r.now ∧ epoch r.now ≤ epoch now := by
      refine List.filter_congr fun r mem => ?_
      have quotient : 0 ≤ epoch r.now := Int.tdiv_nonneg (mine mem).1 (by decide)
      apply decide_eq_decide.mpr
      rw [AverageAgentStats.mem_window, current]
      omega
    rw [same]

/-- A request at a time in seconds since the epoch. -/
def requestAt (sec : Int) (latency : Nat) : AgentRequest :=
  { now := .unix sec, nodeID := 1, latency := latency }

/-- The request at 5 s has left the window that ends at 65 s; its slot is reused at 61 s. -/
theorem stats_window_exact_reused_slot :
    ((AverageAgentStatsTracker.trackAll {} [requestAt 5 7000000, requestAt 31 3000000,
      requestAt 61 4000000]).getOrCreate 1).snapshot (requestAt 65 0).now.unixNano =
      ⟨7, 2, 0, 2⟩ := by
  rw [stats_window_exact (by decide) (by decide) (by decide)]
  decide

end Warpstream
