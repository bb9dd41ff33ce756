import Warpstream.ClusterBufferLedger

set_option autoImplicit false

/- The two counters and the two once-gates of an item. -/
namespace Warpstream

open RoutedBatch

/-- The sum of a size over the items whose wrapped callback has not run. -/
def outstandingSum {W : Type} (size : W → Nat) (items : List (Item W)) : Int :=
  (items.map fun it => if it.reported = 0 then (size it.item : Int) else 0).sum

section outstandingSum

variable {W : Type} (size : W → Nat) {items : List (Item W)} {i : Nat} {it : Item W}

theorem outstandingSum_append (ctx : Option Nat) (item : W) :
    outstandingSum size (items ++ [.new ctx item]) = outstandingSum size items + size item := by
  simp [outstandingSum, Item.new]

theorem outstandingSum_set (found : items[i]? = some it) {after : Item W}
    (item : after.item = it.item) (reported : after.reported = it.reported) :
    outstandingSum size (items.set i after) = outstandingSum size items := by
  have set := Pool.sum_map_set
    (fun it : Item W => if it.reported = 0 then (size it.item : Int) else 0) found after
  simp only [item, reported] at set
  simp only [outstandingSum]
  omega

theorem outstandingSum_settled (found : items[i]? = some it) (unreported : it.reported = 0) :
    outstandingSum size (items.set i it.settled) = outstandingSum size items - size it.item := by
  have set := Pool.sum_map_set
    (fun it : Item W => if it.reported = 0 then (size it.item : Int) else 0) found it.settled
  simp only [Item.settled, unreported, Nat.zero_add, Nat.one_ne_zero, ↓reduceIte] at set
  simp only [outstandingSum, Item.settled, unreported, Nat.zero_add]
  omega

end outstandingSum

/-- How often the operations will try to call the original callback of an item, and how
often they are about to call it. -/
def fires {W : Type} (i : Nat) (ops : List (Op W)) : Nat :=
  ops.countP fun op => match op with
    | .fireOrigDone k _ => k = i
    | _ => false

def completing {W : Type} (i : Nat) (ops : List (Op W)) : Nat :=
  ops.countP fun op => match op with
    | .origDone k _ => k = i
    | _ => false

section counts

variable {W : Type} (i : Nat)

theorem fires_append (left right : List (Op W)) :
    fires i (left ++ right) = fires i left + fires i right := List.countP_append

theorem completing_append (left right : List (Op W)) :
    completing i (left ++ right) = completing i left + completing i right := List.countP_append

theorem fires_cons_fire (k : Nat) (d : Delivery) (ops : List (Op W)) :
    fires i (.fireOrigDone k d :: ops) = fires i ops + if k = i then 1 else 0 := by
  simp [fires, List.countP_cons]

theorem completing_cons_origDone (k : Nat) (d : Delivery) (ops : List (Op W)) :
    completing i (.origDone k d :: ops) = completing i ops + if k = i then 1 else 0 := by
  simp [completing, List.countP_cons]

@[simp] theorem fires_map_done {α : Type} (xs : List α) (f : α → Callback) (d : Delivery) :
    fires i (xs.map fun x => (.done (f x) d : Op W)) = 0 := by
  simp [fires, List.countP_map, Function.comp_def]

@[simp] theorem completing_map_done {α : Type} (xs : List α) (f : α → Callback) (d : Delivery) :
    completing i (xs.map fun x => (.done (f x) d : Op W)) = 0 := by
  simp [completing, List.countP_map, Function.comp_def]

@[simp] theorem fires_flushTasks (agent first : Nat) (flushes : List (Flush W Callback)) :
    fires i (ClusterBuffer.flushTasks agent first flushes).flatten = 0 := by
  induction flushes generalizing first with
  | nil => rfl
  | cons f rest ih =>
      rw [ClusterBuffer.flushTasks, List.flatten_cons, fires_append, ih]
      rfl

@[simp] theorem completing_flushTasks (agent first : Nat) (flushes : List (Flush W Callback)) :
    completing i (ClusterBuffer.flushTasks agent first flushes).flatten = 0 := by
  induction flushes generalizing first with
  | nil => rfl
  | cons f rest ih =>
      rw [ClusterBuffer.flushTasks, List.flatten_cons, completing_append, ih]
      rfl

end counts

/-- The once-gates of an item: without a cancellable context every report completes the
item; with one, only who sets `origDoneFired` does, and a report is followed by an
attempt. -/
structure Item.Gate {W : Type} (it : Item W) (fires completing : Nat) : Prop where
  bare : it.ctx = none → fires = 0 ∧ completing + it.completions.length = it.reported
  gated : it.ctx ≠ none →
    completing + it.completions.length = if it.origDoneFired then 1 else 0
  tried : it.ctx ≠ none → 0 < it.reported → it.origDoneFired = true ∨ 0 < fires
  settled : it.ctx ≠ none → it.ourDoneFired = true → 0 < it.reported

namespace Item.Gate

variable {W : Type} {it : Item W} {f c : Nat}

theorem settleBare (gate : it.Gate f c) (bare : it.ctx = none) : it.settled.Gate f (c + 1) where
  bare _ := by
    obtain ⟨silent, balance⟩ := gate.bare bare
    refine ⟨silent, ?_⟩
    simp only [Item.settled]
    omega
  gated some := absurd bare some
  tried some := absurd bare some
  settled some := absurd bare some

theorem settle (gate : it.Gate f c) (gated : it.ctx ≠ none) : it.settled.Gate (f + 1) c where
  bare none := absurd none gated
  gated := gate.gated
  tried _ _ := Or.inr (Nat.succ_pos f)
  settled _ _ := Nat.succ_pos it.reported

theorem fireLost (gate : it.Gate (f + 1) c) (fired : it.origDoneFired = true) : it.Gate f c where
  bare none := by cases (gate.bare none).1
  gated := gate.gated
  tried _ _ := Or.inl fired
  settled := gate.settled

theorem fireWon (gate : it.Gate (f + 1) c) (first : it.origDoneFired = false) :
    Item.Gate { it with origDoneFired := true } f (c + 1) where
  bare none := by cases (gate.bare none).1
  gated some := by
    have balance := gate.gated some
    simp only [first, Bool.false_eq_true, ↓reduceIte] at balance ⊢
    omega
  tried _ _ := Or.inl rfl
  settled := gate.settled

theorem complete (gate : it.Gate f (c + 1)) (d : Delivery) :
    Item.Gate { it with completions := it.completions ++ [d] } f c where
  bare none := by
    obtain ⟨silent, balance⟩ := gate.bare none
    refine ⟨silent, ?_⟩
    simp only [List.length_append, List.length_singleton]
    omega
  gated some := by
    have balance := gate.gated some
    simp only [List.length_append, List.length_singleton]
    omega
  tried := gate.tried
  settled := gate.settled

end Item.Gate

namespace ClusterBuffer

variable {W : Type}

structure Gates (c : ClusterBuffer W) (ops : List (Op W)) : Prop where
  item : ∀ (i : Nat) (it : Item W), c.items[i]? = some it → it.Gate (fires i ops) (completing i ops)
  noItem : ∀ i, c.items.length ≤ i → fires i ops = 0 ∧ completing i ops = 0

theorem Gates.pass {c c' : ClusterBuffer W} {ops ops' : List (Op W)} (gates : Gates c ops)
    (items : c'.items = c.items) (silent : ∀ i, fires i ops' = fires i ops)
    (quiet : ∀ i, completing i ops' = completing i ops) : Gates c' ops' := by
  refine ⟨fun i it found => ?_, fun i outside => ?_⟩
  · rw [silent, quiet]
    exact gates.item i it (items ▸ found)
  · rw [silent, quiet]
    exact gates.noItem i (items ▸ outside)

theorem Gates.setItem {c c' : ClusterBuffer W} {ops ops' : List (Op W)} (gates : Gates c ops)
    {i : Nat} {it : Item W} (found : c.items[i]? = some it) (after : Item W)
    (items : c'.items = c.items.set i after)
    (other : ∀ k, k ≠ i → fires k ops' = fires k ops ∧ completing k ops' = completing k ops)
    (here : after.Gate (fires i ops') (completing i ops')) : Gates c' ops' := by
  have inside : i < c.items.length := (List.getElem?_eq_some_iff.mp found).1
  refine ⟨fun k it' found' => ?_, fun k outside => ?_⟩
  · rw [items] at found'
    by_cases same : k = i
    · subst same
      rw [List.getElem?_set_self inside] at found'
      obtain rfl := Option.some.inj found'
      exact here
    · rw [List.getElem?_set_ne (Ne.symm same)] at found'
      rw [(other k same).1, (other k same).2]
      exact gates.item k it' found'
  · rw [items, List.length_set] at outside
    have apart : k ≠ i := by omega
    rw [(other k apart).1, (other k apart).2]
    exact gates.noItem k outside

theorem Gates.appendItem {c c' : ClusterBuffer W} {ops ops' : List (Op W)} (gates : Gates c ops)
    (ctx : Option Nat) (item : W) (items : c'.items = c.items ++ [.new ctx item])
    (silent : ∀ i, fires i ops' = fires i ops)
    (quiet : ∀ i, completing i ops' = completing i ops) : Gates c' ops' := by
  refine ⟨fun i it found => ?_, fun i outside => ?_⟩
  · rw [silent, quiet]
    rw [items] at found
    rcases Nat.lt_trichotomy i c.items.length with inside | rfl | outside
    · rw [List.getElem?_append_left inside] at found
      exact gates.item i it found
    · obtain rfl : Item.new ctx item = it := by simpa using found
      obtain ⟨noFires, noCompleting⟩ := gates.noItem _ (Nat.le_refl c.items.length)
      rw [noFires, noCompleting]
      exact ⟨fun _ => ⟨rfl, rfl⟩, fun _ => rfl, fun _ some => (by cases some),
        fun _ fired => (by cases fired)⟩
    · have none : (c.items ++ [.new ctx item])[i]? = none := by
        rw [List.getElem?_eq_none_iff, List.length_append, List.length_singleton]
        omega
      cases none.symm.trans found
  · rw [silent, quiet]
    rw [items, List.length_append, List.length_singleton] at outside
    exact gates.noItem i (by omega)

variable [RoutedBatch W]

/-- Every operation keeps the gates. -/
theorem Gates.runs {c : ClusterBuffer W} {ops : List (Op W)} {op : Op W}
    {ctxErr : Nat → Option GoError} {effect : Effect W} (gates : Gates c (op :: ops))
    (ledger : Ledger c (op :: ops)) (ran : Runs c ctxErr op effect) :
    Gates effect.next (effect.ops ++ effect.spawned.flatten ++ ops) := by
  cases ran with
  | add ctx item => exact gates.appendItem ctx item rfl (fun i => rfl) fun i => rfl
  | wrap ctx item todo wrapped => exact gates.appendItem ctx item rfl (fun i => rfl) fun i => rfl
  | wrapped | addToBuffer | agentBuffer | newAgentBuffer | fanIn | fanInLast =>
      exact gates.pass rfl (fun i => rfl) fun i => rfl
  | ctxFailed n adding err ended =>
      refine gates.pass rfl (fun i => ?_) fun i => ?_
      · rw [fires_append, fires_append, ClusterBuffer.ctxFailed, fires_map_done]
        exact Nat.zero_add _
      · rw [completing_append, completing_append, ClusterBuffer.ctxFailed, completing_map_done]
        exact Nat.zero_add _
  | addToBuffers ctx items bins binned =>
      refine gates.pass rfl (fun i => ?_) fun i => ?_
      · simp [fires, List.countP_append, List.countP_map, Function.comp_def]
      · simp [completing, List.countP_append, List.countP_map, Function.comp_def]
  | bufferClosed nodeID adding closed =>
      refine gates.pass rfl (fun i => ?_) fun i => ?_
      · rw [fires_append, fires_append, ClusterBuffer.bufferClosed, fires_map_done]
        exact Nat.zero_add _
      · rw [completing_append, completing_append, ClusterBuffer.bufferClosed, completing_map_done]
        exact Nat.zero_add _
  | agentAdd agent adding a after refused found added =>
      refine gates.pass rfl (fun i => ?_) fun i => ?_
      · rw [fires_append, fires_append]
        simp only [setAgent, fires_map_done, fires_flushTasks]
        exact Nat.zero_add _
      · rw [completing_append, completing_append]
        simp only [setAgent, completing_map_done, completing_flushTasks]
        exact Nat.zero_add _
  | doneBare i d it found bare =>
      have gate : it.Gate (fires i ops) (completing i ops) := gates.item i it found
      have more (k : Nat) := completing_cons_origDone k i d ops
      refine gates.setItem found _ rfl (fun k apart => ⟨rfl, ?_⟩) ?_
      · exact (more k).trans (if_neg (Ne.symm apart) ▸ rfl)
      · change it.settled.Gate (fires i ops) (completing i (.origDone i d :: ops))
        rw [more, if_pos rfl]
        exact gate.settleBare bare
  | done i d it found gated first =>
      have gate : it.Gate (fires i ops) (completing i ops) := gates.item i it found
      have more (k : Nat) := fires_cons_fire k i d ops
      refine gates.setItem found _ rfl (fun k apart => ⟨?_, rfl⟩) ?_
      · exact (more k).trans (if_neg (Ne.symm apart) ▸ rfl)
      · change it.settled.Gate (fires i (.fireOrigDone i d :: ops)) (completing i ops)
        rw [more, if_pos rfl]
        exact gate.settle gated
  | doneAgain i d it found gated again =>
      -- the books allow one report only
      have zero := (ledger.report found it.settled rfl).1
      have reported := (gates.item i it found).settled gated again
      omega
  | fireLost i d it found fired =>
      have gate := gates.item i it found
      rw [fires_cons_fire, if_pos rfl] at gate
      refine gates.setItem found it ?_ (fun k apart => ⟨?_, rfl⟩) (gate.fireLost fired)
      · obtain ⟨inside, rfl⟩ := List.getElem?_eq_some_iff.mp found
        exact (List.set_getElem_self inside).symm
      · rw [fires_cons_fire, if_neg (Ne.symm apart)]
        rfl
  | fireWon i d it found first =>
      have gate := gates.item i it found
      rw [fires_cons_fire, if_pos rfl] at gate
      refine gates.setItem found _ rfl (fun k apart => ?_) ?_
      · rw [fires_cons_fire, if_neg (Ne.symm apart)]
        exact ⟨rfl, (completing_cons_origDone k i d ops).trans (if_neg (Ne.symm apart) ▸ rfl)⟩
      · change Item.Gate _ (fires i ops) (completing i (.origDone i d :: ops))
        rw [completing_cons_origDone, if_pos rfl]
        exact gate.fireWon first
  | origDone i d it found =>
      have gate := gates.item i it found
      rw [completing_cons_origDone, if_pos rfl] at gate
      refine gates.setItem found _ rfl (fun k apart => ⟨rfl, ?_⟩) (gate.complete d)
      rw [completing_cons_origDone, if_neg (Ne.symm apart)]
      rfl
  | flush agent index entries res =>
      refine gates.pass rfl (fun i => ?_) fun i => ?_
      · rw [fires_append, fires_append, fires_map_done]
        exact Nat.zero_add _
      · rw [completing_append, completing_append, completing_map_done]
        exact Nat.zero_add _
  | closeAgent agent a after found closing =>
      refine gates.pass rfl (fun i => ?_) fun i => ?_
      · rw [fires_append, fires_append]
        simp only [setAgent, fires_flushTasks]
        exact Nat.zero_add _
      · rw [completing_append, completing_append]
        simp only [setAgent, completing_flushTasks]
        exact Nat.zero_add _

/-- The counters are the sums over the items that have not been reported. -/
structure Accounts (c : ClusterBuffer W) : Prop where
  bytes : c.bufferedBytes = outstandingSum payloadBytes c.items
  records : c.bufferedRecords = outstandingSum recordCount c.items

theorem Accounts.wrap {c : ClusterBuffer W} (accounts : Accounts c) (ctx : Option Nat) (item : W) :
    Accounts (c.wrap ctx item).1 := by
  constructor
  · simp only [ClusterBuffer.wrap, outstandingSum_append, accounts.bytes]
  · simp only [ClusterBuffer.wrap, outstandingSum_append, accounts.records]

theorem Accounts.settle {c : ClusterBuffer W} (accounts : Accounts c) {i : Nat} {it : Item W}
    (found : c.items[i]? = some it) (unreported : it.reported = 0) : Accounts (c.settle i it) := by
  constructor
  · simp only [ClusterBuffer.settle, outstandingSum_settled _ found unreported, accounts.bytes]
  · simp only [ClusterBuffer.settle, outstandingSum_settled _ found unreported, accounts.records]

theorem Accounts.setItem {c : ClusterBuffer W} (accounts : Accounts c) {i : Nat} {it : Item W}
    (found : c.items[i]? = some it) (after : Item W) (item : after.item = it.item)
    (reported : after.reported = it.reported) :
    Accounts { c with items := c.items.set i after } := by
  constructor
  · simp only [outstandingSum_set _ found item reported, accounts.bytes]
  · simp only [outstandingSum_set _ found item reported, accounts.records]

/-- Every operation keeps the accounts. -/
theorem Accounts.runs {c : ClusterBuffer W} {ops : List (Op W)} {op : Op W}
    {ctxErr : Nat → Option GoError} {effect : Effect W} (accounts : Accounts c)
    (ledger : Ledger c (op :: ops)) (gates : Gates c (op :: ops)) (ran : Runs c ctxErr op effect) :
    Accounts effect.next := by
  cases ran with
  | add ctx item => exact accounts.wrap ctx item
  | wrap ctx item todo wrapped => exact accounts.wrap ctx item
  | doneBare i d it found bare =>
      exact accounts.settle found (ledger.report found it.settled rfl).1
  | done i d it found gated first =>
      exact accounts.settle found (ledger.report found it.settled rfl).1
  | doneAgain i d it found gated again =>
      have zero := (ledger.report found it.settled rfl).1
      have reported := (gates.item i it found).settled gated again
      omega
  | fireWon i d it found first => exact accounts.setItem found { it with origDoneFired := true } rfl rfl
  | origDone i d it found =>
      exact accounts.setItem found { it with completions := it.completions ++ [d] } rfl rfl
  | wrapped | ctxFailed | addToBuffer | addToBuffers | bufferClosed | agentBuffer | newAgentBuffer
  | agentAdd | fanIn | fanInLast | fireLost | flush | closeAgent =>
      exact ⟨accounts.bytes, accounts.records⟩

end ClusterBuffer

end Warpstream
