import Warpstream.ClusterBufferAcks

set_option autoImplicit false

/- What an agent's buffer has taken is from then on in the hands of its flushes: no goroutine
outside them has the item, or a result for it other than the end of its context. -/
namespace Warpstream

open RoutedBatch

def Delivery.ofFlush (d : Delivery) : Bool :=
  match d.cause with
  | .flush _ _ => true
  | _ => false

/-- The operation runs in the goroutine of a flush. -/
def Op.fromFlush {W : Type} : Op W → Bool
  | .flush _ _ _ => true
  | .done _ d | .fireOrigDone _ d | .origDone _ d => d.ofFlush
  | _ => false

/-- The callbacks of items that no buffer has taken: they are on their way to one, or are told
that there is none. -/
def Op.outside {W : Type} : Op W → List Callback
  | .multiAdd _ _ wrapped => wrapped.map Promised.done
  | .addToBuffers _ adding | .agentBufferFor _ adding | .agentAdd _ adding =>
      adding.items.map Promised.done
  | .done cb d => if d.ofFlush then [] else [cb]
  | .fireOrigDone i d | .origDone i d => if d.cause = .closed then [.wrapped i] else []
  | _ => []

section outside

variable {W : Type} {op : Op W}

theorem Op.outside_of_callbacks {cb : Callback} (other : op.fromFlush = false)
    (mem : cb ∈ op.callbacks) : cb ∈ op.outside := by
  cases op with
  | done cb' d =>
      rw [outside, if_neg (by rw [show d.ofFlush = false from other]; exact Bool.false_ne_true)]
      exact mem
  | flush => cases other
  | multiAdd | addToBuffers | agentBufferFor | agentAdd => exact mem
  | add | fireOrigDone | origDone | closeAgent => cases mem

/-- Such a callback is still to be called, or the item was refused. -/
theorem Op.mem_outside {cb : Callback} (mem : cb ∈ op.outside) :
    cb ∈ op.callbacks ∨ ∃ i d, cb = .wrapped i ∧ d.cause = .closed ∧
      (op = .fireOrigDone i d ∨ op = .origDone i d) := by
  cases op with
  | done cb' d =>
      rw [outside] at mem
      split at mem
      · cases mem
      · exact Or.inl mem
  | fireOrigDone i d =>
      rw [outside] at mem
      split at mem
      · exact Or.inr ⟨i, d, List.mem_singleton.mp mem, ‹_›, Or.inl rfl⟩
      · cases mem
  | origDone i d =>
      rw [outside] at mem
      split at mem
      · exact Or.inr ⟨i, d, List.mem_singleton.mp mem, ‹_›, Or.inr rfl⟩
      · cases mem
  | multiAdd | addToBuffers | agentBufferFor | agentAdd => exact Or.inl mem
  | add | flush | closeAgent => cases mem

/-- A refusal is passed on as one. -/
theorem Op.outside_of_told {i : Nat} {d : Delivery} {cb : Callback}
    (tells : op = .fireOrigDone i d ∨ op = .origDone i d) (mem : cb ∈ op.outside) :
    cb ∈ Op.outside (.done (.wrapped i) d : Op W) := by
  have refused : op.outside = if d.cause = .closed then [.wrapped i] else [] := by
    rcases tells with rfl | rfl <;> rfl
  rw [refused] at mem
  split at mem
  · rename_i closed
    rw [outside, if_neg (by simp [Delivery.ofFlush, closed])]
    exact mem
  · cases mem

theorem ClusterBuffer.outside_flushTasks {agent first : Nat} {flushes : List (Flush W Callback)}
    (mem : op ∈ (ClusterBuffer.flushTasks agent first flushes).flatten) : op.outside = [] := by
  obtain ⟨index, f, -, rfl⟩ := ClusterBuffer.mem_flushTasks.mp mem
  rfl

end outside

namespace ClusterBuffer

variable {W : Type}

/-- An agent's buffer has taken the item, or a chunk of it. -/
def Taken (c : ClusterBuffer W) (i : Nat) : Prop :=
  ∃ a ∈ c.agentBuffers, ∃ e ∈ a.entries, c.ReportsTo e.done (.wrapped i)

/-- The callback is an item's, or that of a fan-in that exists. -/
def Known (c : ClusterBuffer W) (cb : Callback) : Prop :=
  ∀ j, cb = .fanIn j → ∃ f, c.fanIns[j]? = some f

section reports

variable {c c' : ClusterBuffer W} {cb : Callback}

theorem ReportsTo.known {target : Callback} {i : Nat} (same : target = .wrapped i)
    (reports : c.ReportsTo cb target) : c.Known cb := by
  rintro j rfl
  rcases reports with direct | ⟨k, f, place, found, -⟩
  · cases direct.trans same
  · obtain rfl := Callback.fanIn.inj place
    exact ⟨f, found⟩

/-- A fan-in reports to the same item as long as it exists. -/
theorem ReportsTo.back (grows : Grows c c') (known : c.Known cb) {target : Callback}
    (reports : c'.ReportsTo cb target) : c.ReportsTo cb target := by
  rcases reports with direct | ⟨j, f', rfl, found', orig⟩
  · exact Or.inl direct
  · obtain ⟨f, found⟩ := known j rfl
    obtain ⟨g, found'', kept⟩ := grows.fanIns j f found
    obtain rfl := Option.some.inj (found'.symm.trans found'')
    exact Or.inr ⟨j, f, rfl, found, kept.symm.trans orig⟩

theorem ReportsTo.unique {i k : Nat} (one : c.ReportsTo cb (.wrapped i))
    (other : c.ReportsTo cb (.wrapped k)) : i = k := by
  rcases one with rfl | ⟨j, f, rfl, found, orig⟩
  · rcases other with same | ⟨j, f, same, -⟩
    · exact Callback.wrapped.inj same
    · cases same
  · rcases other with same | ⟨j', f', same, found', orig'⟩
    · cases same
    · obtain rfl := Callback.fanIn.inj same
      obtain rfl := Option.some.inj (found.symm.trans found')
      exact Callback.wrapped.inj (orig.symm.trans orig')

theorem reportsTo_wrapped {i k : Nat} (reports : c.ReportsTo (.wrapped k) (.wrapped i)) : i = k :=
  reports.unique (Or.inl rfl)

end reports

/-- No buffer has taken what is outside, nor what a fan-in has heard of without a flush. -/
structure Apart (c : ClusterBuffer W) (ops : List (Op W)) : Prop where
  ops : ∀ op ∈ ops, ∀ cb ∈ op.outside, ∀ i, c.ReportsTo cb (.wrapped i) → ¬ c.Taken i
  chosen : ∀ f ∈ c.fanIns, ∀ d, f.chosen = some d → d.ofFlush = false →
    ∀ i, f.origDone = .wrapped i → ¬ c.Taken i

section apart

variable {c c' : ClusterBuffer W} {op : Op W} {ops ops' : List (Op W)}

theorem Apart.perm (apart : Apart c ops) (perm : ops.Perm ops') : Apart c ops' :=
  ⟨fun op mem => apart.ops op (perm.mem_iff.mpr mem), apart.chosen⟩

/-- A step without new fan-ins or entries: a callback outside was outside before, or nothing
has taken its item. -/
theorem Apart.pass (apart : Apart c ops) (fanIns : c'.fanIns = c.fanIns)
    (taken : ∀ i, c'.Taken i → c.Taken i)
    (outside : ∀ op ∈ ops', ∀ cb ∈ op.outside, (∃ old ∈ ops, cb ∈ old.outside) ∨
      ∃ i, cb = .wrapped i ∧ ¬ c.Taken i) : Apart c' ops' where
  ops op mem cb inside i reports has := by
    have same : c.ReportsTo cb (.wrapped i) := by
      unfold ReportsTo at reports ⊢
      rwa [fanIns] at reports
    rcases outside op mem cb inside with ⟨old, member, there⟩ | ⟨k, rfl, absent⟩
    · exact apart.ops old member cb there i same (taken i has)
    · obtain rfl := reportsTo_wrapped same
      exact absent (taken i has)
  chosen f mem d kept other i orig has :=
    apart.chosen f (fanIns ▸ mem) d kept other i orig (taken i has)

/-- The same for an operation that turns into others and leaves the buffers alone. -/
theorem Apart.turns (apart : Apart c (op :: ops)) (next : List (Op W))
    (fanIns : c'.fanIns = c.fanIns) (agents : c'.agentBuffers = c.agentBuffers)
    (outside : ∀ new ∈ next, ∀ cb ∈ new.outside, cb ∈ op.outside ∨
      ∃ i, cb = .wrapped i ∧ ¬ c.Taken i) : Apart c' (next ++ ops) := by
  refine apart.pass fanIns (fun i taken => ?_) fun new mem cb inside => ?_
  · unfold Taken ReportsTo at taken ⊢
    rwa [agents, fanIns] at taken
  · rcases List.mem_append.mp mem with here | later
    · exact (outside new here cb inside).imp_left fun was => ⟨op, List.mem_cons_self, was⟩
    · exact Or.inl ⟨new, List.mem_cons_of_mem _ later, inside⟩

end apart

variable [RoutedBatch W]

section steps

variable {c c' : ClusterBuffer W} {ctxErr : Nat → Option GoError} {op : Op W} {ops : List (Op W)}

theorem Taken.item (origins : Origins c ctxErr ops) {i : Nat} (taken : c.Taken i) :
    ∃ it, c.items[i]? = some it := by
  obtain ⟨a, mem, e, inside, reports⟩ := taken
  obtain ⟨agent, found⟩ := List.mem_iff_getElem?.mp mem
  obtain ⟨k, it, reports', place, -⟩ := origins.entries agent a found e inside
  obtain rfl := reports.unique reports'
  exact ⟨it, place⟩

theorem not_taken_length (origins : Origins c ctxErr ops) : ¬ c.Taken c.items.length := by
  intro taken
  obtain ⟨it, found⟩ := taken.item origins
  exact absurd (List.getElem?_eq_some_iff.mp found).1 (Nat.lt_irrefl _)

/-- What is taken after a critical section was taken before or is new. -/
theorem taken_setAgent (origins : Origins c ctxErr ops) {agent : Nat}
    {a after : AgentBuffer W Callback} {added : List (Promised W Callback)} {fanIns : List FanIn}
    (found : c.agentBuffers[agent]? = some a) (moves : a.Moves added after) {i : Nat}
    (taken : Taken { c with
      fanIns := c.fanIns ++ fanIns, agentBuffers := c.agentBuffers.set agent after } i) :
    c.Taken i ∨ ∃ e ∈ added, ReportsTo { c with
      fanIns := c.fanIns ++ fanIns, agentBuffers := c.agentBuffers.set agent after }
        e.done (.wrapped i) := by
  have grows := grows_setAgent c found moves fanIns
  obtain ⟨b, mem, e, inside, reports⟩ := taken
  have old (b : AgentBuffer W Callback) (mem : b ∈ c.agentBuffers) (inside : e ∈ b.entries) :
      c.Taken i := by
    obtain ⟨k, place⟩ := List.mem_iff_getElem?.mp mem
    obtain ⟨n, -, known, -⟩ := origins.entries k b place e inside
    exact ⟨b, mem, e, inside, reports.back grows (known.known rfl)⟩
  rcases List.mem_or_eq_of_mem_set mem with was | rfl
  · exact Or.inl (old b was inside)
  · rw [moves.entries] at inside
    rcases List.mem_append.mp inside with was | new
    · exact Or.inl (old a (List.mem_of_getElem? found) was)
    · exact Or.inr ⟨e, new, reports⟩

/-- A critical section that takes nothing. -/
theorem Apart.setAgent {before : List (Op W)} (apart : Apart c ops)
    (origins : Origins c ctxErr before) {agent : Nat} {a after : AgentBuffer W Callback}
    (found : c.agentBuffers[agent]? = some a)
    (moves : a.Moves [] after) :
    Apart { c with agentBuffers := c.agentBuffers.set agent after }
      ((flushTasks agent a.flushes.length (after.flushes.drop a.flushes.length)).flatten ++ ops) := by
  refine apart.pass rfl (fun i taken => ?_) fun new mem cb inside => ?_
  · have same : Taken { c with
        fanIns := c.fanIns ++ [], agentBuffers := c.agentBuffers.set agent after } i := by
      rw [List.append_nil]
      exact taken
    rcases taken_setAgent origins found moves same with old | ⟨e, none, -⟩
    · exact old
    · cases none
  · rcases List.mem_append.mp mem with flush | old
    · rw [outside_flushTasks flush] at inside
      cases inside
    · exact Or.inl ⟨new, old, inside⟩

omit [RoutedBatch W] in
theorem Ledger.owed_le_one (ledger : Ledger c ops) (i : Nat) : c.owed ops (.wrapped i) ≤ 1 := by
  rw [ledger.books, expected_wrapped]
  cases c.items[i]? with
  | none => exact Nat.zero_le 1
  | some it => exact Nat.sub_le 1 it.reported

omit [RoutedBatch W] in
/-- Fan-ins that are called exist. -/
theorem Ledger.known (ledger : Ledger c ops) {cb : Callback} (due : 0 < owedBy ops cb) :
    c.Known cb := by
  rintro j rfl
  have books := ledger.books (.fanIn j)
  rw [expected_fanIn] at books
  cases found : c.fanIns[j]? with
  | some f => exact ⟨f, rfl⟩
  | none =>
      simp only [owed, found, Option.map_none, Option.getD_none] at books
      omega

omit [RoutedBatch W] in
theorem known_of_outside (ledger : Ledger c ops) (mem : op ∈ ops) {cb : Callback}
    (inside : cb ∈ op.outside) : c.Known cb := by
  rcases Op.mem_outside inside with calls | ⟨i, -, rfl, -⟩
  · exact ledger.known (owedBy_pos mem calls)
  · intro j same
    cases same

/-- An item that its goroutine hands to an agent's buffer is nowhere else. -/
theorem alone_of_agentAdd {agent : Nat} {adding : Adding W}
    (ledger : Ledger c (.agentAdd agent adding :: ops))
    (origins : Origins c ctxErr (.agentAdd agent adding :: ops))
    (acks : Acks c (.agentAdd agent adding :: ops)) {p : Promised W Callback}
    (mem : p ∈ adding.items) {i : Nat} (done : p.done = .wrapped i) :
    (∀ op ∈ ops, ∀ cb ∈ op.outside, ¬ c.ReportsTo cb (.wrapped i)) ∧
      ∀ f ∈ c.fanIns, f.origDone = .wrapped i → f.chosen = none := by
  have once := ledger.owed_le_one i
  have head : 0 < (Op.callbacks (.agentAdd agent adding : Op W)).count (.wrapped i) :=
    List.count_pos_iff.mpr (List.mem_map.mpr ⟨p, mem, done⟩)
  simp only [owed, owedBy_cons] at once
  have unreported : ¬ c.Reported i := by
    refine ledger.not_reported ?_
    simp only [owed, owedBy_cons]
    omega
  have later : owedBy ops (.wrapped i) = 0 := by omega
  have closed : openFanIns c.fanIns (.wrapped i) = 0 := by omega
  have waits {f : FanIn} (inside : f ∈ c.fanIns) (orig : f.origDone = .wrapped i) :
      f.remaining = 0 := by
    by_contra more
    obtain ⟨j, found⟩ := List.mem_iff_getElem?.mp inside
    have opened := openFanIns_pos found (Nat.pos_of_ne_zero more)
    rw [orig] at opened
    omega
  constructor
  · intro op member cb inside reports
    rcases Op.mem_outside inside with calls | ⟨k, d, rfl, cause, told⟩
    · have due := owedBy_pos member calls
      rcases reports with rfl | ⟨j, f, rfl, found, orig⟩
      · omega
      · have books := ledger.books (.fanIn j)
        simp only [owed, owedBy_cons, expected_fanIn, found, Option.map_some, Option.getD_some] at books
        have done := waits (List.mem_of_getElem? found) orig
        omega
    · obtain rfl := reportsTo_wrapped reports
      have late : d.cause ≠ .ctx := by
        rw [cause]
        exact fun same => by cases same
      rcases told with rfl | rfl
      · exact unreported ((origins.sound _ (List.mem_cons_of_mem _ member)).2 late)
      · exact unreported ((origins.sound _ (List.mem_cons_of_mem _ member)).2 late)
  · intro f inside orig
    cases kept : f.chosen with
    | none => rfl
    | some d =>
        rcases acks.forwarded f inside (waits inside orig) d kept with waiting | heard
        · have there := (List.mem_cons.mp waiting).resolve_left fun same => by cases same
          have due := owedBy_pos there (List.mem_singleton_self f.origDone)
          rw [orig] at due
          omega
        · rw [orig] at heard
          exact absurd heard.1 unreported

/-- Adding to an agent's buffer: all of it is taken, or nothing. -/
theorem Apart.agentAdd {agent : Nat} {adding : Adding W} {a after : AgentBuffer W Callback}
    {refused : List Callback} (apart : Apart c (.agentAdd agent adding :: ops))
    (ledger : Ledger c (.agentAdd agent adding :: ops))
    (origins : Origins c ctxErr (.agentAdd agent adding :: ops))
    (acks : Acks c (.agentAdd agent adding :: ops)) (found : c.agentBuffers[agent]? = some a)
    (added : addTo a (fun k => .fanIn (c.fanIns.length + k)) adding = some (after, refused)) :
    let effect := ClusterBuffer.setAgent
      { c with fanIns := c.fanIns ++ (splits a adding).map (newFanIn a.batchMaxBytes) } agent a
      after (refused.map fun cb => .done cb ⟨{ err := some GoError.errBufferClosed }, .closed⟩)
    Apart effect.next (effect.ops ++ effect.spawned.flatten ++ ops) := by
  obtain ⟨ctx, wrapped⟩ := origins.sound _ List.mem_cons_self
  have positive (p : Promised W Callback) (mem : p ∈ adding.items) : 0 < recordCount p.item := by
    obtain ⟨_, _, -, -, -, -, some⟩ := wrapped p mem
    exact some
  obtain ⟨chunks, outcome, -, each⟩ := addTo_cases positive added
  set next : ClusterBuffer W := { c with
    fanIns := c.fanIns ++ (splits a adding).map (newFanIn a.batchMaxBytes)
    agentBuffers := c.agentBuffers.set agent after } with next_eq
  have grows : Grows c next := by
    rcases outcome with ⟨moves, -⟩ | ⟨-, rfl, -⟩
    · exact grows_setAgent c found moves _
    · exact grows_setAgent c found .refl _
  -- a chunk reports to one of the items that are added
  have target (chunk : Promised W Callback) (mem : chunk ∈ chunks) (i : Nat)
      (reports : next.ReportsTo chunk.done (.wrapped i)) :
      ∃ p ∈ adding.items, p.done = .wrapped i := by
    obtain ⟨p, inside, rfl | ⟨k, place, done, -⟩⟩ := each chunk mem
    · obtain ⟨n, -, direct, -⟩ := wrapped chunk inside
      rw [direct] at reports
      exact ⟨chunk, inside, by rw [direct, reportsTo_wrapped reports]⟩
    · refine ⟨p, inside, ?_⟩
      rcases reports with same | ⟨j, f, same, there, orig⟩
      · cases done.symm.trans same
      · obtain rfl := Callback.fanIn.inj (done.symm.trans same)
        have here : next.fanIns[c.fanIns.length + k]? = some (newFanIn a.batchMaxBytes p) := by
          rw [next_eq, List.getElem?_append_right (Nat.le_add_right _ _), Nat.add_sub_cancel_left]
          exact place
        obtain rfl := Option.some.inj (there.symm.trans here)
        exact orig
  have before (i : Nat) (taken : next.Taken i) :
      c.Taken i ∨ refused = [] ∧ ∃ p ∈ adding.items, p.done = .wrapped i := by
    rcases outcome with ⟨moves, none, -⟩ | ⟨-, rfl, -⟩
    · rcases taken_setAgent origins found moves taken with old | ⟨e, new, reports⟩
      · exact Or.inl old
      · exact Or.inr ⟨none, target e new i reports⟩
    · rcases taken_setAgent origins found .refl taken with old | ⟨e, new, -⟩
      · exact Or.inl old
      · cases new
  have absent (p : Promised W Callback) (mem : p ∈ adding.items) (i : Nat)
      (done : p.done = .wrapped i) : ¬ c.Taken i :=
    apart.ops _ List.mem_cons_self p.done (List.mem_map_of_mem mem) i (Or.inl done)
  refine ⟨fun op mem cb inside i reports taken => ?_, fun f mem d kept other i orig taken => ?_⟩
  · rcases List.mem_append.mp mem with new | old
    · rcases List.mem_append.mp new with told | flush
      · obtain ⟨cb', member, rfl⟩ := List.mem_map.mp told
        obtain rfl := List.mem_singleton.mp inside
        rcases outcome with ⟨-, none, -⟩ | ⟨-, -, all⟩
        · rw [none] at member
          cases member
        · rw [all] at member
          obtain ⟨chunk, there, rfl⟩ := List.mem_map.mp member
          obtain ⟨p, adds, done⟩ := target chunk there i reports
          rcases before i taken with was | ⟨none, -⟩
          · exact absent p adds i done was
          · rw [none] at all
            rw [← all] at member
            cases member
      · rw [outside_flushTasks flush] at inside
        cases inside
    · have was := reports.back grows (known_of_outside ledger (List.mem_cons_of_mem _ old) inside)
      rcases before i taken with has | ⟨-, p, adds, done⟩
      · exact apart.ops op (List.mem_cons_of_mem _ old) cb inside i was has
      · exact (alone_of_agentAdd ledger origins acks adds done).1 op old cb inside was
  · rcases List.mem_append.mp mem with old | new
    · rcases before i taken with has | ⟨-, p, adds, done⟩
      · exact apart.chosen f old d kept other i orig has
      · cases ((alone_of_agentAdd ledger origins acks adds done).2 f old orig).symm.trans kept
    · obtain ⟨p, -, rfl⟩ := List.mem_map.mp new
      cases kept

/-- A chunk reports to its fan-in. -/
theorem Apart.fanInReport {j : Nat} {f : FanIn} {d : Delivery}
    (apart : Apart c (.done (.fanIn j) d :: ops))
    (origins : Origins c ctxErr (.done (.fanIn j) d :: ops)) (found : c.fanIns[j]? = some f)
    (next : List (Op W)) (forwards : ∀ op ∈ next, ∃ result, (f.report d).chosen = some result ∧
      op = .done (f.report d).origDone result) :
    Apart { c with fanIns := c.fanIns.set j (f.report d) } (next ++ ops) := by
  have grows := grows_setFanIn c found d
  have back {cb : Callback} {i : Nat}
      (reports : ReportsTo { c with fanIns := c.fanIns.set j (f.report d) } cb (.wrapped i)) :
      c.ReportsTo cb (.wrapped i) := by
    refine reports.back grows ?_
    rintro k rfl
    obtain ⟨g, there⟩ := reports.known rfl k rfl
    have inside : k < c.fanIns.length := by
      simpa using (List.getElem?_eq_some_iff.mp there).1
    exact ⟨c.fanIns[k], List.getElem?_eq_getElem inside⟩
  have taken {i : Nat} (has : Taken { c with fanIns := c.fanIns.set j (f.report d) } i) :
      c.Taken i := by
    obtain ⟨a, mem, e, inside, reports⟩ := has
    exact ⟨a, mem, e, inside, back reports⟩
  -- what the fan-in keeps without a flush, it was told outside or kept before
  have kept (r : Delivery) (chosen : (f.report d).chosen = some r) (other : r.ofFlush = false)
      (i : Nat) (orig : f.origDone = .wrapped i) : ¬ c.Taken i := by
    rcases f.report_chosen d with ⟨-, same, -⟩ | ⟨-, -, same, -⟩
    · obtain rfl := Option.some.inj (same.symm.trans chosen)
      refine apart.ops _ List.mem_cons_self (.fanIn j) ?_ i (Or.inr ⟨j, f, rfl, found, orig⟩)
      rw [Op.outside, other]
      exact List.mem_singleton_self _
    · exact apart.chosen f (List.mem_of_getElem? found) r (same.symm.trans chosen) other i orig
  refine ⟨fun op mem cb inside i reports has => ?_, fun g mem r chosen other i orig has => ?_⟩
  · rcases List.mem_append.mp mem with new | old
    · obtain ⟨result, chosen, rfl⟩ := forwards op new
      rw [Op.outside] at inside
      split at inside
      · cases inside
      · rename_i other
        obtain rfl := List.mem_singleton.mp inside
        have orig : f.origDone = .wrapped i := by
          obtain ⟨⟨n, wrapped⟩, -⟩ := origins.fanIns j f found
          rw [f.report_origDone, wrapped] at reports
          rw [wrapped, reportsTo_wrapped reports]
        exact kept result chosen (Bool.eq_false_iff.mpr other) i orig (taken has)
    · exact apart.ops op (List.mem_cons_of_mem _ old) cb inside i (back reports) (taken has)
  · rcases List.mem_or_eq_of_mem_set mem with old | rfl
    · exact apart.chosen g old r chosen other i orig (taken has)
    · exact kept r chosen other i ((f.report_origDone d).symm.trans orig) (taken has)

/-- Every operation keeps what is taken apart from what is outside. -/
theorem Apart.runs {effect : Effect W} (apart : Apart c (op :: ops)) (ledger : Ledger c (op :: ops))
    (origins : Origins c ctxErr (op :: ops)) (acks : Acks c (op :: ops))
    (ran : Runs c ctxErr op effect) :
    Apart effect.next (effect.ops ++ effect.spawned.flatten ++ ops) := by
  have fresh := not_taken_length origins
  cases ran with
  | add ctx item =>
      refine apart.turns [_] rfl rfl fun new mem cb inside => ?_
      obtain rfl := List.mem_singleton.mp mem
      exact Or.inr ⟨_, List.mem_singleton.mp inside, fresh⟩
  | wrapped ctx wrapped =>
      refine apart.turns [_] rfl rfl fun new mem cb inside => ?_
      obtain rfl := List.mem_singleton.mp mem
      exact Or.inl inside
  | wrap ctx item todo wrapped =>
      refine apart.turns [_] rfl rfl fun new mem cb inside => ?_
      obtain rfl := List.mem_singleton.mp mem
      simp only [Op.outside, List.map_append, List.mem_append] at inside ⊢
      exact inside.imp_right fun last => ⟨_, List.mem_singleton.mp last, fresh⟩
  | ctxFailed n adding err ended =>
      rw [List.flatten_nil, List.append_nil]
      refine apart.turns _ rfl rfl fun new mem cb inside => ?_
      obtain ⟨p, member, rfl⟩ := List.mem_map.mp mem
      obtain rfl := List.mem_singleton.mp inside
      exact Or.inl (List.mem_map_of_mem member)
  | addToBuffer ctx p =>
      refine apart.turns [_] rfl rfl fun new mem cb inside => ?_
      obtain rfl := List.mem_singleton.mp mem
      exact Or.inl inside
  | addToBuffers ctx items bins binned =>
      rw [List.flatten_nil, List.append_nil]
      refine apart.turns _ rfl rfl fun new mem cb inside => ?_
      obtain ⟨bin, member, rfl⟩ := List.mem_map.mp mem
      obtain ⟨p, there, rfl⟩ := List.mem_map.mp inside
      have all := (FirstSeen.groups_groupBy _ items).members bin.1 bin.2 (binned.mem_iff.mp member)
      rw [all] at there
      exact Or.inl (List.mem_map_of_mem (List.mem_filter.mp there).1)
  | bufferClosed nodeID adding closed =>
      rw [List.flatten_nil, List.append_nil]
      refine apart.turns _ rfl rfl fun new mem cb inside => ?_
      obtain ⟨p, member, rfl⟩ := List.mem_map.mp mem
      obtain rfl := List.mem_singleton.mp inside
      exact Or.inl (List.mem_map_of_mem member)
  | agentBuffer nodeID adding agent found =>
      refine apart.turns [_] rfl rfl fun new mem cb inside => ?_
      obtain rfl := List.mem_singleton.mp mem
      exact Or.inl inside
  | newAgentBuffer nodeID adding absent =>
      refine apart.pass rfl (fun i taken => ?_) fun new mem cb inside => ?_
      · obtain ⟨a, mem, e, inside, reports⟩ := taken
        rcases List.mem_append.mp mem with old | new
        · exact ⟨a, old, e, inside, reports⟩
        · obtain rfl := List.mem_singleton.mp new
          cases inside
      · rcases List.mem_append.mp mem with here | later
        · obtain rfl := List.mem_singleton.mp here
          exact Or.inl ⟨_, List.mem_cons_self, inside⟩
        · exact Or.inl ⟨new, List.mem_cons_of_mem _ later, inside⟩
  | agentAdd agent adding a after refused found added =>
      exact apart.agentAdd ledger origins acks found added
  | doneBare i d it found bare =>
      refine apart.turns [_] rfl rfl fun new mem cb inside => ?_
      obtain rfl := List.mem_singleton.mp mem
      exact Or.inl (Op.outside_of_told (Or.inr rfl) inside)
  | done i d it found gated first =>
      refine apart.turns [_] rfl rfl fun new mem cb inside => ?_
      obtain rfl := List.mem_singleton.mp mem
      exact Or.inl (Op.outside_of_told (Or.inl rfl) inside)
  | doneAgain i d it found gated again =>
      refine apart.turns [_] rfl rfl fun new mem cb inside => ?_
      obtain rfl := List.mem_singleton.mp mem
      exact Or.inl (Op.outside_of_told (Or.inl rfl) inside)
  | fanIn j d f found more =>
      exact apart.fanInReport origins found [] (List.forall_mem_nil _)
  | fanInLast j d f result found last chosen =>
      refine apart.fanInReport origins found [_] fun op mem => ?_
      exact ⟨result, chosen, List.mem_singleton.mp mem⟩
  | fireLost i d it found fired =>
      exact apart.turns [] rfl rfl (List.forall_mem_nil _)
  | fireWon i d it found first =>
      refine apart.turns [_] rfl rfl fun new mem cb inside => ?_
      obtain rfl := List.mem_singleton.mp mem
      exact Or.inl inside
  | origDone i d it found =>
      exact apart.turns [] rfl rfl (List.forall_mem_nil _)
  | flush agent index entries res =>
      rw [List.flatten_nil, List.append_nil]
      refine apart.turns _ rfl rfl fun new mem cb inside => ?_
      obtain ⟨e, -, rfl⟩ := List.mem_map.mp mem
      cases inside
  | closeAgent agent a after found closing =>
      have later : Apart c ops := ⟨fun op mem => apart.ops op (List.mem_cons_of_mem _ mem), apart.chosen⟩
      exact later.setAgent origins found (AgentBuffer.close_moves closing)

omit [RoutedBatch W] in
theorem held_eq_zero (idle : ∀ a ∈ c.agentBuffers, a.nextProduceItems = []) (cb : Callback) :
    c.held cb = 0 := by
  refine List.sum_eq_zero_iff.mpr fun n mem => ?_
  obtain ⟨a, inside, rfl⟩ := List.mem_map.mp mem
  rw [idle a inside]
  rfl

/-- With nothing pending and no goroutine of a flush left, nothing is owed to what was taken. -/
theorem owed_eq_zero_of_taken (ledger : Ledger c ops) (origins : Origins c ctxErr ops)
    (apart : Apart c ops) (idle : ∀ a ∈ c.agentBuffers, a.nextProduceItems = [])
    (quiet : ∀ op ∈ ops, op.fromFlush = false) {i : Nat} (taken : c.Taken i) :
    c.owed ops (.wrapped i) = 0 := by
  have uncalled (cb : Callback) (reports : c.ReportsTo cb (.wrapped i)) : owedBy ops cb = 0 := by
    refine List.count_eq_zero.mpr fun mem => ?_
    obtain ⟨op, inside, calls⟩ := List.mem_flatMap.mp mem
    exact apart.ops op inside cb (Op.outside_of_callbacks (quiet op inside) calls) i reports taken
  have answered : openFanIns c.fanIns (.wrapped i) = 0 := by
    refine openFanIns_eq_zero fun f mem orig => ?_
    obtain ⟨j, found⟩ := List.mem_iff_getElem?.mp mem
    -- a fan-in reports to an item, never to another fan-in
    have none : openFanIns c.fanIns (.fanIn j) = 0 := by
      refine openFanIns_eq_zero fun g inside same => ?_
      obtain ⟨k, place⟩ := List.mem_iff_getElem?.mp inside
      obtain ⟨⟨n, wrapped⟩, -⟩ := origins.fanIns k g place
      cases same.symm.trans wrapped
    have books := ledger.books (.fanIn j)
    rw [owed, uncalled _ (Or.inr ⟨j, f, rfl, found, orig⟩), held_eq_zero idle, none, expected_fanIn,
      found] at books
    exact books.symm
  rw [owed, uncalled _ (Or.inl rfl), held_eq_zero idle, answered]

end steps

end ClusterBuffer

namespace ClusterRun

open ClusterBuffer

variable {W : Type} [RoutedBatch W] {r : ClusterRun W}

structure TakenInv (r : ClusterRun W) : Prop extends AckInv r where
  apart : r.buffer.Apart r.tasks.flatten

theorem takenInv_init (batchMaxBytes : Nat) :
    TakenInv (ClusterRun.init (W := W) batchMaxBytes) where
  toAckInv := ackInv_init batchMaxBytes
  apart := ⟨List.forall_mem_nil _, List.forall_mem_nil _⟩

/-- New goroutines with nothing outside yet. -/
theorem TakenInv.spawn (inv : TakenInv r) (buffer : ClusterBuffer W) (tasks : List (List (Op W)))
    (fanIns : buffer.fanIns = r.buffer.fanIns) (agents : buffer.agentBuffers = r.buffer.agentBuffers)
    (quiet : ∀ op ∈ tasks.flatten, op.outside = []) :
    buffer.Apart (r.tasks ++ tasks).flatten := by
  rw [List.flatten_append]
  refine inv.apart.pass fanIns (fun i taken => ?_) fun op mem cb inside => ?_
  · unfold Taken ReportsTo at taken ⊢
    rwa [agents, fanIns] at taken
  · rcases List.mem_append.mp mem with old | new
    · exact Or.inl ⟨op, old, inside⟩
    · rw [quiet op new] at inside
      cases inside

theorem takenInv_step [DecidableEq W] (r : ClusterRun W) (action : ClusterAction W)
    (r' : ClusterRun W) (inv : TakenInv r) (records : action.HasRecords)
    (stepped : r.step action = some r') : TakenInv r' := by
  refine ⟨ackInv_step r action r' inv.toAckInv records stepped, ?_⟩
  cases steps_of_step stepped with
  | add ctx item => exact inv.spawn _ [[.add ctx item]] rfl rfl (by simp [Op.outside])
  | multiAddNone ctx => exact inv.apart
  | multiAdd ctx items => exact inv.spawn _ [[.multiAdd ctx items []]] rfl rfl (by simp [Op.outside])
  | cancel ctx err running => exact inv.apart
  | watchFires i it ctx err found hasCtx ended =>
      exact inv.spawn { r.buffer with items := _ } [[.fireOrigDone i ⟨{ err := some err }, .ctx⟩]]
        rfl rfl (by simp [Op.outside])
  | timerFlush agent a after found started =>
      obtain ⟨moves, -, -⟩ := AgentBuffer.startFlushLocked_moves started
      refine (inv.apart.setAgent inv.origins found moves).perm ?_
      exact List.perm_append_comm.trans (by rw [← List.flatten_append]; rfl)
  | closeAgain => exact inv.apart
  | close =>
      refine inv.spawn { r.buffer with closed := true } _ rfl rfl fun op mem => ?_
      obtain ⟨task, inside, here⟩ := List.mem_flatten.mp mem
      obtain ⟨agent, -, rfl⟩ := List.mem_map.mp inside
      obtain rfl := List.mem_singleton.mp here
      rfl
  | run task choice op rest effect found ran =>
      have before := Pool.flatten_perm found
      have after := Pool.flatten_run_perm found effect.ops effect.spawned
      exact ((inv.apart.perm before).runs (inv.ledger.perm before) (inv.origins.perm before)
        (inv.acks.perm before) ran).perm after

/-- Who tells the item of a result outside a flush tells it of the end of its context. -/
theorem TakenInv.ctx_of_told (inv : TakenInv r) {i : Nat} (taken : r.buffer.Taken i)
    (quiet : ∀ op ∈ r.tasks.flatten, op.fromFlush = false) {op : Op W} {d : Delivery}
    (mem : op ∈ r.tasks.flatten) (tells : op = .fireOrigDone i d ∨ op = .origDone i d) :
    ∃ it n err, r.buffer.items[i]? = some it ∧ it.ctx = some n ∧ r.ctxErr n = some err := by
  have sourced : r.buffer.Sourced r.ctxErr (.wrapped i) d := by
    have sound := inv.origins.sound op mem
    rcases tells with rfl | rfl <;> exact sound.1
  have other : d.ofFlush = false := by
    have silent := quiet op mem
    rcases tells with rfl | rfl <;> exact silent
  unfold Sourced at sourced
  split at sourced
  · obtain ⟨k, it, n, err, same, found, hasCtx, ended, -⟩ := sourced
    obtain rfl := Callback.wrapped.inj same
    exact ⟨it, n, err, found, hasCtx, ended⟩
  · rename_i closed
    refine absurd taken (inv.apart.ops op mem (.wrapped i) ?_ i (Or.inl rfl))
    rcases tells with rfl | rfl <;> simp [Op.outside, closed]
  · rename_i flushed
    rw [Delivery.ofFlush, flushed] at other
    cases other

/-- With nothing pending and no goroutine of a flush left, every item that was taken has been
reported once, and is completed unless its context has ended. -/
theorem TakenInv.completed (inv : TakenInv r)
    (idle : ∀ a ∈ r.buffer.agentBuffers, a.nextProduceItems = [])
    (quiet : ∀ op ∈ r.tasks.flatten, op.fromFlush = false) {i : Nat} (taken : r.buffer.Taken i) :
    ∃ it, r.buffer.items[i]? = some it ∧ it.reported = 1 ∧
      (it.completions.length = 1 ∨ ∃ n err, it.ctx = some n ∧ r.ctxErr n = some err) := by
  obtain ⟨it, found⟩ := taken.item inv.origins
  have settled := owed_eq_zero_of_taken inv.ledger inv.origins inv.apart idle quiet taken
  rw [inv.ledger.books, expected_wrapped, found, Option.map_some, Option.getD_some] at settled
  have once := inv.ledger.once it (List.mem_of_getElem? found)
  have reported : it.reported = 1 := by omega
  refine ⟨it, found, reported, ?_⟩
  have gate := inv.gates.item i it found
  have ended {op : Op W} {d : Delivery} (mem : op ∈ r.tasks.flatten)
      (tells : op = .fireOrigDone i d ∨ op = .origDone i d) :
      ∃ n err, it.ctx = some n ∧ r.ctxErr n = some err := by
    obtain ⟨it', n, err, found', rest⟩ := inv.ctx_of_told taken quiet mem tells
    obtain rfl := Option.some.inj (found.symm.trans found')
    exact ⟨n, err, rest⟩
  by_cases tells : ∃ op d, op ∈ r.tasks.flatten ∧ (op = .fireOrigDone i d ∨ op = .origDone i d)
  · obtain ⟨op, d, mem, same⟩ := tells
    exact Or.inr (ended mem same)
  · left
    have noFires : fires i r.tasks.flatten = 0 := by
      refine List.countP_eq_zero.mpr fun op mem => ?_
      cases op with
      | fireOrigDone k d =>
          simp only [decide_eq_true_eq]
          rintro rfl
          exact tells ⟨_, d, mem, Or.inl rfl⟩
      | _ => simp
    have noCompleting : completing i r.tasks.flatten = 0 := by
      refine List.countP_eq_zero.mpr fun op mem => ?_
      cases op with
      | origDone k d =>
          simp only [decide_eq_true_eq]
          rintro rfl
          exact tells ⟨_, d, mem, Or.inr rfl⟩
      | _ => simp
    rw [noFires, noCompleting] at gate
    cases ctx : it.ctx with
    | none =>
        have balance := (gate.bare ctx).2
        omega
    | some n =>
        have gated : it.ctx ≠ none := by simp [ctx]
        have fired := (gate.tried gated (by omega)).resolve_right (Nat.lt_irrefl 0)
        have balance := gate.gated gated
        rw [fired, if_pos rfl] at balance
        omega

/-- New goroutines that are about to add items. -/
theorem TakenInv.spawnAdds (inv : TakenInv r) {tasks : List (List (Op W))}
    (adds : ∀ op ∈ tasks.flatten, ∃ ctx items, op = .multiAdd ctx items [] ∧
      ∀ item ∈ items, 0 < RoutedBatch.recordCount item) : TakenInv (r.spawn tasks) := by
  refine ⟨⟨inv.toInv.spawn tasks ?_ ?_ ?_, ?_⟩, ?_⟩
  · intro op mem
    obtain ⟨ctx, items, rfl, -⟩ := adds op mem
    rfl
  · intro op mem i d
    obtain ⟨ctx, items, rfl, -⟩ := adds op mem
    exact ⟨fun same => (by cases same), fun same => (by cases same)⟩
  · intro op mem
    obtain ⟨ctx, items, rfl, some⟩ := adds op mem
    exact ⟨some, List.forall_mem_nil _⟩
  · refine inv.toAckInv.spawn (Grows.refl _) tasks (fun op mem i d _ => ?_)
      (fun i it d found mem => ⟨it, found, mem⟩) rfl rfl rfl
    obtain ⟨ctx, items, rfl, -⟩ := adds op mem
    exact ⟨fun same => (by cases same), fun same => (by cases same)⟩
  · refine inv.spawn r.buffer tasks rfl rfl fun op mem => ?_
    obtain ⟨ctx, items, rfl, -⟩ := adds op mem
    rfl

/-- The buffer stays as it is, goroutines start that are about to add items, or the buffer takes
a step. -/
inductive Advances [DecidableEq W] (r : ClusterRun W) : ClusterRun W → Prop where
  | stays : Advances r r
  | adds (tasks : List (List (Op W)))
      (items : ∀ op ∈ tasks.flatten, ∃ ctx items, op = .multiAdd ctx items [] ∧
        ∀ item ∈ items, 0 < RoutedBatch.recordCount item) : Advances r (r.spawn tasks)
  | step {r' : ClusterRun W} (action : ClusterAction W) (records : action.HasRecords)
      (stepped : r.step action = some r') : Advances r r'

theorem Advances.takenInv [DecidableEq W] {r' : ClusterRun W} (inv : TakenInv r)
    (advances : r.Advances r') : TakenInv r' := by
  cases advances with
  | stays => exact inv
  | adds tasks items => exact inv.spawnAdds items
  | step action records stepped => exact takenInv_step r action r' inv records stepped

end ClusterRun

end Warpstream
