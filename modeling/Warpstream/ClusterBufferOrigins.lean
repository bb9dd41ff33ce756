import Warpstream.ClusterBufferGates

set_option autoImplicit false

/- Where the results of the cluster buffer come from, and which flushes carry an item. -/
namespace Warpstream

open RoutedBatch

namespace ClusterBuffer

variable {W : Type}

/-- The first callback is the second, or a fan-in in front of it. -/
def ReportsTo (c : ClusterBuffer W) (cb target : Callback) : Prop :=
  cb = target ∨ ∃ j f, cb = .fanIn j ∧ c.fanIns[j]? = some f ∧ f.origDone = target

/-- A flush has an entry that reports to `cb`. -/
def Carries (c : ClusterBuffer W) (agent index : Nat) (cb : Callback) : Prop :=
  ∃ a f e, c.agentBuffers[agent]? = some a ∧ a.flushes[index]? = some f ∧ e ∈ f.entries ∧
    c.ReportsTo e.done cb

/-- A result handed to `cb` is the end of the item's context, the refusal of a closed
buffer, or what a flush that carried it returned. -/
def Sourced (c : ClusterBuffer W) (ctxErr : Nat → Option GoError) (cb : Callback) (d : Delivery) :
    Prop :=
  match d.cause with
  | .ctx => ∃ i it n err, cb = .wrapped i ∧ c.items[i]? = some it ∧ it.ctx = some n ∧
      ctxErr n = some err ∧ d.res = { err := some err }
  | .closed => c.closed = true ∧ d.res = { err := some GoError.errBufferClosed }
  | .flush agent index => ⟨agent, index, d.res⟩ ∈ c.returned ∧ c.Carries agent index cb

/-- The wrapped callback of the item has run. -/
def Reported (c : ClusterBuffer W) (i : Nat) : Prop :=
  ∃ it, c.items[i]? = some it ∧ 0 < it.reported

/-- A result that the original callback of the item may be called with: other than for a
context, only once the item is reported. -/
def Proper (c : ClusterBuffer W) (ctxErr : Nat → Option GoError) (i : Nat) (d : Delivery) : Prop :=
  c.Sourced ctxErr (.wrapped i) d ∧ (d.cause ≠ .ctx → c.Reported i)

/-- Items, fan-ins and flushes are only added and keep what identifies them. -/
structure Grows (c c' : ClusterBuffer W) : Prop where
  items : ∀ (i : Nat) (it : Item W), c.items[i]? = some it → ∃ it', c'.items[i]? = some it' ∧
    it'.item = it.item ∧ it'.ctx = it.ctx ∧ it.reported ≤ it'.reported
  fanIns : ∀ (j : Nat) (f : FanIn), c.fanIns[j]? = some f →
    ∃ f', c'.fanIns[j]? = some f' ∧ f'.origDone = f.origDone
  agents : ∀ (k : Nat) (a : AgentBuffer W Callback), c.agentBuffers[k]? = some a →
    ∃ a' new, c'.agentBuffers[k]? = some a' ∧ a'.flushes = a.flushes ++ new
  returned : ∀ r ∈ c.returned, r ∈ c'.returned
  closed : c.closed = true → c'.closed = true

theorem Grows.refl (c : ClusterBuffer W) : Grows c c :=
  ⟨fun _ it found => ⟨it, found, rfl, rfl, Nat.le_refl _⟩, fun _ f found => ⟨f, found, rfl⟩,
    fun _ a found => ⟨a, [], found, by simp⟩, fun _ mem => mem, fun closed => closed⟩

section grows

variable {c c' : ClusterBuffer W} {ctxErr ctxErr' : Nat → Option GoError}

theorem ReportsTo.mono (grows : Grows c c') {cb target : Callback}
    (reports : c.ReportsTo cb target) : c'.ReportsTo cb target := by
  rcases reports with rfl | ⟨j, f, rfl, found, same⟩
  · exact Or.inl rfl
  · obtain ⟨f', found', kept⟩ := grows.fanIns j f found
    exact Or.inr ⟨j, f', rfl, found', kept.trans same⟩

theorem Carries.mono (grows : Grows c c') {agent index : Nat} {cb : Callback}
    (carries : c.Carries agent index cb) : c'.Carries agent index cb := by
  obtain ⟨a, f, e, found, flush, mem, reports⟩ := carries
  obtain ⟨a', new, found', flushes⟩ := grows.agents agent a found
  have inside : index < a.flushes.length := (List.getElem?_eq_some_iff.mp flush).1
  refine ⟨a', f, e, found', ?_, mem, reports.mono grows⟩
  rw [flushes, List.getElem?_append_left inside]
  exact flush

theorem Sourced.mono (grows : Grows c c')
    (ends : ∀ n err, ctxErr n = some err → ctxErr' n = some err) {cb : Callback} {d : Delivery}
    (sourced : c.Sourced ctxErr cb d) : c'.Sourced ctxErr' cb d := by
  unfold Sourced at sourced ⊢
  split at sourced
  · obtain ⟨i, it, n, err, rfl, found, ctx, ended, res⟩ := sourced
    obtain ⟨it', found', -, sameCtx, -⟩ := grows.items i it found
    exact ⟨i, it', n, err, rfl, found', sameCtx.trans ctx, ends n err ended, res⟩
  · exact ⟨grows.closed sourced.1, sourced.2⟩
  · exact ⟨grows.returned _ sourced.1, sourced.2.mono grows⟩

theorem Reported.mono (grows : Grows c c') {i : Nat} (reported : c.Reported i) : c'.Reported i := by
  obtain ⟨it, found, positive⟩ := reported
  obtain ⟨it', found', -, -, more⟩ := grows.items i it found
  exact ⟨it', found', by omega⟩

theorem Proper.mono (grows : Grows c c')
    (ends : ∀ n err, ctxErr n = some err → ctxErr' n = some err) {i : Nat} {d : Delivery}
    (proper : c.Proper ctxErr i d) : c'.Proper ctxErr' i d :=
  ⟨proper.1.mono grows ends, fun late => (proper.2 late).mono grows⟩

end grows

/-- Replacing an item by one that only counts more reports. -/
theorem grows_setItem (c : ClusterBuffer W) {i : Nat} {it : Item W} (found : c.items[i]? = some it)
    (after : Item W) (item : after.item = it.item) (ctx : after.ctx = it.ctx)
    (reported : it.reported ≤ after.reported) :
    Grows c { c with items := c.items.set i after } := by
  have inside : i < c.items.length := (List.getElem?_eq_some_iff.mp found).1
  refine { Grows.refl c with items := fun k it' found' => ?_ }
  by_cases same : k = i
  · subst same
    obtain rfl := Option.some.inj (found.symm.trans found')
    exact ⟨after, List.getElem?_set_self inside, item, ctx, reported⟩
  · exact ⟨it', by rw [List.getElem?_set_ne (Ne.symm same)]; exact found', rfl, rfl, Nat.le_refl _⟩

theorem grows_append {c c' : ClusterBuffer W} (new : List (Item W))
    (items : c'.items = c.items ++ new) (fanIns : c'.fanIns = c.fanIns)
    (agents : c'.agentBuffers = c.agentBuffers) (returned : c'.returned = c.returned)
    (closed : c.closed = true → c'.closed = true) : Grows c c' := by
  refine ⟨fun i it found => ⟨it, ?_, rfl, rfl, Nat.le_refl _⟩, fun j f found => ⟨f, ?_, rfl⟩,
    fun k a found => ⟨a, [], ?_, by simp⟩, fun r mem => returned ▸ mem, closed⟩
  · rw [items, List.getElem?_append_left (List.getElem?_eq_some_iff.mp found).1]
    exact found
  · rw [fanIns]
    exact found
  · rw [agents]
    exact found

theorem grows_setFanIn (c : ClusterBuffer W) {j : Nat} {f : FanIn} (found : c.fanIns[j]? = some f)
    (d : Delivery) : Grows c { c with fanIns := c.fanIns.set j (f.report d) } := by
  have inside : j < c.fanIns.length := (List.getElem?_eq_some_iff.mp found).1
  refine { Grows.refl c with fanIns := fun k f' found' => ?_ }
  by_cases same : k = j
  · subst same
    obtain rfl := Option.some.inj (found.symm.trans found')
    exact ⟨f.report d, List.getElem?_set_self inside, FanIn.report_origDone f d⟩
  · exact ⟨f', by rw [List.getElem?_set_ne (Ne.symm same)]; exact found', rfl⟩

/-- The goroutines that a critical section starts are those of its flushes. -/
theorem mem_flushTasks {agent first : Nat} {flushes : List (Flush W Callback)} {op : Op W} :
    op ∈ (flushTasks agent first flushes).flatten ↔
      ∃ index f, flushes[index]? = some f ∧ op = .flush agent (first + index) f.entries := by
  induction flushes generalizing first with
  | nil => simp [flushTasks]
  | cons g rest ih =>
      rw [flushTasks, List.flatten_cons, List.mem_append, List.mem_singleton, ih]
      constructor
      · rintro (rfl | ⟨index, f, found, rfl⟩)
        · exact ⟨0, g, rfl, rfl⟩
        · exact ⟨index + 1, f, found, by rw [Nat.add_assoc, Nat.add_comm 1]⟩
      · rintro ⟨index, f, found, rfl⟩
        cases index with
        | zero =>
            obtain rfl : g = f := by simpa using found
            exact Or.inl rfl
        | succ index =>
            refine Or.inr ⟨index, f, by simpa using found, ?_⟩
            rw [Nat.add_assoc, Nat.add_comm 1]

/-- The kept result of a fan-in comes from one of its chunks. -/
def FanInOk (c : ClusterBuffer W) (ctxErr : Nat → Option GoError) (f : FanIn) : Prop :=
  (∃ i, f.origDone = .wrapped i) ∧
    ∀ d, f.chosen = some d → c.Sourced ctxErr f.origDone d ∧ d.cause ≠ .ctx

/-- The flush function has returned for the flush. -/
def FlushReturned (c : ClusterBuffer W) (agent index : Nat) : Prop :=
  ∃ res, ⟨agent, index, res⟩ ∈ c.returned

/-- The kept result of a fan-in after one more chunk. -/
theorem FanInOk.report {c c' : ClusterBuffer W} {ctxErr : Nat → Option GoError} {j : Nat}
    {f : FanIn} {d : Delivery} (ok : c.FanInOk ctxErr f) (grows : Grows c c')
    (found : c.fanIns[j]? = some f)
    (behind : ∀ (k : Nat) (g : FanIn), c.fanIns[k]? = some g → ∃ i, g.origDone = .wrapped i)
    (sourced : c.Sourced ctxErr (.fanIn j) d) : c'.FanInOk ctxErr (f.report d) := by
  have fresh : c.Sourced ctxErr f.origDone d ∧ d.cause ≠ .ctx := by
    unfold Sourced at sourced ⊢
    split at sourced
    · obtain ⟨i, it, n, err, same, -⟩ := sourced
      cases same
    · rename_i closed
      exact ⟨sourced, by rw [closed]; exact fun same => by cases same⟩
    · rename_i agent index flushed
      obtain ⟨returned, a, g, e, foundAgent, flush, mem, reports⟩ := sourced
      refine ⟨⟨returned, a, g, e, foundAgent, flush, mem, ?_⟩,
        by rw [flushed]; exact fun same => by cases same⟩
      rcases reports with direct | ⟨k, h, -, foundFanIn, same⟩
      · exact Or.inr ⟨j, f, direct, found, rfl⟩
      · obtain ⟨i, wrapped⟩ := behind k h foundFanIn
        cases same.symm.trans wrapped
  have kept (r : Delivery) (chosen : (f.report d).chosen = some r) :
      f.chosen = some r ∨ r = d := by
    simp only [FanIn.report] at chosen
    split at chosen
    · exact Or.inr (Option.some.inj chosen).symm
    · split at chosen
      · exact Or.inr (Option.some.inj chosen).symm
      · exact Or.inl chosen
  rw [FanInOk, FanIn.report_origDone]
  refine ⟨ok.1, fun r chosen => ?_⟩
  rcases kept r chosen with old | rfl
  · exact ⟨(ok.2 r old).1.mono grows fun _ _ same => same, (ok.2 r old).2⟩
  · exact ⟨fresh.1.mono grows fun _ _ same => same, fresh.2⟩

variable [RoutedBatch W]

/-- A critical section of an agent's buffer, with fan-ins for the items it splits. -/
theorem grows_setAgent (c : ClusterBuffer W) {agent : Nat} {a after : AgentBuffer W Callback}
    {added : List (Promised W Callback)} (found : c.agentBuffers[agent]? = some a)
    (moves : a.Moves added after) (fanIns : List FanIn) :
    Grows c { c with
      fanIns := c.fanIns ++ fanIns, agentBuffers := c.agentBuffers.set agent after } := by
  have inside : agent < c.agentBuffers.length := (List.getElem?_eq_some_iff.mp found).1
  refine { Grows.refl c with
    fanIns := fun j f foundFanIn => ⟨f, ?_, rfl⟩, agents := fun k other foundOther => ?_ }
  · rw [List.getElem?_append_left (List.getElem?_eq_some_iff.mp foundFanIn).1]
    exact foundFanIn
  · by_cases same : k = agent
    · subst same
      obtain rfl := Option.some.inj (found.symm.trans foundOther)
      obtain ⟨new, flushes, -⟩ := moves.started
      exact ⟨after, new, List.getElem?_set_self inside, flushes⟩
    · exact ⟨other, [], by rw [List.getElem?_set_ne (Ne.symm same)]; exact foundOther, by simp⟩

/-- Every operation only adds. -/
theorem Runs.grows {c : ClusterBuffer W} {ctxErr : Nat → Option GoError} {op : Op W}
    {effect : Effect W} (ran : Runs c ctxErr op effect) : Grows c effect.next := by
  cases ran with
  | add ctx item => exact grows_append [.new ctx item] rfl rfl rfl rfl fun closed => closed
  | wrap ctx item todo wrapped =>
      exact grows_append [.new ctx item] rfl rfl rfl rfl fun closed => closed
  | wrapped | ctxFailed | addToBuffer | addToBuffers | bufferClosed | agentBuffer | fireLost =>
      exact Grows.refl c
  | newAgentBuffer nodeID adding absent =>
      refine { Grows.refl c with agents := fun k a found => ⟨a, [], ?_, by simp⟩ }
      rw [List.getElem?_append_left (List.getElem?_eq_some_iff.mp found).1]
      exact found
  | agentAdd agent adding a after refused found added =>
      obtain ⟨chunks, moves⟩ := addTo_moves added
      exact grows_setAgent c found moves _
  | doneBare i d it found bare =>
      have grows := grows_setItem c found it.settled rfl rfl (Nat.le_succ _)
      exact ⟨grows.items, grows.fanIns, grows.agents, grows.returned, grows.closed⟩
  | done i d it found gated first =>
      have grows := grows_setItem c found it.settled rfl rfl (Nat.le_succ _)
      exact ⟨grows.items, grows.fanIns, grows.agents, grows.returned, grows.closed⟩
  | doneAgain i d it found gated again =>
      exact grows_setItem c found { it with reported := it.reported + 1 } rfl rfl (Nat.le_succ _)
  | fanIn j d f found more => exact grows_setFanIn c found d
  | fanInLast j d f result found last chosen => exact grows_setFanIn c found d
  | fireWon i d it found first =>
      exact grows_setItem c found { it with origDoneFired := true } rfl rfl (Nat.le_refl _)
  | origDone i d it found =>
      exact grows_setItem c found { it with completions := it.completions ++ [d] } rfl rfl
        (Nat.le_refl _)
  | flush agent index entries res =>
      exact { Grows.refl c with returned := fun r mem => List.mem_append_left _ mem }
  | closeAgent agent a after found closing =>
      have grows := grows_setAgent c found (AgentBuffer.close_moves closing) []
      rw [List.append_nil] at grows
      exact grows

/-- A wrapped item on its way to an agent's buffer. -/
def Wrapped (c : ClusterBuffer W) (ctx : Option Nat) (p : Promised W Callback) : Prop :=
  ∃ i it, p.done = .wrapped i ∧ c.items[i]? = some it ∧ it.item = p.item ∧ it.ctx = ctx ∧
    0 < recordCount p.item

/-- An entry of an agent's buffer is an item or a chunk of one, and reports to it. -/
def ChunkOf (c : ClusterBuffer W) (batchMaxBytes : Nat) (e : Promised W Callback) : Prop :=
  ∃ i it, c.ReportsTo e.done (.wrapped i) ∧ c.items[i]? = some it ∧
    (e.item = it.item ∨ e.item ∈ splitByMaxBytes it.item batchMaxBytes)

/-- The callbacks and results of an operation are those of the items it is about. -/
def OpOk (c : ClusterBuffer W) (ctxErr : Nat → Option GoError) : Op W → Prop
  | .add _ item => 0 < recordCount item
  | .multiAdd ctx todo wrapped =>
      (∀ item ∈ todo, 0 < recordCount item) ∧ ∀ p ∈ wrapped, c.Wrapped ctx p
  | .addToBuffers ctx adding => ∀ p ∈ adding.items, c.Wrapped ctx p
  | .agentBufferFor _ adding | .agentAdd _ adding => ∃ ctx, ∀ p ∈ adding.items, c.Wrapped ctx p
  | .done cb d => c.Sourced ctxErr cb d
  | .fireOrigDone i d | .origDone i d => c.Proper ctxErr i d
  | .flush agent index entries => ∃ a f, c.agentBuffers[agent]? = some a ∧
      a.flushes[index]? = some f ∧ f.entries = entries
  | .closeAgent _ => c.closed = true

section mono

variable {c c' : ClusterBuffer W} {ctxErr ctxErr' : Nat → Option GoError}

theorem Wrapped.mono (grows : Grows c c') {ctx : Option Nat} {p : Promised W Callback}
    (wrapped : c.Wrapped ctx p) : c'.Wrapped ctx p := by
  obtain ⟨i, it, done, found, item, same, positive⟩ := wrapped
  obtain ⟨it', found', sameItem, sameCtx, -⟩ := grows.items i it found
  exact ⟨i, it', done, found', sameItem.trans item, sameCtx.trans same, positive⟩

theorem ChunkOf.mono (grows : Grows c c') {max : Nat} {e : Promised W Callback}
    (chunk : c.ChunkOf max e) : c'.ChunkOf max e := by
  obtain ⟨i, it, reports, found, part⟩ := chunk
  obtain ⟨it', found', sameItem, -⟩ := grows.items i it found
  exact ⟨i, it', reports.mono grows, found', by rw [sameItem]; exact part⟩

theorem OpOk.mono (grows : Grows c c')
    (ends : ∀ n err, ctxErr n = some err → ctxErr' n = some err) {op : Op W}
    (ok : c.OpOk ctxErr op) : c'.OpOk ctxErr' op := by
  cases op with
  | add ctx item => exact ok
  | multiAdd ctx todo wrapped => exact ⟨ok.1, fun p mem => (ok.2 p mem).mono grows⟩
  | addToBuffers ctx adding => exact fun p mem => (ok p mem).mono grows
  | agentBufferFor nodeID adding =>
      obtain ⟨ctx, all⟩ := ok
      exact ⟨ctx, fun p mem => (all p mem).mono grows⟩
  | agentAdd agent adding =>
      obtain ⟨ctx, all⟩ := ok
      exact ⟨ctx, fun p mem => (all p mem).mono grows⟩
  | done cb d => exact Sourced.mono grows ends ok
  | fireOrigDone i d => exact Proper.mono grows ends ok
  | origDone i d => exact Proper.mono grows ends ok
  | flush agent index entries =>
      obtain ⟨a, f, found, flush, same⟩ := ok
      obtain ⟨a', new, found', flushes⟩ := grows.agents agent a found
      refine ⟨a', f, found', ?_, same⟩
      rw [flushes, List.getElem?_append_left (List.getElem?_eq_some_iff.mp flush).1]
      exact flush
  | closeAgent agent => exact grows.closed ok

end mono

/-- Every result in the buffer is sourced, every entry belongs to an item, and every flush
has returned or is about to run. -/
structure Origins (c : ClusterBuffer W) (ctxErr : Nat → Option GoError) (ops : List (Op W)) :
    Prop where
  sound : ∀ op ∈ ops, c.OpOk ctxErr op
  items : ∀ (i : Nat) (it : Item W), c.items[i]? = some it →
    ∀ d ∈ it.completions, c.Proper ctxErr i d
  fanIns : ∀ (j : Nat) (f : FanIn), c.fanIns[j]? = some f → c.FanInOk ctxErr f
  entries : ∀ (agent : Nat) (a : AgentBuffer W Callback), c.agentBuffers[agent]? = some a →
    ∀ e ∈ a.entries, c.ChunkOf a.batchMaxBytes e
  log : ∀ (agent : Nat) (a : AgentBuffer W Callback) (index : Nat) (f : Flush W Callback),
    c.agentBuffers[agent]? = some a → a.flushes[index]? = some f →
      c.FlushReturned agent index ∨ .flush agent index f.entries ∈ ops
  closing : ∀ (agent : Nat) (a : AgentBuffer W Callback), c.agentBuffers[agent]? = some a →
    a.closed = true → c.closed = true

/-- The origins after a step: only what is new has to be looked at. -/
theorem Origins.grow {c c' : ClusterBuffer W} {ctxErr ctxErr' : Nat → Option GoError}
    {ops ops' : List (Op W)} (origins : Origins c ctxErr ops) (grows : Grows c c')
    (ends : ∀ n err, ctxErr n = some err → ctxErr' n = some err)
    (newOps : ∀ op ∈ ops', op ∈ ops ∨ c'.OpOk ctxErr' op)
    (newItems : ∀ (i : Nat) (it : Item W), c'.items[i]? = some it → ∀ d ∈ it.completions,
      (∃ old, c.items[i]? = some old ∧ d ∈ old.completions) ∨ c'.Proper ctxErr' i d)
    (newFanIns : ∀ (j : Nat) (f : FanIn), c'.fanIns[j]? = some f →
      c.fanIns[j]? = some f ∨ c'.FanInOk ctxErr' f)
    (newEntries : ∀ (agent : Nat) (a : AgentBuffer W Callback), c'.agentBuffers[agent]? = some a →
      ∀ e ∈ a.entries, (∃ old, c.agentBuffers[agent]? = some old ∧
        old.batchMaxBytes = a.batchMaxBytes ∧ e ∈ old.entries) ∨ c'.ChunkOf a.batchMaxBytes e)
    (newFlushes : ∀ (agent : Nat) (a : AgentBuffer W Callback) (index : Nat)
      (f : Flush W Callback), c'.agentBuffers[agent]? = some a → a.flushes[index]? = some f →
        (∃ old, c.agentBuffers[agent]? = some old ∧ old.flushes[index]? = some f) ∨
          .flush agent index f.entries ∈ ops')
    (newClosed : ∀ (agent : Nat) (a : AgentBuffer W Callback), c'.agentBuffers[agent]? = some a →
      a.closed = true → c'.closed = true ∨
        ∃ old, c.agentBuffers[agent]? = some old ∧ old.closed = true)
    (kept : ∀ agent index entries, .flush agent index entries ∈ ops →
      c'.FlushReturned agent index ∨ .flush agent index entries ∈ ops') :
    Origins c' ctxErr' ops' where
  sound op mem := by
    rcases newOps op mem with old | ok
    · exact (origins.sound op old).mono grows ends
    · exact ok
  items i it found d mem := by
    rcases newItems i it found d mem with ⟨old, found', mem'⟩ | proper
    · exact (origins.items i old found' d mem').mono grows ends
    · exact proper
  fanIns j f found := by
    rcases newFanIns j f found with old | ok
    · obtain ⟨behind, chosen⟩ := origins.fanIns j f old
      exact ⟨behind, fun d kept => ⟨(chosen d kept).1.mono grows ends, (chosen d kept).2⟩⟩
    · exact ok
  entries agent a found e mem := by
    rcases newEntries agent a found e mem with ⟨old, found', same, mem'⟩ | chunk
    · rw [← same]
      exact (origins.entries agent old found' e mem').mono grows
    · exact chunk
  log agent a index f found flush := by
    rcases newFlushes agent a index f found flush with ⟨old, found', flush'⟩ | started
    · rcases origins.log agent old index f found' flush' with ⟨res, returned⟩ | waiting
      · exact Or.inl ⟨res, grows.returned _ returned⟩
      · exact kept agent index f.entries waiting
    · exact Or.inr started
  closing agent a found closed := by
    rcases newClosed agent a found closed with done | ⟨old, found', was⟩
    · exact done
    · exact grows.closed (origins.closing agent old found' was)

/-- The same when only operations and items change. -/
theorem Origins.growItems {c c' : ClusterBuffer W} {ctxErr : Nat → Option GoError}
    {ops : List (Op W)} {op : Op W} (origins : Origins c ctxErr (op :: ops)) (ops' : List (Op W))
    (grows : Grows c c') (fanIns : c'.fanIns = c.fanIns)
    (agents : c'.agentBuffers = c.agentBuffers)
    (newOps : ∀ op ∈ ops', c'.OpOk ctxErr op)
    (newItems : ∀ (i : Nat) (it : Item W), c'.items[i]? = some it → ∀ d ∈ it.completions,
      (∃ old, c.items[i]? = some old ∧ d ∈ old.completions) ∨ c'.Proper ctxErr i d)
    (other : ∀ agent index entries, op = .flush agent index entries → c'.FlushReturned agent index) :
    Origins c' ctxErr (ops' ++ ops) := by
  refine origins.grow grows (fun _ _ same => same) ?_ newItems ?_ ?_ ?_ ?_ ?_
  · intro op mem
    rcases List.mem_append.mp mem with new | old
    · exact Or.inr (newOps op new)
    · exact Or.inl (List.mem_cons_of_mem _ old)
  · intro j f found
    exact Or.inl (fanIns ▸ found)
  · intro agent a found e mem
    exact Or.inl ⟨a, agents ▸ found, rfl, mem⟩
  · intro agent a index f found flush
    exact Or.inl ⟨a, agents ▸ found, flush⟩
  · intro agent a found closed
    exact Or.inr ⟨a, agents ▸ found, closed⟩
  · intro agent index entries mem
    rcases List.mem_cons.mp mem with rfl | later
    · exact Or.inl (other agent index entries rfl)
    · exact Or.inr (List.mem_append_right _ later)

theorem Origins.perm {c : ClusterBuffer W} {ctxErr : Nat → Option GoError} {ops ops' : List (Op W)}
    (origins : Origins c ctxErr ops) (perm : ops.Perm ops') : Origins c ctxErr ops' where
  sound op mem := origins.sound op (perm.mem_iff.mpr mem)
  items := origins.items
  fanIns := origins.fanIns
  entries := origins.entries
  log agent a index f found flush :=
    (origins.log agent a index f found flush).imp_right perm.mem_iff.mp
  closing := origins.closing

/-- A critical section of an agent's buffer takes chunks of items and starts flushes. -/
theorem Origins.setAgent {c c' : ClusterBuffer W} {ctxErr : Nat → Option GoError}
    {ops : List (Op W)} {agent : Nat} {a after : AgentBuffer W Callback}
    {added : List (Promised W Callback)} (origins : Origins c ctxErr ops)
    (fanIns : List FanIn) (ops' : List (Op W)) (found : c.agentBuffers[agent]? = some a)
    (moves : a.Moves added after)
    (next : c' = { c with
      fanIns := c.fanIns ++ fanIns, agentBuffers := c.agentBuffers.set agent after })
    (closing : after.closed = true → c.closed = true)
    (chunks : ∀ e ∈ added, c'.ChunkOf a.batchMaxBytes e)
    (opened : ∀ f ∈ fanIns, c'.FanInOk ctxErr f)
    (newOps : ∀ op ∈ ops', op ∈ ops ∨ c'.OpOk ctxErr op)
    (kept : ∀ agent index entries, .flush agent index entries ∈ ops →
      .flush agent index entries ∈ ops') :
    Origins c' ctxErr ((flushTasks agent a.flushes.length
      (after.flushes.drop a.flushes.length)).flatten ++ ops') := by
  have inside : agent < c.agentBuffers.length := (List.getElem?_eq_some_iff.mp found).1
  obtain ⟨new, flushes, -⟩ := moves.started
  have started : after.flushes.drop a.flushes.length = new := by rw [flushes, List.drop_left]
  have here : c'.agentBuffers[agent]? = some after := by
    rw [next]
    exact List.getElem?_set_self inside
  have there (k : Nat) (apart : k ≠ agent) : c'.agentBuffers[k]? = c.agentBuffers[k]? := by
    rw [next]
    exact List.getElem?_set_ne (Ne.symm apart)
  rw [started]
  refine origins.grow (next ▸ grows_setAgent c found moves fanIns) (fun _ _ same => same)
    ?_ ?_ ?_ ?_ ?_ ?_ ?_
  · intro op mem
    rcases List.mem_append.mp mem with flush | other
    · obtain ⟨index, f, place, rfl⟩ := mem_flushTasks.mp flush
      refine Or.inr ⟨after, f, here, ?_, rfl⟩
      rw [flushes, List.getElem?_append_right (Nat.le_add_right _ _), Nat.add_sub_cancel_left]
      exact place
    · exact newOps op other
  · intro i it foundItem d mem
    rw [next] at foundItem
    exact Or.inl ⟨it, foundItem, mem⟩
  · intro j f foundFanIn
    rw [next, List.getElem?_append] at foundFanIn
    split at foundFanIn
    · exact Or.inl foundFanIn
    · exact Or.inr (opened f (List.mem_of_getElem? foundFanIn))
  · intro k b foundAgent e mem
    by_cases same : k = agent
    · subst same
      obtain rfl := Option.some.inj (here.symm.trans foundAgent)
      rw [moves.entries] at mem
      rcases List.mem_append.mp mem with old | fresh
      · exact Or.inl ⟨a, found, moves.config.2.symm, old⟩
      · rw [moves.config.2]
        exact Or.inr (chunks e fresh)
    · exact Or.inl ⟨b, there k same ▸ foundAgent, rfl, mem⟩
  · intro k b index f foundAgent flush
    by_cases same : k = agent
    · subst same
      obtain rfl := Option.some.inj (here.symm.trans foundAgent)
      rw [flushes, List.getElem?_append] at flush
      split at flush
      · exact Or.inl ⟨a, found, flush⟩
      · refine Or.inr (List.mem_append_left _ (mem_flushTasks.mpr ⟨_, f, flush, ?_⟩))
        rw [Nat.add_sub_cancel' (by omega)]
    · exact Or.inl ⟨b, there k same ▸ foundAgent, flush⟩
  · intro k b foundAgent closed
    by_cases same : k = agent
    · subst same
      obtain rfl := Option.some.inj (here.symm.trans foundAgent)
      rw [next]
      exact Or.inl (closing closed)
    · exact Or.inr ⟨b, there k same ▸ foundAgent, closed⟩
  · intro k index entries mem
    exact Or.inr (List.mem_append_right _ (kept k index entries mem))

section items

variable {items : List (Item W)} {i k : Nat} {it : Item W} {d : Delivery}

omit [RoutedBatch W] in
theorem completion_of_append {ctx : Option Nat} {item : W}
    (found : (items ++ [.new ctx item])[k]? = some it) (mem : d ∈ it.completions) :
    ∃ old, items[k]? = some old ∧ d ∈ old.completions := by
  rw [List.getElem?_append] at found
  split at found
  · exact ⟨it, found, mem⟩
  · obtain rfl := List.mem_singleton.mp (List.mem_of_getElem? found)
    cases mem

omit [RoutedBatch W] in
theorem completion_of_set {before after : Item W} (here : items[i]? = some before)
    (found : (items.set i after)[k]? = some it) (mem : d ∈ it.completions) :
    (∃ old, items[k]? = some old ∧ d ∈ old.completions) ∨
      k = i ∧ d ∈ after.completions ∧ d ∉ before.completions := by
  by_cases same : k = i
  · subst same
    rw [List.getElem?_set_self (List.getElem?_eq_some_iff.mp here).1] at found
    obtain rfl := Option.some.inj found
    by_cases old : d ∈ before.completions
    · exact Or.inl ⟨before, here, old⟩
    · exact Or.inr ⟨rfl, mem, old⟩
  · rw [List.getElem?_set_ne (Ne.symm same)] at found
    exact Or.inl ⟨it, found, mem⟩

end items

/-- The new operations when an item is reported. -/
theorem Origins.settle {c c' : ClusterBuffer W} {ctxErr : Nat → Option GoError} {ops : List (Op W)}
    {i : Nat} {d : Delivery} {it : Item W}
    (origins : Origins c ctxErr (.done (.wrapped i) d :: ops)) (found : c.items[i]? = some it)
    (grows : Grows c c') (after : Item W) (reported : 0 < after.reported)
    (kept : after.completions = it.completions) (items : c'.items = c.items.set i after)
    (fanIns : c'.fanIns = c.fanIns) (agents : c'.agentBuffers = c.agentBuffers) {op : Op W}
    (next : op = .fireOrigDone i d ∨ op = .origDone i d) : Origins c' ctxErr (op :: ops) := by
  have inside : i < c.items.length := (List.getElem?_eq_some_iff.mp found).1
  have proper : c'.Proper ctxErr i d := by
    refine ⟨Sourced.mono grows (fun _ _ same => same) (origins.sound _ List.mem_cons_self), ?_⟩
    intro _
    exact ⟨after, by rw [items]; exact List.getElem?_set_self inside, reported⟩
  refine origins.growItems [op] grows fanIns agents ?_ ?_ (by simp)
  · intro new mem
    obtain rfl := List.mem_singleton.mp mem
    rcases next with rfl | rfl
    · exact proper
    · exact proper
  · intro k it' found' r mem
    rw [items] at found'
    rcases completion_of_set found found' mem with old | ⟨-, new, absent⟩
    · exact Or.inl old
    · exact absurd (kept ▸ new) absent

/-- A chunk reports to its fan-in, which passes the kept result on after the last one. -/
theorem Origins.fanInReport {c : ClusterBuffer W} {ctxErr : Nat → Option GoError}
    {ops : List (Op W)} {j : Nat} {f : FanIn} {d : Delivery}
    (origins : Origins c ctxErr (.done (.fanIn j) d :: ops)) (found : c.fanIns[j]? = some f)
    (next : List (Op W)) (passes : ∀ op ∈ next, ∃ result, (f.report d).chosen = some result ∧
      op = .done (f.report d).origDone result) :
    Origins { c with fanIns := c.fanIns.set j (f.report d) } ctxErr (next ++ ops) := by
  have grows := grows_setFanIn c found d
  have reported : FanInOk { c with fanIns := c.fanIns.set j (f.report d) } ctxErr (f.report d) :=
    (origins.fanIns j f found).report grows found (fun k g place => (origins.fanIns k g place).1)
      (origins.sound _ List.mem_cons_self)
  refine origins.grow grows (fun _ _ same => same) ?_ ?_ ?_ ?_ ?_ ?_ ?_
  · intro op mem
    rcases List.mem_append.mp mem with new | old
    · obtain ⟨result, chosen, rfl⟩ := passes op new
      exact Or.inr (reported.2 result chosen).1
    · exact Or.inl (List.mem_cons_of_mem _ old)
  · intro i it place r mem
    exact Or.inl ⟨it, place, mem⟩
  · intro k g place
    rcases List.mem_or_eq_of_mem_set (List.mem_of_getElem? place) with - | rfl
    · by_cases same : k = j
      · subst same
        have set := List.getElem?_set_self (a := f.report d) (List.getElem?_eq_some_iff.mp found).1
        obtain rfl := Option.some.inj (set.symm.trans place)
        exact Or.inr reported
      · exact Or.inl (by rwa [List.getElem?_set_ne (Ne.symm same)] at place)
    · exact Or.inr reported
  · intro agent a place e mem
    exact Or.inl ⟨a, place, rfl, mem⟩
  · intro agent a index g place flush
    exact Or.inl ⟨a, place, flush⟩
  · intro agent a place closed
    exact Or.inr ⟨a, place, closed⟩
  · intro agent index entries mem
    have tail := (List.mem_cons.mp mem).resolve_left fun same => by cases same
    exact Or.inr (List.mem_append_right _ tail)

/-- Adding to an agent's buffer: the entries are chunks of the items that were added. -/
theorem Origins.agentAdd {c : ClusterBuffer W} {ctxErr : Nat → Option GoError} {ops : List (Op W)}
    {agent : Nat} {adding : Adding W} {a after : AgentBuffer W Callback} {refused : List Callback}
    (origins : Origins c ctxErr (.agentAdd agent adding :: ops))
    (found : c.agentBuffers[agent]? = some a)
    (added : addTo a (fun k => .fanIn (c.fanIns.length + k)) adding = some (after, refused)) :
    let effect := ClusterBuffer.setAgent
      { c with fanIns := c.fanIns ++ (splits a adding).map (newFanIn a.batchMaxBytes) } agent a
      after (refused.map fun cb => .done cb ⟨{ err := some GoError.errBufferClosed }, .closed⟩)
    Origins effect.next ctxErr (effect.ops ++ effect.spawned.flatten ++ ops) := by
  obtain ⟨ctx, wrapped⟩ := origins.sound _ List.mem_cons_self
  have positive (p : Promised W Callback) (mem : p ∈ adding.items) : 0 < recordCount p.item := by
    obtain ⟨_, _, -, -, -, -, some⟩ := wrapped p mem
    exact some
  obtain ⟨chunks, taken, -, parts⟩ := addTo_cases positive added
  have refusal (cb : Callback) (mem : cb ∈ refused) : c.closed = true := by
    rcases taken with ⟨-, rfl, -⟩ | ⟨closed, -, -⟩
    · cases mem
    · exact origins.closing agent a found closed
  obtain ⟨added', moves, only, same⟩ : ∃ added', a.Moves added' after ∧
      (∀ e ∈ added', e ∈ chunks) ∧ after.closed = a.closed := by
    rcases taken with ⟨moves, -, same⟩ | ⟨-, rfl, -⟩
    · exact ⟨chunks, moves, fun e mem => mem, same⟩
    · exact ⟨[], .refl, List.forall_mem_nil _, rfl⟩
  set fanIns := (splits a adding).map (newFanIn a.batchMaxBytes) with fanIns_eq
  have behind (f : FanIn) (mem : f ∈ fanIns) : ∃ p ∈ adding.items, f = newFanIn a.batchMaxBytes p := by
    obtain ⟨p, inside, rfl⟩ := List.mem_map.mp mem
    refine ⟨p, ?_, rfl⟩
    cases adding with
    | one q =>
        simp only [splits] at inside
        split at inside
        · cases inside
        · exact inside
    | many items =>
        simp only [splits] at inside
        split at inside
        · cases inside
        · exact inside
  have closed := origins.setAgent fanIns
    ((refused.map fun cb => .done cb ⟨{ err := some GoError.errBufferClosed }, .closed⟩) ++ ops)
    found moves rfl (fun closed => origins.closing agent a found (same ▸ closed)) ?_ ?_ ?_ ?_
  · refine closed.perm ?_
    simp only [ClusterBuffer.setAgent, ← List.append_assoc]
    exact List.perm_append_comm.append_right _
  · intro e mem
    obtain ⟨p, inside, whole | ⟨k, place, done, part⟩⟩ := parts e (only e mem)
    · obtain ⟨i, it, done, foundItem, item, -⟩ := wrapped p inside
      refine ⟨i, it, Or.inl (by rw [whole, done]), foundItem, Or.inl ?_⟩
      rw [whole, item]
    · obtain ⟨i, it, direct, foundItem, item, -⟩ := wrapped p inside
      refine ⟨i, it, Or.inr ⟨c.fanIns.length + k, newFanIn a.batchMaxBytes p, done, ?_, direct⟩,
        foundItem, Or.inr ?_⟩
      · change (c.fanIns ++ fanIns)[c.fanIns.length + k]? = _
        rw [List.getElem?_append_right (Nat.le_add_right _ _), Nat.add_sub_cancel_left]
        exact place
      · rw [item]
        exact part
  · intro f mem
    obtain ⟨p, inside, rfl⟩ := behind f mem
    obtain ⟨i, it, direct, -⟩ := wrapped p inside
    exact ⟨⟨i, direct⟩, fun d chosen => by cases chosen⟩
  · intro op mem
    rcases List.mem_append.mp mem with new | old
    · obtain ⟨cb, inside, rfl⟩ := List.mem_map.mp new
      exact Or.inr ⟨refusal cb inside, rfl⟩
    · exact Or.inl (List.mem_cons_of_mem _ old)
  · intro k index entries mem
    exact List.mem_append_right _ ((List.mem_cons.mp mem).resolve_left fun same => by cases same)

/-- A new agent's buffer has no entries, no flushes and is open. -/
theorem Origins.newAgentBuffer {c : ClusterBuffer W} {ctxErr : Nat → Option GoError}
    {ops : List (Op W)} {nodeID : Int} {adding : Adding W}
    (origins : Origins c ctxErr (.agentBufferFor nodeID adding :: ops))
    (grows : Grows c { c with
      agentBuffers := c.agentBuffers ++ [{ nodeID := nodeID, batchMaxBytes := c.batchMaxBytes }] }) :
    Origins { c with
        agentBuffers := c.agentBuffers ++ [{ nodeID := nodeID, batchMaxBytes := c.batchMaxBytes }] }
      ctxErr (.agentAdd c.agentBuffers.length adding :: ops) := by
  have fresh {k : Nat} {a : AgentBuffer W Callback} (found : (c.agentBuffers ++
      [{ nodeID := nodeID, batchMaxBytes := c.batchMaxBytes }])[k]? = some a) :
      c.agentBuffers[k]? = some a ∨ a.entries = [] ∧ a.flushes = [] ∧ a.closed = false := by
    rw [List.getElem?_append] at found
    split at found
    · exact Or.inl found
    · obtain rfl := List.mem_singleton.mp (List.mem_of_getElem? found)
      exact Or.inr ⟨rfl, rfl, rfl⟩
  refine origins.grow grows (fun _ _ same => same) ?_
    (fun i it found d mem => Or.inl ⟨it, found, mem⟩) (fun j f found => Or.inl found) ?_ ?_ ?_ ?_
  · intro op mem
    rcases List.mem_cons.mp mem with rfl | old
    · obtain ⟨ctx, all⟩ := origins.sound _ List.mem_cons_self
      exact Or.inr ⟨ctx, fun p inside => (all p inside).mono grows⟩
    · exact Or.inl (List.mem_cons_of_mem _ old)
  · intro k a found e mem
    rcases fresh found with old | ⟨empty, -⟩
    · exact Or.inl ⟨a, old, rfl, mem⟩
    · rw [empty] at mem
      cases mem
  · intro k a index f found flush
    rcases fresh found with old | ⟨-, empty, -⟩
    · exact Or.inl ⟨a, old, flush⟩
    · rw [empty] at flush
      cases flush
  · intro k a found closed
    rcases fresh found with old | ⟨-, -, isOpen⟩
    · exact Or.inr ⟨a, old, closed⟩
    · cases isOpen.symm.trans closed
  · intro k index entries mem
    exact Or.inr (List.mem_cons_of_mem _
      ((List.mem_cons.mp mem).resolve_left fun same => by cases same))

/-- An operation that only turns into other ones. -/
theorem Origins.turns {c : ClusterBuffer W} {ctxErr : Nat → Option GoError} {ops : List (Op W)}
    {op : Op W} (origins : Origins c ctxErr (op :: ops)) (next : List (Op W))
    (new : ∀ op ∈ next, c.OpOk ctxErr op)
    (other : ∀ agent index entries, op ≠ .flush agent index entries) :
    Origins c ctxErr (next ++ [] ++ ops) := by
  rw [List.append_nil]
  exact origins.growItems next (Grows.refl c) rfl rfl new
    (fun i it found d mem => Or.inl ⟨it, found, mem⟩)
    (fun agent index entries same => absurd same (other agent index entries))

theorem wrapped_wrap (c : ClusterBuffer W) (ctx : Option Nat) {item : W}
    (positive : 0 < recordCount item) :
    (c.wrap ctx item).1.Wrapped ctx ⟨item, .wrapped c.items.length⟩ :=
  ⟨c.items.length, .new ctx item, rfl, by simp [ClusterBuffer.wrap], rfl, rfl, positive⟩

/-- Every operation keeps the origins. -/
theorem Origins.runs {c : ClusterBuffer W} {ctxErr : Nat → Option GoError} {ops : List (Op W)}
    {op : Op W} {effect : Effect W} (origins : Origins c ctxErr (op :: ops))
    (ran : Runs c ctxErr op effect) :
    Origins effect.next ctxErr (effect.ops ++ effect.spawned.flatten ++ ops) := by
  have ok := origins.sound op List.mem_cons_self
  have grows := ran.grows
  cases ran with
  | add ctx item =>
      refine origins.growItems [_] grows rfl rfl ?_
        (fun i it found d mem => Or.inl (completion_of_append found mem))
        (by simp)
      intro op mem
      obtain rfl := List.mem_singleton.mp mem
      intro p inside
      obtain rfl := List.mem_singleton.mp inside
      exact c.wrapped_wrap ctx ok
  | wrapped ctx wrapped =>
      refine origins.turns _ ?_ (by simp)
      intro op mem
      obtain rfl := List.mem_singleton.mp mem
      exact ok.2
  | wrap ctx item todo wrapped =>
      refine origins.growItems [_] grows rfl rfl ?_
        (fun i it found d mem => Or.inl (completion_of_append found mem))
        (by simp)
      intro op mem
      obtain rfl := List.mem_singleton.mp mem
      refine ⟨fun item' inside => ok.1 item' (List.mem_cons_of_mem _ inside), ?_⟩
      intro p inside
      rcases List.mem_append.mp inside with old | new
      · exact (ok.2 p old).mono grows
      · obtain rfl := List.mem_singleton.mp new
        exact c.wrapped_wrap ctx (ok.1 item List.mem_cons_self)
  | ctxFailed n adding err ended =>
      refine origins.turns _ ?_ (by simp)
      intro op mem
      obtain ⟨p, inside, rfl⟩ := List.mem_map.mp mem
      obtain ⟨i, it, done, found, -, ctx, -⟩ := ok p inside
      exact ⟨i, it, n, err, done, found, ctx, ended, rfl⟩
  | addToBuffer ctx p =>
      refine origins.turns _ ?_ (by simp)
      intro op mem
      obtain rfl := List.mem_singleton.mp mem
      exact ⟨ctx, ok⟩
  | addToBuffers ctx items bins binned =>
      refine origins.turns _ ?_ (by simp)
      intro op mem
      obtain ⟨bin, inside, rfl⟩ := List.mem_map.mp mem
      refine ⟨ctx, fun p member => ok p ?_⟩
      have grouped := (binned.flatMap_right Prod.snd).trans (FirstSeen.flatMap_groupBy_perm _ items)
      exact grouped.mem_iff.mp (List.mem_flatMap.mpr ⟨bin, inside, member⟩)
  | bufferClosed nodeID adding closed =>
      refine origins.turns _ ?_ (by simp)
      intro op mem
      obtain ⟨p, -, rfl⟩ := List.mem_map.mp mem
      exact ⟨closed, rfl⟩
  | agentBuffer nodeID adding agent found =>
      refine origins.turns _ ?_ (by simp)
      intro op mem
      obtain rfl := List.mem_singleton.mp mem
      exact ok
  | newAgentBuffer nodeID adding absent => exact origins.newAgentBuffer grows
  | agentAdd agent adding a after refused found added => exact origins.agentAdd found added
  | doneBare i d it found bare =>
      exact origins.settle found grows it.settled (Nat.succ_pos _) rfl rfl rfl rfl (Or.inr rfl)
  | done i d it found gated first =>
      exact origins.settle found grows it.settled (Nat.succ_pos _) rfl rfl rfl rfl (Or.inl rfl)
  | doneAgain i d it found gated again =>
      exact origins.settle found grows { it with reported := it.reported + 1 } (Nat.succ_pos _) rfl
        rfl rfl rfl (Or.inl rfl)
  | fanIn j d f found more => exact origins.fanInReport found [] (List.forall_mem_nil _)
  | fanInLast j d f result found last chosen =>
      refine origins.fanInReport found [_] ?_
      intro op mem
      exact ⟨result, chosen, List.mem_singleton.mp mem⟩
  | fireLost i d it found fired =>
      exact origins.turns [] (List.forall_mem_nil _) (by simp)
  | fireWon i d it found first =>
      refine origins.growItems [_] grows rfl rfl ?_ ?_ (by simp)
      · intro op mem
        obtain rfl := List.mem_singleton.mp mem
        exact Proper.mono grows (fun _ _ same => same) ok
      · intro k it' found' r mem
        rcases completion_of_set found found' mem with old | ⟨-, new, absent⟩
        · exact Or.inl old
        · exact absurd new absent
  | origDone i d it found =>
      refine origins.growItems [] grows rfl rfl (List.forall_mem_nil _) ?_
        (by simp)
      intro k it' found' r mem
      rcases completion_of_set found found' mem with old | ⟨rfl, new, absent⟩
      · exact Or.inl old
      · obtain rfl := List.mem_singleton.mp ((List.mem_append.mp new).resolve_left absent)
        exact Or.inr (Proper.mono grows (fun _ _ same => same) ok)
  | flush agent index entries res =>
      have here : ⟨agent, index, res⟩ ∈ c.returned ++ [⟨agent, index, res⟩] := by simp
      rw [List.flatten_nil, List.append_nil]
      refine origins.growItems _ grows rfl rfl ?_ (fun i it found d mem => Or.inl ⟨it, found, mem⟩) ?_
      · intro op mem
        obtain ⟨e, inside, rfl⟩ := List.mem_map.mp mem
        obtain ⟨a, f, found, flush, rfl⟩ := ok
        exact ⟨here, a, f, e, found, flush, inside, Or.inl rfl⟩
      · intro agent' index' entries' same
        obtain ⟨rfl, rfl, -⟩ := Op.flush.inj same
        exact ⟨res, here⟩
  | closeAgent agent a after found closing =>
      refine origins.setAgent [] ops found (AgentBuffer.close_moves closing)
        (by simp [ClusterBuffer.setAgent]) (fun _ => ok) (List.forall_mem_nil _) (List.forall_mem_nil _)
        (fun op mem => Or.inl (List.mem_cons_of_mem _ mem)) ?_
      intro k index entries mem
      exact (List.mem_cons.mp mem).resolve_left fun same => by cases same

end ClusterBuffer

end Warpstream
