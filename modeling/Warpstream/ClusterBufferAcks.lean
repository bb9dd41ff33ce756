import Warpstream.ClusterBufferOnce
import Warpstream.SplitFanIn

set_option autoImplicit false

/- What a success means in the cluster buffer. A result on its way to a callback is either
still with a goroutine or has been heard, and a fan-in that heard an error keeps one; so an
item that is told of no error had every chunk in a flush without one. -/
namespace Warpstream

open RoutedBatch

namespace FanIn

/-- The kept result has an error for the partition. -/
def Failed (f : FanIn) : Prop := ∃ d, f.chosen = some d ∧ recordErrFromResult d.res f.tp ≠ none

/-- `chosenOK` says what the kept result says. -/
def Honest (f : FanIn) : Prop :=
  ∀ d, f.chosen = some d → f.chosenOK = (recordErrFromResult d.res f.tp).isNone

/-- The first result is kept, and an error takes the place of a success. -/
theorem report_chosen (f : FanIn) (d : Delivery) :
    ((f.chosen = none ∨ f.chosenOK = true ∧ recordErrFromResult d.res f.tp ≠ none) ∧
        (f.report d).chosen = some d ∧
        (f.report d).chosenOK = (recordErrFromResult d.res f.tp).isNone) ∨
      (∃ kept, f.chosen = some kept) ∧
        (f.chosenOK = false ∨ recordErrFromResult d.res f.tp = none) ∧
        (f.report d).chosen = f.chosen ∧ (f.report d).chosenOK = f.chosenOK := by
  cases chosen : f.chosen with
  | none =>
      have reported := report_of_chosen_none chosen d
      refine Or.inl ⟨Or.inl rfl, ?_⟩
      cases err : recordErrFromResult d.res f.tp <;> simp [reported, failed, err]
  | some kept =>
      have reported := report_of_chosen_some chosen d
      cases ok : f.chosenOK <;> cases err : recordErrFromResult d.res f.tp <;>
        simp [reported, failed, ok, err]

theorem Honest.report {f : FanIn} (honest : f.Honest) (d : Delivery) : (f.report d).Honest := by
  intro r kept
  rw [report_tp]
  rcases f.report_chosen d with ⟨-, chosen, ok⟩ | ⟨-, -, chosen, ok⟩
  · obtain rfl := Option.some.inj (chosen.symm.trans kept)
    exact ok
  · rw [ok]
    exact honest r (chosen.symm.trans kept)

/-- An error is not forgotten. -/
theorem Honest.failed_report {f : FanIn} (honest : f.Honest) {d : Delivery}
    (failed : f.Failed ∨ recordErrFromResult d.res f.tp ≠ none) : (f.report d).Failed := by
  unfold Failed
  rw [report_tp]
  rcases f.report_chosen d with ⟨before, chosen, -⟩ | ⟨⟨kept, was⟩, known, chosen, -⟩
  · refine ⟨d, chosen, ?_⟩
    rcases failed with ⟨kept, was, -⟩ | err
    · rcases before with none | ⟨-, err⟩
      · cases none.symm.trans was
      · exact err
    · exact err
  · refine ⟨kept, chosen.trans was, ?_⟩
    rcases failed with ⟨other, same, err⟩ | err
    · obtain rfl := Option.some.inj (was.symm.trans same)
      exact err
    · have ok := honest kept was
      rw [known.resolve_right err] at ok
      intro none
      rw [none] at ok
      cases ok

end FanIn

/-- The operation tells no item of a result. -/
def Op.Quiet {W : Type} (op : Op W) : Prop := ∀ i d, op ≠ .fireOrigDone i d ∧ op ≠ .origDone i d

namespace ClusterBuffer

variable {W : Type}

/-- The original callback of the item was, or may yet be, called with the result of a
flush or the refusal of a closed buffer. -/
def Told (c : ClusterBuffer W) (ops : List (Op W)) (i : Nat) (d : Delivery) : Prop :=
  d.cause ≠ .ctx ∧ (.fireOrigDone i d ∈ ops ∨ .origDone i d ∈ ops ∨
    ∃ it, c.items[i]? = some it ∧ d ∈ it.completions)

/-- The callback has run with the result: an item tells of nothing else, and a fan-in
remembers an error. -/
def Heard (c : ClusterBuffer W) (ops : List (Op W)) : Callback → Delivery → Prop
  | .wrapped i, d => c.Reported i ∧ ∀ other, c.Told ops i other → other = d
  | .fanIn j, d => ∃ f, c.fanIns[j]? = some f ∧ (recordErrFromResult d.res f.tp ≠ none → f.Failed)

/-- The callback will run, or has run, with the result. -/
def Passed (c : ClusterBuffer W) (ops : List (Op W)) (cb : Callback) (d : Delivery) : Prop :=
  .done cb d ∈ ops ∨ c.Heard ops cb d

/-- The result of a flush is passed to every entry of the flush. -/
def Answered (c : ClusterBuffer W) (ops : List (Op W)) (ret : FlushReturn) : Prop :=
  ∃ a f, c.agentBuffers[ret.agent]? = some a ∧ a.flushes[ret.index]? = some f ∧
    ∀ e ∈ f.entries, c.Passed ops e.done ⟨ret.res, .flush ret.agent ret.index⟩

section passed

variable {c c' : ClusterBuffer W} {ops ops' : List (Op W)}

/-- Fan-ins keep their errors from `c` to `c'`. -/
def KeepsFailures (c c' : ClusterBuffer W) : Prop :=
  ∀ (j : Nat) (f : FanIn), c.fanIns[j]? = some f →
    ∃ f', c'.fanIns[j]? = some f' ∧ f'.tp = f.tp ∧ (f.Failed → f'.Failed)

theorem KeepsFailures.refl (c : ClusterBuffer W) : KeepsFailures c c :=
  fun _ f found => ⟨f, found, rfl, fun failed => failed⟩

theorem Heard.mono (grows : Grows c c') (keeps : KeepsFailures c c')
    (untold : ∀ i d, c'.Told ops' i d → c.Told ops i d) {cb : Callback} {d : Delivery}
    (heard : c.Heard ops cb d) : c'.Heard ops' cb d := by
  cases cb with
  | wrapped i => exact ⟨heard.1.mono grows, fun other told => heard.2 other (untold i other told)⟩
  | fanIn j =>
      obtain ⟨f, found, remembers⟩ := heard
      obtain ⟨f', found', tp, failed⟩ := keeps j f found
      exact ⟨f', found', fun err => failed (remembers (tp ▸ err))⟩

theorem Passed.mono (grows : Grows c c') (keeps : KeepsFailures c c')
    (untold : ∀ i d, c'.Told ops' i d → c.Told ops i d)
    (kept : ∀ cb d, .done cb d ∈ ops → .done cb d ∈ ops') {cb : Callback} {d : Delivery}
    (passed : c.Passed ops cb d) : c'.Passed ops' cb d :=
  passed.imp (kept cb d) (Heard.mono grows keeps untold)

theorem Answered.mono (grows : Grows c c')
    (carry : ∀ cb d, c.Passed ops cb d → c'.Passed ops' cb d) {ret : FlushReturn}
    (answered : c.Answered ops ret) : c'.Answered ops' ret := by
  obtain ⟨a, f, found, flush, passed⟩ := answered
  obtain ⟨a', new, found', flushes⟩ := grows.agents ret.agent a found
  refine ⟨a', f, found', ?_, fun e mem => carry _ _ (passed e mem)⟩
  rw [flushes, List.getElem?_append_left (List.getElem?_eq_some_iff.mp flush).1]
  exact flush

end passed

section ops

variable {c c' : ClusterBuffer W} {op : Op W} {ops : List (Op W)}

/-- An operation that is no callback itself. -/
theorem carry_of_untold (next : List (Op W)) (grows : Grows c c') (keeps : KeepsFailures c c')
    (other : ∀ cb d, op ≠ .done cb d)
    (untold : ∀ i d, c'.Told (next ++ ops) i d → c.Told (op :: ops) i d)
    (cb : Callback) (d : Delivery) (passed : c.Passed (op :: ops) cb d) :
    c'.Passed (next ++ ops) cb d :=
  passed.mono grows keeps untold fun cb d mem =>
    List.mem_append_right _ ((List.mem_cons.mp mem).resolve_left fun same => other cb d same.symm)

theorem Told.of_quiet {next : List (Op W)} (quiet : ∀ op ∈ next, op.Quiet)
    (items : ∀ (i : Nat) (it : Item W) (d : Delivery), c'.items[i]? = some it →
      d ∈ it.completions → ∃ old, c.items[i]? = some old ∧ d ∈ old.completions)
    {i : Nat} {d : Delivery} (told : c'.Told (next ++ ops) i d) : c.Told (op :: ops) i d := by
  obtain ⟨late, fires | completes | ⟨it, found, mem⟩⟩ := told
  · refine ⟨late, Or.inl (List.mem_cons_of_mem _ ?_)⟩
    exact (List.mem_append.mp fires).resolve_left fun mem => (quiet _ mem i d).1 rfl
  · refine ⟨late, Or.inr (Or.inl (List.mem_cons_of_mem _ ?_))⟩
    exact (List.mem_append.mp completes).resolve_left fun mem => (quiet _ mem i d).2 rfl
  · exact ⟨late, Or.inr (Or.inr (items i it d found mem))⟩

end ops

variable [RoutedBatch W]

/-- An entry of an agent's buffer is an item, or a chunk of one that is there with all the
item's other chunks. -/
def Whole (c : ClusterBuffer W) (a : AgentBuffer W Callback) (e : Promised W Callback) : Prop :=
  (∃ i it, e.done = .wrapped i ∧ c.items[i]? = some it ∧ e.item = it.item) ∨
    ∃ j f i it, e.done = .fanIn j ∧ c.fanIns[j]? = some f ∧ f.origDone = .wrapped i ∧
      c.items[i]? = some it ∧
      ∀ part ∈ splitByMaxBytes it.item a.batchMaxBytes, ⟨part, .fanIn j⟩ ∈ a.entries

/-- The fan-in stands for an item, and is about the item's partition. -/
def Behind (c : ClusterBuffer W) (f : FanIn) : Prop :=
  ∃ i it, f.origDone = .wrapped i ∧ c.items[i]? = some it ∧ f.tp = getTopicPartition it.item

/-- No result is lost on the way from a flush to the items it carried. -/
structure Acks (c : ClusterBuffer W) (ops : List (Op W)) : Prop where
  honest : ∀ f ∈ c.fanIns, f.Honest
  behind : ∀ f ∈ c.fanIns, c.Behind f
  forwarded : ∀ f ∈ c.fanIns, f.remaining = 0 → ∀ d, f.chosen = some d → c.Passed ops f.origDone d
  answered : ∀ ret ∈ c.returned, c.Answered ops ret
  whole : ∀ a ∈ c.agentBuffers, ∀ e ∈ a.entries, c.Whole a e

section grow

variable {c c' : ClusterBuffer W} {ops ops' : List (Op W)}

theorem Behind.mono (grows : Grows c c') {f : FanIn} (behind : c.Behind f) : c'.Behind f := by
  obtain ⟨i, it, orig, found, tp⟩ := behind
  obtain ⟨it', found', same, -⟩ := grows.items i it found
  exact ⟨i, it', orig, found', by rw [same]; exact tp⟩

theorem Whole.mono (grows : Grows c c') {a a' : AgentBuffer W Callback} {e : Promised W Callback}
    (size : a'.batchMaxBytes = a.batchMaxBytes) (more : ∀ e ∈ a.entries, e ∈ a'.entries)
    (whole : c.Whole a e) : c'.Whole a' e := by
  rcases whole with ⟨i, it, done, found, same⟩ | ⟨j, f, i, it, done, foundFanIn, orig, found, parts⟩
  · obtain ⟨it', found', item, -⟩ := grows.items i it found
    exact Or.inl ⟨i, it', done, found', same.trans item.symm⟩
  · obtain ⟨f', foundFanIn', kept⟩ := grows.fanIns j f foundFanIn
    obtain ⟨it', found', item, -⟩ := grows.items i it found
    refine Or.inr ⟨j, f', i, it', done, foundFanIn', kept.trans orig, found', fun part mem => ?_⟩
    rw [item, size] at mem
    exact more _ (parts part mem)

/-- The invariant after a step: only what is new has to be looked at. -/
theorem Acks.grow (acks : Acks c ops) (grows : Grows c c')
    (carry : ∀ cb d, c.Passed ops cb d → c'.Passed ops' cb d)
    (newFanIns : ∀ f ∈ c'.fanIns, f ∈ c.fanIns ∨ f.Honest ∧ c'.Behind f ∧
      (f.remaining = 0 → ∀ d, f.chosen = some d → c'.Passed ops' f.origDone d))
    (newReturned : ∀ ret ∈ c'.returned, ret ∈ c.returned ∨ c'.Answered ops' ret)
    (newEntries : ∀ a ∈ c'.agentBuffers, ∀ e ∈ a.entries, c'.Whole a e ∨
      ∃ old ∈ c.agentBuffers, a.batchMaxBytes = old.batchMaxBytes ∧ e ∈ old.entries ∧
        ∀ e ∈ old.entries, e ∈ a.entries) : Acks c' ops' where
  honest f mem := by
    rcases newFanIns f mem with old | ⟨honest, -⟩
    · exact acks.honest f old
    · exact honest
  behind f mem := by
    rcases newFanIns f mem with old | ⟨-, behind, -⟩
    · exact (acks.behind f old).mono grows
    · exact behind
  forwarded f mem last d chosen := by
    rcases newFanIns f mem with old | ⟨-, -, forwarded⟩
    · exact carry _ _ (acks.forwarded f old last d chosen)
    · exact forwarded last d chosen
  answered ret mem := by
    rcases newReturned ret mem with old | answered
    · exact (acks.answered ret old).mono grows carry
    · exact answered
  whole a mem e inside := by
    rcases newEntries a mem e inside with whole | ⟨old, found, size, was, more⟩
    · exact whole
    · exact (acks.whole old found e was).mono grows size more

/-- The same when fan-ins, flushes and entries stay as they are. -/
theorem Acks.growItems (acks : Acks c ops) (grows : Grows c c')
    (carry : ∀ cb d, c.Passed ops cb d → c'.Passed ops' cb d) (fanIns : c'.fanIns = c.fanIns)
    (agents : c'.agentBuffers = c.agentBuffers) (returned : c'.returned = c.returned) :
    Acks c' ops' :=
  acks.grow grows carry (fun _ mem => Or.inl (fanIns ▸ mem)) (fun _ mem => Or.inl (returned ▸ mem))
    fun a mem _ inside => Or.inr ⟨a, agents ▸ mem, rfl, inside, fun _ mem => mem⟩

theorem Acks.perm (acks : Acks c ops) (perm : ops.Perm ops') : Acks c ops' := by
  refine acks.growItems (Grows.refl c) (fun cb d passed => ?_) rfl rfl rfl
  refine passed.mono (Grows.refl c) (KeepsFailures.refl c) ?_ fun cb d mem => perm.mem_iff.mp mem
  rintro i d ⟨late, told⟩
  rw [← perm.mem_iff, ← perm.mem_iff] at told
  exact ⟨late, told⟩

end grow

section step

variable {c c' : ClusterBuffer W} {ctxErr : Nat → Option GoError} {op : Op W} {ops : List (Op W)}

/-- An operation that turns into quiet ones, with fan-ins, flushes and entries as before. -/
theorem Acks.quiet (acks : Acks c (op :: ops)) (grows : Grows c c') (next : List (Op W))
    (other : ∀ cb d, op ≠ .done cb d) (quiet : ∀ op ∈ next, op.Quiet)
    (items : ∀ (i : Nat) (it : Item W) (d : Delivery), c'.items[i]? = some it →
      d ∈ it.completions → ∃ old, c.items[i]? = some old ∧ d ∈ old.completions)
    (fanIns : c'.fanIns = c.fanIns) (agents : c'.agentBuffers = c.agentBuffers)
    (returned : c'.returned = c.returned) : Acks c' (next ++ ops) := by
  refine acks.growItems grows (carry_of_untold _ grows (fun j f found => ?_) other ?_) fanIns agents
    returned
  · exact ⟨f, fanIns ▸ found, rfl, fun failed => failed⟩
  · exact fun i d told => told.of_quiet quiet items

/-- The parts of a split item are added together. -/
theorem splitAll_whole {max first : Nat} {items : List (Promised W Callback)}
    {chunk : Promised W Callback}
    (mem : chunk ∈ AgentBuffer.splitAll max (fun k => .fanIn (first + k)) items) :
    ∃ p ∈ items, chunk = p ∨ ∃ k, (items.map (newFanIn max))[k]? = some (newFanIn max p) ∧
      chunk.done = .fanIn (first + k) ∧ ∀ part ∈ splitByMaxBytes p.item max,
        ⟨part, .fanIn (first + k)⟩ ∈
          AgentBuffer.splitAll max (fun k => .fanIn (first + k)) items := by
  induction items generalizing first with
  | nil => cases mem
  | cons p rest ih =>
      have shift : (fun k => Callback.fanIn (first + (k + 1))) = fun k => .fanIn (first + 1 + k) := by
        funext k
        rw [Nat.add_assoc, Nat.add_comm 1]
      rw [AgentBuffer.splitAll, shift] at mem ⊢
      rcases List.mem_append.mp mem with here | later
      · refine ⟨p, List.mem_cons_self, ?_⟩
        unfold splitPromisedRoutedBatchByBatchMaxBytes at here ⊢
        simp only at here ⊢
        split at here
        · exact Or.inl (List.mem_singleton.mp here)
        · rename_i several
          rw [if_neg several]
          obtain ⟨part, -, rfl⟩ := List.mem_map.mp here
          exact Or.inr ⟨0, rfl, rfl, fun other inside =>
            List.mem_append_left _ (List.mem_map_of_mem inside)⟩
      · obtain ⟨q, inside, whole | ⟨k, found, done, parts⟩⟩ := ih later
        · exact ⟨q, List.mem_cons_of_mem _ inside, Or.inl whole⟩
        · have place : first + (k + 1) = first + 1 + k := by omega
          refine ⟨q, List.mem_cons_of_mem _ inside, Or.inr ⟨k + 1, found, ?_, ?_⟩⟩
          · rw [done, place]
          · rw [place]
            exact fun part mem => List.mem_append_right _ (parts part mem)

/-- A buffer takes an item with all its parts, or nothing of it. -/
theorem addTo_whole {a after : AgentBuffer W Callback} {adding : Adding W} {refused : List Callback}
    {first : Nat} (added : addTo a (fun k => .fanIn (first + k)) adding = some (after, refused)) :
    ∃ chunks, a.Moves chunks after ∧ ∀ chunk ∈ chunks, ∃ p ∈ adding.items, chunk = p ∨
      ∃ k, ((splits a adding).map (newFanIn a.batchMaxBytes))[k]? =
          some (newFanIn a.batchMaxBytes p) ∧
        chunk.done = .fanIn (first + k) ∧
        ∀ part ∈ splitByMaxBytes p.item a.batchMaxBytes, ⟨part, .fanIn (first + k)⟩ ∈ chunks := by
  have nothing : ∃ chunks, a.Moves chunks a ∧ ∀ chunk ∈ chunks, ∃ p ∈ adding.items, chunk = p ∨
      ∃ k, ((splits a adding).map (newFanIn a.batchMaxBytes))[k]? =
          some (newFanIn a.batchMaxBytes p) ∧
        chunk.done = .fanIn (first + k) ∧
        ∀ part ∈ splitByMaxBytes p.item a.batchMaxBytes, ⟨part, .fanIn (first + k)⟩ ∈ chunks :=
    ⟨[], .refl, List.forall_mem_nil _⟩
  have taken {chunks : List (Promised W Callback)}
      (added : a.addChunks chunks = some (after, refused)) : after = a ∨ a.Moves chunks after := by
    rcases AgentBuffer.addChunks_cases added with ⟨-, same, -⟩ | ⟨-, -, -, moves⟩
    · exact Or.inl same
    · exact Or.inr moves
  cases adding with
  | one p =>
      simp only [addTo, AgentBuffer.add] at added
      split at added
      · obtain ⟨rfl, -⟩ := Prod.mk.inj (Option.some.inj added)
        exact nothing
      · rename_i some
        split at added
        · rename_i large
          have total : ¬ ([p].map fun p => recordCount p.item).sum = 0 := by simpa using some
          have small : ¬ (recordCount p.item = 0 ∨ uncompressedWireBytes p.item ≤ a.batchMaxBytes) := by
            omega
          simp only [AgentBuffer.multiAdd, total, ↓reduceIte] at added
          rcases taken added with rfl | moves
          · exact nothing
          · simp only [splits, small, ↓reduceIte]
            exact ⟨_, moves, fun chunk mem => splitAll_whole mem⟩
        · rcases taken added with rfl | moves
          · exact nothing
          · exact ⟨_, moves, fun chunk mem => ⟨chunk, mem, Or.inl rfl⟩⟩
  | many items =>
      simp only [addTo, AgentBuffer.multiAdd] at added
      split at added
      · obtain ⟨rfl, -⟩ := Prod.mk.inj (Option.some.inj added)
        exact nothing
      · rename_i some
        rcases taken added with rfl | moves
        · exact nothing
        · simp only [splits, some, ↓reduceIte]
          exact ⟨_, moves, fun chunk mem => splitAll_whole mem⟩

/-- A critical section of an agent's buffer. -/
theorem Acks.setAgent (acks : Acks c (op :: ops)) {agent : Nat} {a after : AgentBuffer W Callback}
    {added : List (Promised W Callback)} (fanIns : List FanIn) (next : List (Op W))
    (found : c.agentBuffers[agent]? = some a) (moves : a.Moves added after)
    (sets : c' = { c with
      fanIns := c.fanIns ++ fanIns, agentBuffers := c.agentBuffers.set agent after })
    (other : ∀ cb d, op ≠ .done cb d) (quiet : ∀ op ∈ next, op.Quiet)
    (opened : ∀ f ∈ fanIns, f.chosen = none ∧ c'.Behind f)
    (whole : ∀ e ∈ added, c'.Whole after e) : Acks c' (next ++ ops) := by
  have grows : Grows c c' := sets ▸ grows_setAgent c found moves fanIns
  refine acks.grow grows (carry_of_untold _ grows ?_ other ?_) ?_ ?_ ?_
  · intro j f place
    refine ⟨f, ?_, rfl, fun failed => failed⟩
    rw [sets, List.getElem?_append_left (List.getElem?_eq_some_iff.mp place).1]
    exact place
  · refine fun i d told => told.of_quiet quiet fun k it d place mem => ⟨it, ?_, mem⟩
    rw [sets] at place
    exact place
  · intro f mem
    rw [sets] at mem
    rcases List.mem_append.mp mem with old | new
    · exact Or.inl old
    · obtain ⟨none, behind⟩ := opened f new
      refine Or.inr ⟨fun d chosen => ?_, behind, fun _ d chosen => ?_⟩
      · cases none.symm.trans chosen
      · cases none.symm.trans chosen
  · intro ret mem
    rw [sets] at mem
    exact Or.inl mem
  · intro b mem e inside
    rw [sets] at mem
    rcases List.mem_or_eq_of_mem_set mem with old | rfl
    · exact Or.inr ⟨b, old, rfl, inside, fun e mem => mem⟩
    · rw [moves.entries] at inside
      rcases List.mem_append.mp inside with old | new
      · refine Or.inr ⟨a, List.mem_of_getElem? found, moves.config.2, old, fun e mem => ?_⟩
        rw [moves.entries]
        exact List.mem_append_left _ mem
      · exact Or.inl (whole e new)

theorem Told.reported (origins : Origins c ctxErr ops) {i : Nat} {d : Delivery}
    (told : c.Told ops i d) : c.Reported i := by
  obtain ⟨late, fires | completes | ⟨it, found, mem⟩⟩ := told
  · exact (origins.sound _ fires).2 late
  · exact (origins.sound _ completes).2 late
  · exact (origins.items i it found d mem).2 late

omit [RoutedBatch W] in
theorem Ledger.not_reported (ledger : Ledger c ops) {i : Nat} (due : 0 < c.owed ops (.wrapped i)) :
    ¬ c.Reported i := by
  rintro ⟨it, found, positive⟩
  obtain ⟨it', found', zero⟩ := ledger.unreported due
  obtain rfl := Option.some.inj (found.symm.trans found')
  omega

/-- The wrapped callback of an item runs: nothing was told before, and this is told. -/
theorem Acks.settle (acks : Acks c (op :: ops)) {i : Nat} {d : Delivery} {it : Item W}
    (after : Item W) (call : op = .done (.wrapped i) d) (ledger : Ledger c (op :: ops))
    (origins : Origins c ctxErr (op :: ops)) (found : c.items[i]? = some it) (grows : Grows c c')
    (reported : 0 < after.reported) (kept : after.completions = it.completions)
    (items : c'.items = c.items.set i after) (fanIns : c'.fanIns = c.fanIns)
    (agents : c'.agentBuffers = c.agentBuffers) (returned : c'.returned = c.returned)
    {tells : Op W} (next : tells = .fireOrigDone i d ∨ tells = .origDone i d) :
    Acks c' (tells :: ops) := by
  have inside : i < c.items.length := (List.getElem?_eq_some_iff.mp found).1
  have due : 0 < c.owed (op :: ops) (.wrapped i) := by
    rw [call, owed, owedBy_done_cons, if_pos rfl]
    omega
  have fresh := ledger.not_reported due
  have before (k : Nat) (r : Delivery) (told : c'.Told (tells :: ops) k r) :
      c.Told (op :: ops) k r ∨ k = i ∧ r = d := by
    obtain ⟨late, fires | completes | ⟨it', found', mem⟩⟩ := told
    · rcases List.mem_cons.mp fires with here | old
      · rcases next with rfl | rfl
        · obtain ⟨rfl, rfl⟩ := Op.fireOrigDone.inj here
          exact Or.inr ⟨rfl, rfl⟩
        · cases here
      · exact Or.inl ⟨late, Or.inl (List.mem_cons_of_mem _ old)⟩
    · rcases List.mem_cons.mp completes with here | old
      · rcases next with rfl | rfl
        · cases here
        · obtain ⟨rfl, rfl⟩ := Op.origDone.inj here
          exact Or.inr ⟨rfl, rfl⟩
      · exact Or.inl ⟨late, Or.inr (Or.inl (List.mem_cons_of_mem _ old))⟩
    · rw [items] at found'
      rcases completion_of_set found found' mem with old | ⟨-, new, absent⟩
      · exact Or.inl ⟨late, Or.inr (Or.inr old)⟩
      · exact absurd (kept ▸ new) absent
  refine acks.growItems grows (fun cb r passed => ?_) fanIns agents returned
  rcases passed with waits | heard
  · rcases List.mem_cons.mp waits with here | later
    · obtain ⟨rfl, rfl⟩ := Op.done.inj (here.trans call)
      refine Or.inr ⟨⟨after, ?_, reported⟩, fun other told => ?_⟩
      · rw [items]
        exact List.getElem?_set_self inside
      · rcases before i other told with old | ⟨-, same⟩
        · exact absurd (old.reported origins) fresh
        · exact same
    · exact Or.inl (List.mem_cons_of_mem _ later)
  · refine Or.inr ?_
    cases cb with
    | wrapped k =>
        refine ⟨heard.1.mono grows, fun other told => ?_⟩
        rcases before k other told with old | ⟨rfl, -⟩
        · exact heard.2 other old
        · exact absurd heard.1 fresh
    | fanIn j =>
        obtain ⟨f, place, remembers⟩ := heard
        exact ⟨f, fanIns ▸ place, remembers⟩

/-- A chunk reports to its fan-in. -/
theorem Acks.fanInReport (acks : Acks c (op :: ops)) {j : Nat} {f : FanIn} {d : Delivery}
    (call : op = .done (.fanIn j) d) (found : c.fanIns[j]? = some f) (next : List (Op W))
    (quiet : ∀ op ∈ next, op.Quiet)
    (forwards : (f.report d).remaining = 0 → ∀ result, (f.report d).chosen = some result →
      .done f.origDone result ∈ next) :
    Acks { c with fanIns := c.fanIns.set j (f.report d) } (next ++ ops) := by
  have inside : j < c.fanIns.length := (List.getElem?_eq_some_iff.mp found).1
  have honest := acks.honest f (List.mem_of_getElem? found)
  have grows := grows_setFanIn c found d
  have keeps : KeepsFailures c { c with fanIns := c.fanIns.set j (f.report d) } := by
    intro k g place
    by_cases same : k = j
    · subst same
      obtain rfl := Option.some.inj (found.symm.trans place)
      exact ⟨f.report d, List.getElem?_set_self inside, f.report_tp d,
        fun failed => honest.failed_report (Or.inl failed)⟩
    · exact ⟨g, by rw [List.getElem?_set_ne (Ne.symm same)]; exact place, rfl, fun failed => failed⟩
  have untold (i : Nat) (r : Delivery)
      (told : Told { c with fanIns := c.fanIns.set j (f.report d) } (next ++ ops) i r) :
      c.Told (op :: ops) i r :=
    told.of_quiet quiet fun k it r place mem => ⟨it, place, mem⟩
  refine acks.grow grows (fun cb r passed => ?_) ?_ (fun ret mem => Or.inl mem)
    fun a mem e inside => Or.inr ⟨a, mem, rfl, inside, fun e mem => mem⟩
  · rcases passed with waits | heard
    · rcases List.mem_cons.mp waits with here | later
      · obtain ⟨rfl, rfl⟩ := Op.done.inj (here.trans call)
        refine Or.inr ⟨f.report r, List.getElem?_set_self inside, fun err => ?_⟩
        rw [f.report_tp] at err
        exact honest.failed_report (Or.inr err)
      · exact Or.inl (List.mem_append_right _ later)
    · exact Or.inr (heard.mono grows keeps untold)
  · intro g mem
    rcases List.mem_or_eq_of_mem_set mem with old | rfl
    · exact Or.inl old
    · refine Or.inr ⟨honest.report d, ?_, fun last r chosen => ?_⟩
      · obtain ⟨i, it, orig, place, tp⟩ := acks.behind f (List.mem_of_getElem? found)
        exact ⟨i, it, (f.report_origDone d).trans orig, place, (f.report_tp d).trans tp⟩
      · rw [f.report_origDone]
        exact Or.inl (List.mem_append_left _ (forwards last r chosen))

/-- Adding to an agent's buffer. -/
theorem Acks.agentAdd {agent : Nat} {adding : Adding W} {a after : AgentBuffer W Callback}
    {refused : List Callback} (acks : Acks c (.agentAdd agent adding :: ops))
    (origins : Origins c ctxErr (.agentAdd agent adding :: ops))
    (found : c.agentBuffers[agent]? = some a)
    (added : addTo a (fun k => .fanIn (c.fanIns.length + k)) adding = some (after, refused)) :
    let effect := ClusterBuffer.setAgent
      { c with fanIns := c.fanIns ++ (splits a adding).map (newFanIn a.batchMaxBytes) } agent a
      after (refused.map fun cb => .done cb ⟨{ err := some GoError.errBufferClosed }, .closed⟩)
    Acks effect.next (effect.ops ++ effect.spawned.flatten ++ ops) := by
  obtain ⟨ctx, wrapped⟩ := origins.sound _ List.mem_cons_self
  obtain ⟨chunks, moves, whole⟩ := addTo_whole added
  have taken (e : Promised W Callback) (mem : e ∈ chunks) : e ∈ after.entries := by
    rw [moves.entries]
    exact List.mem_append_right _ mem
  refine acks.setAgent ((splits a adding).map (newFanIn a.batchMaxBytes)) _ found moves rfl
    (fun cb d same => by cases same) ?_ ?_ ?_
  · intro op mem i d
    rcases List.mem_append.mp mem with told | flushes
    · obtain ⟨cb, -, rfl⟩ := List.mem_map.mp told
      exact ⟨fun same => (by cases same), fun same => (by cases same)⟩
    · obtain ⟨index, f, -, rfl⟩ := mem_flushTasks.mp flushes
      exact ⟨fun same => (by cases same), fun same => (by cases same)⟩
  · intro f mem
    obtain ⟨p, inside, rfl⟩ := List.mem_map.mp mem
    refine ⟨rfl, ?_⟩
    have member : p ∈ adding.items := by
      cases adding with
      | one q =>
          simp only [splits] at inside
          split at inside
          · cases inside
          · exact inside
      | many items =>
          simp only [splits] at inside
          split at inside
          · cases inside
          · exact inside
    obtain ⟨i, it, direct, place, item, -⟩ := wrapped p member
    exact ⟨i, it, direct, place, by rw [item]; rfl⟩
  · intro e mem
    obtain ⟨p, inside, direct | ⟨k, place, done, parts⟩⟩ := whole e mem
    · obtain ⟨i, it, orig, here, item, -⟩ := wrapped p inside
      exact Or.inl ⟨i, it, by rw [direct, orig], here, by rw [direct, item]⟩
    · obtain ⟨i, it, orig, here, item, -⟩ := wrapped p inside
      refine Or.inr ⟨c.fanIns.length + k, newFanIn a.batchMaxBytes p, i, it, done, ?_, orig, here,
        fun part mem => ?_⟩
      · change (c.fanIns ++ _)[c.fanIns.length + k]? = _
        rw [List.getElem?_append_right (Nat.le_add_right _ _), Nat.add_sub_cancel_left]
        exact place
      · rw [item, moves.config.2] at mem
        exact taken _ (parts part mem)

/-- Every operation keeps the results that are on their way. -/
theorem Acks.runs {effect : Effect W} (acks : Acks c (op :: ops)) (ledger : Ledger c (op :: ops))
    (origins : Origins c ctxErr (op :: ops)) (ran : Runs c ctxErr op effect) :
    Acks effect.next (effect.ops ++ effect.spawned.flatten ++ ops) := by
  have grows := ran.grows
  have done (cb : Callback) (d : Delivery) : Op.Quiet (.done cb d : Op W) :=
    fun i r => ⟨fun same => (by cases same), fun same => (by cases same)⟩
  -- an operation that only turns into other quiet ones
  have turns (next : List (Op W)) (other : ∀ cb d, op ≠ .done cb d)
      (quiet : ∀ op ∈ next, op.Quiet) : Acks c (next ++ [] ++ ops) := by
    rw [List.append_nil]
    exact acks.quiet (Grows.refl c) next other quiet (fun i it d found mem => ⟨it, found, mem⟩) rfl
      rfl rfl
  cases ran with
  | add ctx item =>
      refine acks.quiet grows [_] (by simp) ?_ (fun i it d => completion_of_append) rfl rfl rfl
      simp [Op.Quiet]
  | wrapped ctx wrapped => exact turns _ (by simp) (by simp [Op.Quiet])
  | wrap ctx item todo wrapped =>
      refine acks.quiet grows [_] (by simp) ?_ (fun i it d => completion_of_append) rfl rfl rfl
      simp [Op.Quiet]
  | ctxFailed n adding err ended =>
      refine turns _ (by simp) fun op mem => ?_
      obtain ⟨p, -, rfl⟩ := List.mem_map.mp mem
      exact done _ _
  | addToBuffer ctx p => exact turns _ (by simp) (by simp [Op.Quiet])
  | addToBuffers ctx items bins binned =>
      refine turns _ (by simp) fun op mem => ?_
      obtain ⟨bin, -, rfl⟩ := List.mem_map.mp mem
      simp [Op.Quiet]
  | bufferClosed nodeID adding closed =>
      refine turns _ (by simp) fun op mem => ?_
      obtain ⟨p, -, rfl⟩ := List.mem_map.mp mem
      exact done _ _
  | agentBuffer nodeID adding agent found => exact turns _ (by simp) (by simp [Op.Quiet])
  | newAgentBuffer nodeID adding absent =>
      refine acks.grow grows (carry_of_untold [_] grows (KeepsFailures.refl c) (by simp) ?_)
        (fun f mem => Or.inl mem) (fun ret mem => Or.inl mem) ?_
      · exact fun i d told => told.of_quiet (by simp [Op.Quiet]) fun k it d place mem => ⟨it, place, mem⟩
      · intro a mem e inside
        rcases List.mem_append.mp mem with old | new
        · exact Or.inr ⟨a, old, rfl, inside, fun e mem => mem⟩
        · obtain rfl := List.mem_singleton.mp new
          cases inside
  | agentAdd agent adding a after refused found added => exact acks.agentAdd origins found added
  | doneBare i d it found bare =>
      exact acks.settle it.settled rfl ledger origins found grows (Nat.succ_pos _) rfl rfl rfl rfl rfl
        (Or.inr rfl)
  | done i d it found gated first =>
      exact acks.settle it.settled rfl ledger origins found grows (Nat.succ_pos _) rfl rfl rfl rfl rfl
        (Or.inl rfl)
  | doneAgain i d it found gated again =>
      exact acks.settle { it with reported := it.reported + 1 } rfl ledger origins found grows
        (Nat.succ_pos _) rfl rfl rfl rfl rfl (Or.inl rfl)
  | fanIn j d f found more =>
      exact acks.fanInReport rfl found [] (List.forall_mem_nil _) fun last => absurd last more
  | fanInLast j d f result found last chosen =>
      refine acks.fanInReport rfl found [_] ?_ fun _ r kept => ?_
      · intro op mem
        obtain rfl := List.mem_singleton.mp mem
        exact done _ _
      · obtain rfl := Option.some.inj (chosen.symm.trans kept)
        rw [f.report_origDone]
        exact List.mem_singleton_self _
  | fireLost i d it found fired => exact turns [] (by simp) (List.forall_mem_nil _)
  | fireWon i d it found first =>
      refine acks.growItems grows (carry_of_untold [_] grows (KeepsFailures.refl c) (by simp)
        ?_) rfl rfl rfl
      rintro k r ⟨late, fires | completes | ⟨it', found', mem⟩⟩
      · have old := (List.mem_cons.mp fires).resolve_left fun same => by cases same
        exact ⟨late, Or.inl (List.mem_cons_of_mem _ old)⟩
      · rcases List.mem_cons.mp completes with here | old
        · obtain ⟨rfl, rfl⟩ := Op.origDone.inj here
          exact ⟨late, Or.inl List.mem_cons_self⟩
        · exact ⟨late, Or.inr (Or.inl (List.mem_cons_of_mem _ old))⟩
      · rcases completion_of_set found found' mem with old | ⟨-, new, absent⟩
        · exact ⟨late, Or.inr (Or.inr old)⟩
        · exact absurd new absent
  | origDone i d it found =>
      refine acks.growItems grows (carry_of_untold [] grows (KeepsFailures.refl c) (by simp)
        ?_) rfl rfl rfl
      rintro k r ⟨late, fires | completes | ⟨it', found', mem⟩⟩
      · exact ⟨late, Or.inl (List.mem_cons_of_mem _ fires)⟩
      · exact ⟨late, Or.inr (Or.inl (List.mem_cons_of_mem _ completes))⟩
      · rcases completion_of_set found found' mem with old | ⟨rfl, new, absent⟩
        · exact ⟨late, Or.inr (Or.inr old)⟩
        · obtain rfl := List.mem_singleton.mp ((List.mem_append.mp new).resolve_left absent)
          exact ⟨late, Or.inr (Or.inl List.mem_cons_self)⟩
  | flush agent index entries res =>
      obtain ⟨a, f, found, flush, same⟩ := origins.sound _ List.mem_cons_self
      rw [List.flatten_nil, List.append_nil]
      refine acks.grow grows (carry_of_untold _ grows (KeepsFailures.refl c) (by simp) ?_)
        (fun f mem => Or.inl mem) ?_ fun a mem e inside => Or.inr ⟨a, mem, rfl, inside, fun e mem => mem⟩
      · refine fun i d told => told.of_quiet (fun op mem => ?_) fun k it d place mem => ⟨it, place, mem⟩
        obtain ⟨e, -, rfl⟩ := List.mem_map.mp mem
        exact done _ _
      · intro ret mem
        rcases List.mem_append.mp mem with old | new
        · exact Or.inl old
        · obtain rfl := List.mem_singleton.mp new
          refine Or.inr ⟨a, f, found, flush, fun e inside => Or.inl (List.mem_append_left _ ?_)⟩
          exact List.mem_map.mpr ⟨e, same ▸ inside, rfl⟩
  | closeAgent agent a after found closing =>
      refine acks.setAgent [] _ found (AgentBuffer.close_moves closing) (by simp [ClusterBuffer.setAgent])
        (by simp) ?_ (List.forall_mem_nil _) (List.forall_mem_nil _)
      intro op mem i d
      obtain ⟨index, f, -, rfl⟩ := mem_flushTasks.mp mem
      exact ⟨fun same => (by cases same), fun same => (by cases same)⟩

end step

/-- An item that was told of no error is in no flush that had one. -/
theorem Acks.acked {c : ClusterBuffer W} {ctxErr : Nat → Option GoError} {ops : List (Op W)}
    (acks : Acks c ops) (ledger : Ledger c ops) (origins : Origins c ctxErr ops) {i : Nat}
    {it : Item W} {d : Delivery} (found : c.items[i]? = some it) (told : c.Told ops i d)
    (ok : recordErrFromResult d.res (getTopicPartition it.item) = none) {ret : FlushReturn}
    (returned : ret ∈ c.returned) (carries : c.Carries ret.agent ret.index (.wrapped i)) :
    recordErrFromResult ret.res (getTopicPartition it.item) = none := by
  have unowed (cb : Callback) (reports : c.ReportsTo cb (.wrapped i)) : c.owed ops cb = 0 := by
    by_contra due
    have owes := owed_of_reportsTo ledger reports (Nat.pos_of_ne_zero due)
    exact ledger.not_reported owes (told.reported origins)
  have heard {cb : Callback} {r : Delivery} (reports : c.ReportsTo cb (.wrapped i))
      (passed : c.Passed ops cb r) : c.Heard ops cb r := by
    refine passed.resolve_left fun waits => ?_
    have due := owedBy_pos waits (List.mem_singleton_self cb)
    have zero := unowed cb reports
    simp only [owed] at zero
    omega
  obtain ⟨a, f, e, foundAgent, flush, mem, reports⟩ := carries
  obtain ⟨a', f', foundAgent', flush', passed⟩ := acks.answered ret returned
  obtain rfl := Option.some.inj (foundAgent.symm.trans foundAgent')
  obtain rfl := Option.some.inj (flush.symm.trans flush')
  have hears := heard reports (passed e mem)
  rcases reports with direct | ⟨j, g, fans, place, orig⟩
  · rw [direct] at hears
    rw [hears.2 d told] at ok
    exact ok
  · rw [fans] at hears
    obtain ⟨g', place', remembers⟩ := hears
    obtain rfl := Option.some.inj (place.symm.trans place')
    have inside := List.mem_of_getElem? place
    obtain ⟨k, it', orig', found', tp⟩ := acks.behind g inside
    obtain rfl := Callback.wrapped.inj (orig.symm.trans orig')
    obtain rfl := Option.some.inj (found.symm.trans found')
    have done : g.remaining = 0 := by
      have books := ledger.books (.fanIn j)
      rw [unowed _ (Or.inr ⟨j, g, rfl, place, orig⟩), expected_fanIn, place] at books
      exact books.symm
    by_contra err
    rw [← tp] at err
    obtain ⟨kept, chosen, failed⟩ := remembers err
    have last := heard (Or.inl rfl) (orig ▸ acks.forwarded g inside done kept chosen)
    rw [last.2 d told, ← tp] at ok
    exact failed ok

end ClusterBuffer

namespace ClusterRun

open ClusterBuffer

variable {W : Type} [RoutedBatch W] {r : ClusterRun W}

/-- The invariant of the runs with that of the results on their way. -/
structure AckInv (r : ClusterRun W) : Prop extends Inv r where
  acks : r.buffer.Acks r.tasks.flatten

theorem ackInv_init (batchMaxBytes : Nat) : AckInv (ClusterRun.init (W := W) batchMaxBytes) where
  toInv := inv_init batchMaxBytes
  acks := ⟨List.forall_mem_nil _, List.forall_mem_nil _, List.forall_mem_nil _, List.forall_mem_nil _,
    List.forall_mem_nil _⟩

/-- New goroutines that tell no item of a result other than the end of its context. -/
theorem AckInv.spawn (inv : AckInv r) {buffer : ClusterBuffer W} (grows : Grows r.buffer buffer)
    (tasks : List (List (Op W)))
    (quiet : ∀ op ∈ tasks.flatten, ∀ i d, d.cause ≠ .ctx → op ≠ .fireOrigDone i d ∧ op ≠ .origDone i d)
    (items : ∀ (i : Nat) (it : Item W) (d : Delivery), buffer.items[i]? = some it →
      d ∈ it.completions → ∃ old, r.buffer.items[i]? = some old ∧ d ∈ old.completions)
    (fanIns : buffer.fanIns = r.buffer.fanIns) (agents : buffer.agentBuffers = r.buffer.agentBuffers)
    (returned : buffer.returned = r.buffer.returned) :
    buffer.Acks (r.tasks ++ tasks).flatten := by
  rw [List.flatten_append]
  refine inv.acks.growItems grows (fun cb d passed => ?_) fanIns agents returned
  refine passed.mono grows (fun j f found => ⟨f, fanIns ▸ found, rfl, fun failed => failed⟩) ?_
    fun cb d mem => List.mem_append_left _ mem
  rintro i d ⟨late, fires | completes | ⟨it, found, mem⟩⟩
  · exact ⟨late, Or.inl ((List.mem_append.mp fires).resolve_right fun new =>
      (quiet _ new i d late).1 rfl)⟩
  · exact ⟨late, Or.inr (Or.inl ((List.mem_append.mp completes).resolve_right fun new =>
      (quiet _ new i d late).2 rfl))⟩
  · exact ⟨late, Or.inr (Or.inr (items i it d found mem))⟩

theorem ackInv_step [DecidableEq W] (r : ClusterRun W) (action : ClusterAction W)
    (r' : ClusterRun W) (inv : AckInv r) (records : action.HasRecords)
    (stepped : r.step action = some r') : AckInv r' := by
  refine ⟨inv_step r action r' inv.toInv records stepped, ?_⟩
  have same (i : Nat) (it : Item W) (d : Delivery) (found : r.buffer.items[i]? = some it)
      (mem : d ∈ it.completions) : ∃ old, r.buffer.items[i]? = some old ∧ d ∈ old.completions :=
    ⟨it, found, mem⟩
  cases steps_of_step stepped with
  | add ctx item => exact inv.spawn (Grows.refl _) _ (by simp) same rfl rfl rfl
  | multiAddNone ctx => exact inv.acks
  | multiAdd ctx items => exact inv.spawn (Grows.refl _) _ (by simp) same rfl rfl rfl
  | cancel ctx err running => exact inv.acks
  | watchFires i it ctx err found hasCtx ended =>
      refine inv.spawn (grows_setItem r.buffer found { it with watch := .started } rfl rfl
        (Nat.le_refl _)) _ ?_ (fun k it' d found' mem => ?_) rfl rfl rfl
      · intro op mem k d late
        obtain rfl : op = .fireOrigDone i ⟨{ err := some err }, .ctx⟩ := by simpa using mem
        refine ⟨fun same => ?_, fun same => (by cases same)⟩
        obtain ⟨-, rfl⟩ := Op.fireOrigDone.inj same
        exact late rfl
      · rcases completion_of_set found found' mem with old | ⟨-, new, absent⟩
        · exact old
        · exact absurd new absent
  | timerFlush agent a after found started =>
      obtain ⟨moves, -, -⟩ := AgentBuffer.startFlushLocked_moves started
      -- no goroutine runs the timer's critical section, so any operation may stand for it
      have before : r.buffer.Acks (.closeAgent agent :: r.tasks.flatten) := by
        refine inv.acks.growItems (Grows.refl _) (fun cb d passed => ?_) rfl rfl rfl
        refine passed.mono (Grows.refl _) (KeepsFailures.refl _) ?_
          fun cb d mem => List.mem_cons_of_mem _ mem
        rintro i d ⟨late, told⟩
        refine ⟨late, told.imp (fun mem => ?_) (Or.imp_left fun mem => ?_)⟩
        · exact (List.mem_cons.mp mem).resolve_left fun same => by cases same
        · exact (List.mem_cons.mp mem).resolve_left fun same => by cases same
      refine (before.setAgent [] _ found moves (by simp [ClusterBuffer.setAgent, ClusterRun.spawn])
        (by simp) ?_ (List.forall_mem_nil _) (List.forall_mem_nil _)).perm
        (List.perm_append_comm.trans (by rw [← List.flatten_append]; rfl))
      intro op mem i d
      obtain ⟨index, f, -, rfl⟩ := mem_flushTasks.mp mem
      exact ⟨fun same => (by cases same), fun same => (by cases same)⟩
  | closeAgain => exact inv.acks
  | close =>
      have closes : Grows r.buffer { r.buffer with closed := true } :=
        grows_append [] (by simp) rfl rfl rfl fun _ => rfl
      refine inv.spawn closes _ ?_ same rfl rfl rfl
      intro op mem i d _
      obtain ⟨task, inside, here⟩ := List.mem_flatten.mp mem
      obtain ⟨agent, -, rfl⟩ := List.mem_map.mp inside
      obtain rfl := List.mem_singleton.mp here
      exact ⟨fun same => (by cases same), fun same => (by cases same)⟩
  | run task choice op rest effect found ran =>
      have before := Pool.flatten_perm found
      have after := Pool.flatten_run_perm found effect.ops effect.spawned
      exact ((inv.acks.perm before).runs (inv.ledger.perm before) (inv.origins.perm before) ran).perm
        after

theorem ackInv_run [DecidableEq W] {batchMaxBytes : Nat} {actions : List (ClusterAction W)}
    (records : ∀ action ∈ actions, action.HasRecords)
    (runs : Machine.run step (ClusterRun.init batchMaxBytes) actions = some r) : AckInv r :=
  Machine.invariant_run_of_mem ClusterAction.HasRecords AckInv ackInv_step (ackInv_init batchMaxBytes)
    records runs

/-- The parts in which an agent's buffer took an item. -/
def PartsOf (max : Nat) (w : W) (parts : List W) : Prop := parts = [w] ∨ parts = splitByMaxBytes w max

/-- The part is in a flush of the agent's buffer that has returned. -/
def PartFlushed (c : ClusterBuffer W) (agent i : Nat) (part : W) (ret : FlushReturn) : Prop :=
  ret ∈ c.returned ∧ ret.agent = agent ∧ c.Carries agent ret.index (.wrapped i) ∧
    ∃ a f cb, c.agentBuffers[agent]? = some a ∧ a.flushes[ret.index]? = some f ∧
      ⟨part, cb⟩ ∈ f.entries

/-- An item that a flush completed was taken by one agent's buffer, and every part of it is
in a flush that has returned. -/
theorem AckInv.parts_flushed (inv : AckInv r) {i agent index : Nat} {it : Item W} {d : Delivery}
    (found : r.buffer.items[i]? = some it) (mem : d ∈ it.completions)
    (cause : d.cause = .flush agent index) :
    ∃ a parts, r.buffer.agentBuffers[agent]? = some a ∧ PartsOf a.batchMaxBytes it.item parts ∧
      ∀ part ∈ parts, ∃ ret, PartFlushed r.buffer agent i part ret := by
  obtain ⟨sourced, reported⟩ := inv.origins.items i it found d mem
  have late : d.cause ≠ .ctx := by
    rw [cause]
    exact fun same => by cases same
  simp only [Sourced, cause] at sourced
  obtain ⟨-, a, f, e, foundAgent, flush, inside, reports⟩ := sourced
  have settled : r.buffer.owed r.tasks.flatten (.wrapped i) = 0 := by
    by_contra due
    exact inv.ledger.not_reported (Nat.pos_of_ne_zero due) (reported late)
  -- nothing that reports to the item is still pending
  have flushed (p : Promised W Callback) (reports : r.buffer.ReportsTo p.done (.wrapped i))
      (taken : p ∈ a.entries) : ∃ ret, PartFlushed r.buffer agent i p.item ret := by
    rcases List.mem_append.mp taken with past | pending
    · obtain ⟨f, inside, member⟩ := List.mem_flatMap.mp past
      obtain ⟨index, place⟩ := List.mem_iff_getElem?.mp inside
      have carries : r.buffer.Carries agent index (.wrapped i) :=
        ⟨a, f, p, foundAgent, place, member, reports⟩
      obtain ⟨res, returned⟩ := returned_of_settled inv.ledger inv.origins settled carries
      exact ⟨⟨agent, index, res⟩, returned, rfl, carries, a, f, p.done, foundAgent, place, member⟩
    · have holds : 0 < r.buffer.held p.done := by
        have one : (a.nextProduceItems.map Promised.done).count p.done ≤ r.buffer.held p.done :=
          List.single_le_sum (fun n _ => Nat.zero_le n) _
            (List.mem_map.mpr ⟨a, List.mem_of_getElem? foundAgent, rfl⟩)
        have here := List.count_pos_iff.mpr (List.mem_map_of_mem (f := Promised.done) pending)
        omega
      have owes := owed_of_reportsTo inv.ledger reports (by simp only [owed]; omega)
      omega
  have taken : e ∈ a.entries :=
    List.mem_append_left _ (List.mem_flatMap.mpr ⟨f, List.mem_of_getElem? flush, inside⟩)
  refine ⟨a, ?_⟩
  rcases inv.acks.whole a (List.mem_of_getElem? foundAgent) e taken with
    ⟨k, it', direct, found', item⟩ | ⟨j, g, k, it', fans, place, orig, found', parts⟩
  · rcases reports with same | ⟨j, g, fans, -, -⟩
    · obtain rfl := Callback.wrapped.inj (direct.symm.trans same)
      obtain rfl := Option.some.inj (found.symm.trans found')
      refine ⟨[it.item], foundAgent, Or.inl rfl, fun part member => ?_⟩
      obtain rfl := List.mem_singleton.mp member
      rw [← item]
      exact flushed e (Or.inl direct) taken
    · cases direct.symm.trans fans
  · rcases reports with same | ⟨j', g', fans', place', orig'⟩
    · cases fans.symm.trans same
    · obtain rfl := Callback.fanIn.inj (fans.symm.trans fans')
      obtain rfl := Option.some.inj (place.symm.trans place')
      obtain rfl := Callback.wrapped.inj (orig.symm.trans orig')
      obtain rfl := Option.some.inj (found.symm.trans found')
      refine ⟨splitByMaxBytes it.item a.batchMaxBytes, foundAgent, Or.inr rfl, fun part member => ?_⟩
      exact flushed ⟨part, .fanIn j⟩ (Or.inr ⟨j, g, rfl, place, orig⟩) (parts part member)

/-- A result without an error for the item's partition is that of a flush. -/
theorem AckInv.cause_of_ok (inv : AckInv r) {i : Nat} {it : Item W} {d : Delivery}
    (found : r.buffer.items[i]? = some it) (mem : d ∈ it.completions)
    (ok : recordErrFromResult d.res (getTopicPartition it.item) = none) :
    ∃ agent index, d.cause = .flush agent index := by
  have sourced := (inv.origins.items i it found d mem).1
  unfold Sourced at sourced
  split at sourced
  · obtain ⟨-, -, -, err, -, -, -, -, res⟩ := sourced
    simp [recordErrFromResult, res] at ok
  · simp [recordErrFromResult, sourced.2] at ok
  · exact ⟨_, _, ‹_›⟩

/-- What a flush completed is told of an error exactly if a flush with a part of it had one. -/
theorem AckInv.ok_iff (inv : AckInv r) {i agent index : Nat} {it : Item W} {d : Delivery}
    (found : r.buffer.items[i]? = some it) (mem : d ∈ it.completions)
    (cause : d.cause = .flush agent index) :
    recordErrFromResult d.res (getTopicPartition it.item) = none ↔
      ∀ ret ∈ r.buffer.returned, r.buffer.Carries ret.agent ret.index (.wrapped i) →
        recordErrFromResult ret.res (getTopicPartition it.item) = none := by
  have sourced := (inv.origins.items i it found d mem).1
  simp only [Sourced, cause] at sourced
  constructor
  · intro ok ret returned carries
    have late : d.cause ≠ .ctx := by
      rw [cause]
      exact fun same => by cases same
    exact inv.acks.acked inv.ledger inv.origins found ⟨late, Or.inr (Or.inr ⟨it, found, mem⟩)⟩ ok
      returned carries
  · intro clean
    exact clean _ sourced.1 sourced.2

end ClusterRun

/-- Whatever the buffers' goroutines do and however the flushes of a split item fall, an item
that a flush completed was taken whole by one agent's buffer, every part of it is in a flush
that returned before, and the callback sees an error for the item's partition exactly if one
of these flushes had one. -/
theorem clusterBuffer_tells_item_outcome_exactly {W : Type} [RoutedBatch W] [DecidableEq W]
    {batchMaxBytes : Nat} {actions : List (ClusterAction W)} {r : ClusterRun W}
    (records : ∀ action ∈ actions, action.HasRecords)
    (runs : Machine.run ClusterRun.step (ClusterRun.init batchMaxBytes) actions = some r)
    {i agent index : Nat} {it : Item W} {d : Delivery} (found : r.buffer.items[i]? = some it)
    (mem : d ∈ it.completions) (cause : d.cause = .flush agent index) :
    (∃ a parts, r.buffer.agentBuffers[agent]? = some a ∧
      ClusterRun.PartsOf a.batchMaxBytes it.item parts ∧
      ∀ part ∈ parts, ∃ ret, ClusterRun.PartFlushed r.buffer agent i part ret) ∧
    (recordErrFromResult d.res (getTopicPartition it.item) = none ↔
      ∀ ret ∈ r.buffer.returned, r.buffer.Carries ret.agent ret.index (.wrapped i) →
        recordErrFromResult ret.res (getTopicPartition it.item) = none) :=
  have inv := ClusterRun.ackInv_run records runs
  ⟨inv.parts_flushed found mem cause, inv.ok_iff found mem cause⟩

/-- Two records that do not fit one batch of 75 bytes: the first flush fails, the second is
acknowledged, and the callback sees the failure. -/
def splitItemRun : List (ClusterAction RoutedTopicPartitionRecords) :=
  [.add none ⟨"t", 0, [{}, {}], 1, .healthy⟩, .run 0 {}, .run 0 {}, .run 0 {}, .run 0 {},
    .timerFlush 0, .run 1 { res := { err := some GoError.contextDeadlineExceeded } },
    .run 2 { res := { resp := some { topics := [⟨"t", 0, [⟨0, 0⟩]⟩] } } },
    .run 1 {}, .run 2 {}, .run 2 {}, .run 2 {}]

theorem clusterBuffer_tells_item_outcome_exactly_split :
    ∃ r it d, Machine.run ClusterRun.step (ClusterRun.init 75) splitItemRun = some r ∧
      r.buffer.items[0]? = some it ∧ d ∈ it.completions ∧
      (∃ a parts, r.buffer.agentBuffers[0]? = some a ∧
        ClusterRun.PartsOf a.batchMaxBytes it.item parts ∧
        ∀ part ∈ parts, ∃ ret, ClusterRun.PartFlushed r.buffer 0 0 part ret) ∧
      recordErrFromResult d.res ⟨"t", 0⟩ ≠ none := by
  have state : (Machine.run ClusterRun.step (ClusterRun.init 75) splitItemRun).map (fun r =>
      (r.buffer.items.map fun it => (it.item.topic, it.item.partition, it.completions))) =
        some [("t", 0, [⟨{ err := some GoError.contextDeadlineExceeded }, .flush 0 0⟩])] := by decide
  obtain ⟨r, runs, eq⟩ := Option.map_eq_some_iff.mp state
  obtain ⟨it, single, told⟩ := List.map_eq_singleton_iff.mp eq
  have found : r.buffer.items[0]? = some it := by rw [single]; rfl
  have completions : it.completions =
      [⟨{ err := some GoError.contextDeadlineExceeded }, .flush 0 0⟩] :=
    (Prod.mk.inj (Prod.mk.inj told).2).2
  have mem : ⟨{ err := some GoError.contextDeadlineExceeded }, .flush 0 0⟩ ∈ it.completions := by
    rw [completions]
    exact List.mem_singleton_self _
  have outcome := clusterBuffer_tells_item_outcome_exactly
    (by simp [splitItemRun, ClusterAction.HasRecords, RoutedBatch.recordCount]) runs found mem rfl
  exact ⟨r, it, _, runs, found, mem, outcome.1, by decide⟩

end Warpstream
