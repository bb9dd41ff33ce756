import Warpstream.Lib.Machine

set_option autoImplicit false

/- Programs that share a state. A program is a tree of atomic operations: what it does next
depends on what the operation returned. The same program can be run alone, from start to
end, or as one of several threads whose operations interleave. -/
inductive Program (Op : Type) (Ret : Op → Type) (α : Type) : Type where
  | ret (a : α)
  | op (o : Op) (next : Ret o → Program Op Ret α)

namespace Program

variable {Op : Type} {Ret : Op → Type} {α β σ In : Type}

def bind (p : Program Op Ret α) (f : α → Program Op Ret β) : Program Op Ret β :=
  match p with
  | .ret a => f a
  | .op o next => .op o fun r => (next r).bind f

instance : Monad (Program Op Ret) where
  pure := .ret
  bind := bind

/-- The program that performs one operation and returns its result. -/
def perform (o : Op) : Program Op Ret (Ret o) := .op o .ret

/-- Running a program alone. -/
def exec (handle : (o : Op) → σ → Ret o × σ) : Program Op Ret α → σ → α × σ
  | .ret a, s => (a, s)
  | .op o next, s => exec handle (next (handle o s).1) (handle o s).2

@[simp] theorem exec_pure (handle : (o : Op) → σ → Ret o × σ) (a : α) (s : σ) :
    exec handle (pure a) s = (a, s) := rfl

@[simp] theorem exec_perform (handle : (o : Op) → σ → Ret o × σ) (o : Op) (s : σ) :
    exec handle (perform o) s = handle o s := rfl

@[simp] theorem exec_bind (handle : (o : Op) → σ → Ret o × σ) (p : Program Op Ret α)
    (f : α → Program Op Ret β) (s : σ) :
    exec handle (p >>= f) s = exec handle (f (exec handle p s).1) (exec handle p s).2 := by
  change exec handle (p.bind f) s = _
  induction p generalizing s with
  | ret a => rfl
  | op o next ih => exact ih (handle o s).1 (handle o s).2

/-- The results that a program can return when its operations answer as allowed, whoever
else works on the state meanwhile. -/
inductive Returns (allowed : (o : Op) → Ret o → Prop) : Program Op Ret α → α → Prop where
  | ret (a : α) : Returns allowed (.ret a) a
  | op {o : Op} {next : Ret o → Program Op Ret α} {r : Ret o} {a : α} (answer : allowed o r)
      (rest : Returns allowed (next r) a) : Returns allowed (.op o next) a

/-- Every result satisfies `post` when the operations answer as allowed. -/
def Ensures (allowed : (o : Op) → Ret o → Prop) (post : α → Prop) : Program Op Ret α → Prop
  | .ret a => post a
  | .op o next => ∀ r, allowed o r → Ensures allowed post (next r)

variable {allowed : (o : Op) → Ret o → Prop} {post : α → Prop}

theorem Ensures.of_returns {p : Program Op Ret α} (ensures : p.Ensures allowed post) {a : α}
    (returns : p.Returns allowed a) : post a := by
  induction returns with
  | ret a => exact ensures
  | op answer _ ih => exact ih (ensures _ answer)

theorem Ensures.bind {p : Program Op Ret α} {f : α → Program Op Ret β} {post : β → Prop}
    (first : p.Ensures allowed fun a => (f a).Ensures allowed post) :
    (p >>= f).Ensures allowed post := by
  change (p.bind f).Ensures allowed post
  induction p with
  | ret a => exact first
  | op o next ih => exact fun r answer => ih r (first r answer)

theorem Ensures.weaken {p : Program Op Ret α} {stronger : α → Prop}
    (ensures : p.Ensures allowed stronger) (implies : ∀ a, stronger a → post a) :
    p.Ensures allowed post := by
  induction p with
  | ret a => exact implies a ensures
  | op o next ih => exact fun r answer => ih r (ensures r answer)

/-- What a program performs on the way to a result: its operations with their answers. -/
inductive Traces : Program Op Ret α → List ((o : Op) × Ret o) → α → Prop where
  | ret (a : α) : Traces (.ret a) [] a
  | op {o : Op} {next : Ret o → Program Op Ret α} {r : Ret o} {trace : List ((o : Op) × Ret o)}
      {a : α} (rest : Traces (next r) trace a) : Traces (.op o next) (⟨o, r⟩ :: trace) a

/-- Every trace and its result satisfy `post`, whatever the operations answer. -/
def AllTraces (post : List ((o : Op) × Ret o) → α → Prop) (p : Program Op Ret α) : Prop :=
  ∀ trace a, p.Traces trace a → post trace a

variable {onTrace : List ((o : Op) × Ret o) → α → Prop}

theorem Traces.of_bind {p : Program Op Ret α} {f : α → Program Op Ret β}
    {trace : List ((o : Op) × Ret o)} {b : β} (traces : (p >>= f).Traces trace b) :
    ∃ first second a, trace = first ++ second ∧ p.Traces first a ∧ (f a).Traces second b := by
  change (p.bind f).Traces trace b at traces
  induction p generalizing trace with
  | ret a => exact ⟨[], trace, a, rfl, .ret a, traces⟩
  | op o next ih =>
      cases traces with
      | @op _ _ r trace _ rest =>
          obtain ⟨first, second, a, rfl, left, right⟩ := ih r rest
          exact ⟨⟨o, r⟩ :: first, second, a, rfl, .op left, right⟩

/-- Running a program alone is one of its traces. -/
theorem exists_traces_exec (handle : (o : Op) → σ → Ret o × σ) (p : Program Op Ret α) (s : σ) :
    ∃ trace, p.Traces trace (p.exec handle s).1 := by
  induction p generalizing s with
  | ret a => exact ⟨[], .ret a⟩
  | op o next ih =>
      obtain ⟨trace, rest⟩ := ih (handle o s).1 (handle o s).2
      exact ⟨⟨o, (handle o s).1⟩ :: trace, .op rest⟩

theorem AllTraces.pure {a : α} (empty : onTrace [] a) :
    AllTraces onTrace (pure a : Program Op Ret α) := by
  intro trace b traces
  cases traces
  exact empty

theorem AllTraces.perform {o : Op} {onTrace : List ((o : Op) × Ret o) → Ret o → Prop}
    (one : ∀ r, onTrace [⟨o, r⟩] r) : AllTraces onTrace (perform o : Program Op Ret (Ret o)) := by
  intro trace b traces
  cases traces with
  | op rest =>
      cases rest
      exact one _

theorem AllTraces.bind {p : Program Op Ret α} {f : α → Program Op Ret β}
    {onTrace : List ((o : Op) × Ret o) → β → Prop}
    (first : p.AllTraces fun before a => (f a).AllTraces fun after => onTrace (before ++ after)) :
    (p >>= f).AllTraces onTrace := by
  intro trace b traces
  obtain ⟨before, after, a, rfl, left, right⟩ := traces.of_bind
  exact first before a left after b right

/-- The operations of a run alone, with their answers. -/
def trace (handle : (o : Op) → σ → Ret o × σ) : Program Op Ret α → σ → List ((o : Op) × Ret o)
  | .ret _, _ => []
  | .op o next, s =>
      ⟨o, (handle o s).1⟩ :: trace handle (next (handle o s).1) (handle o s).2

theorem trace_bind (handle : (o : Op) → σ → Ret o × σ) (p : Program Op Ret α)
    (f : α → Program Op Ret β) (s : σ) :
    trace handle (p >>= f) s =
      trace handle p s ++ trace handle (f (exec handle p s).1) (exec handle p s).2 := by
  change trace handle (p.bind f) s = _
  induction p generalizing s with
  | ret a => rfl
  | op o next ih => exact congrArg _ (ih (handle o s).1 (handle o s).2)

/-- A program run alone, from a state and after a history as in `pre`, ends as in `post`. -/
def Triple (handle : (o : Op) → σ → Ret o × σ) (pre : List ((o : Op) × Ret o) → σ → Prop)
    (p : Program Op Ret α) (post : α → List ((o : Op) × Ret o) → σ → Prop) : Prop :=
  ∀ before s, pre before s →
    post (exec handle p s).1 (before ++ trace handle p s) (exec handle p s).2

section Triple

variable {handle : (o : Op) → σ → Ret o × σ} {pre : List ((o : Op) × Ret o) → σ → Prop}

theorem Triple.pure {a : α} {post : α → List ((o : Op) × Ret o) → σ → Prop}
    (holds : ∀ before s, pre before s → post a before s) :
    Triple handle pre (pure a : Program Op Ret α) post := by
  intro before s here
  change post a (before ++ []) s
  rw [List.append_nil]
  exact holds before s here

theorem Triple.perform {o : Op} {post : Ret o → List ((o : Op) × Ret o) → σ → Prop}
    (step : ∀ before s, pre before s →
      post (handle o s).1 (before ++ [⟨o, (handle o s).1⟩]) (handle o s).2) :
    Triple handle pre (perform o : Program Op Ret (Ret o)) post :=
  step

theorem Triple.bind {p : Program Op Ret α} {f : α → Program Op Ret β}
    {mid : α → List ((o : Op) × Ret o) → σ → Prop}
    {post : β → List ((o : Op) × Ret o) → σ → Prop} (first : Triple handle pre p mid)
    (second : ∀ a, Triple handle (mid a) (f a) post) : Triple handle pre (p >>= f) post := by
  intro before s here
  rw [exec_bind, trace_bind, ← List.append_assoc]
  exact second _ _ _ (first before s here)

theorem Triple.weaken {p : Program Op Ret α}
    {stronger : List ((o : Op) × Ret o) → σ → Prop}
    {mid post : α → List ((o : Op) × Ret o) → σ → Prop} (triple : Triple handle pre p mid)
    (before : ∀ history s, stronger history s → pre history s)
    (after : ∀ a history s, mid a history s → post a history s) :
    Triple handle stronger p post :=
  fun history s here => after _ _ _ (triple history s (before history s here))

/-- A condition that is not about the history or the state. -/
theorem Triple.of_fact {p : Program Op Ret α} {post : α → List ((o : Op) × Ret o) → σ → Prop}
    {fact : Prop} (triple : fact → Triple handle pre p post) :
    Triple handle (fun history s => fact ∧ pre history s) p post :=
  fun before s here => triple here.1 before s here.2

/-- What the history says is not forgotten. -/
theorem Triple.frame {p : Program Op Ret α} {post : α → List ((o : Op) × Ret o) → σ → Prop}
    (triple : Triple handle pre p post) {fact : List ((o : Op) × Ret o) → Prop}
    (grows : ∀ before after, fact before → fact (before ++ after)) :
    Triple handle (fun history s => fact history ∧ pre history s) p
      fun a history s => fact history ∧ post a history s :=
  fun before s here => ⟨grows before _ here.1, triple before s here.2⟩

end Triple

end Program

/-- Threads over a shared state. -/
structure Threads (σ Op : Type) (Ret : Op → Type) (α : Type) where
  shared : σ
  programs : List (Program Op Ret α) := []

namespace Threads

variable {σ Op In α : Type} {Ret : Op → Type}

def start (s : Threads σ Op Ret α) (p : Program Op Ret α) : Threads σ Op Ret α :=
  { s with programs := s.programs ++ [p] }

/-- The operation that a thread is at. -/
def next (s : Threads σ Op Ret α) (i : Nat) : Option Op :=
  match s.programs[i]? with
  | some (.op o _) => some o
  | _ => none

/-- One operation of a thread. The input is what the environment decides about it; an
operation that has to wait gives `none`. -/
def run (handle : (o : Op) → In → σ → Option (Ret o × σ)) (s : Threads σ Op Ret α) (i : Nat)
    (input : In) : Option (Threads σ Op Ret α) :=
  match s.programs[i]? with
  | some (.op o next) => (handle o input s.shared).map fun r =>
      { shared := r.2, programs := s.programs.set i (next r.1) }
  | _ => none

theorem run_eq_some {handle : (o : Op) → In → σ → Option (Ret o × σ)}
    {s s' : Threads σ Op Ret α} {i : Nat} {input : In} (ran : s.run handle i input = some s') :
    ∃ o next r, s.programs[i]? = some (.op o next) ∧ handle o input s.shared = some r ∧
      s' = { shared := r.2, programs := s.programs.set i (next r.1) } := by
  unfold run at ran
  split at ran
  · rename_i o next found
    obtain ⟨r, handled, rfl⟩ := Option.map_eq_some_iff.mp ran
    exact ⟨o, next, r, found, handled, rfl⟩
  · cases ran

theorem next_eq_some {s : Threads σ Op Ret α} {i : Nat} {o : Op} {next : Ret o → Program Op Ret α}
    (found : s.programs[i]? = some (.op o next)) : s.next i = some o := by
  unfold Threads.next
  rw [found]

end Threads
