import Mathlib.Algebra.Order.Ring.Nat
import Mathlib.Data.List.Basic

set_option autoImplicit false

/- Machines given by a step function. `step s a = none` when the action `a` is not
possible in `s`. -/
namespace Machine

variable {σ α : Type}

/-- The state after a list of actions, `none` if one of them is not possible. -/
def run (step : σ → α → Option σ) (s : σ) (actions : List α) : Option σ := actions.foldlM step s

@[simp] theorem run_nil (step : σ → α → Option σ) (s : σ) : run step s [] = some s := rfl

theorem run_cons (step : σ → α → Option σ) (s : σ) (a : α) (rest : List α) :
    run step s (a :: rest) = (step s a).bind fun s => run step s rest := by
  simp only [run, List.foldlM_cons, Option.bind_eq_bind]

theorem run_cons_eq_some {step : σ → α → Option σ} {s s' : σ} {a : α} {rest : List α} :
    run step s (a :: rest) = some s' ↔ ∃ mid, step s a = some mid ∧ run step mid rest = some s' := by
  rw [run_cons, Option.bind_eq_some_iff]

theorem run_append_eq_some {step : σ → α → Option σ} {s s' : σ} {before after : List α} :
    run step s (before ++ after) = some s' ↔
      ∃ mid, run step s before = some mid ∧ run step mid after = some s' := by
  rw [run, List.foldlM_append, Option.bind_eq_bind, Option.bind_eq_some_iff]
  rfl

theorem run_concat_eq_some {step : σ → α → Option σ} {s s' : σ} {a : α} {actions : List α} :
    run step s (actions ++ [a]) = some s' ↔
      ∃ mid, run step s actions = some mid ∧ step mid a = some s' := by
  rw [run_append_eq_some]
  simp only [run_cons, run_nil, Option.bind_fun_some]

/-- Every action of a run passes a check in the state it is taken in. -/
def along (step : σ → α → Option σ) (check : σ → α → Bool) (s : σ) : List α → Bool
  | [] => true
  | a :: rest => check s a && ((step s a).map fun s => along step check s rest).getD true

theorem check_of_along {step : σ → α → Option σ} {check : σ → α → Bool} {s mid : σ}
    {actions before after : List α} {a : α} (checked : along step check s actions = true)
    (split : actions = before ++ a :: after) (reached : run step s before = some mid) :
    check mid a = true := by
  subst split
  induction before generalizing s with
  | nil =>
      obtain rfl : s = mid := Option.some.inj reached
      simp only [List.nil_append, along, Bool.and_eq_true] at checked
      exact checked.1
  | cons b rest ih =>
      obtain ⟨next, stepped, later⟩ := run_cons_eq_some.mp reached
      simp only [List.cons_append, along, Bool.and_eq_true, stepped, Option.map_some,
        Option.getD_some] at checked
      exact ih later checked.2

/-- A run that fails the check fails it at some step. -/
theorem exists_of_along_eq_false {step : σ → α → Option σ} {check : σ → α → Bool} {s s' : σ}
    {actions : List α} (runs : run step s actions = some s')
    (failed : along step check s actions = false) :
    ∃ before a after mid next, actions = before ++ a :: after ∧ run step s before = some mid ∧
      check mid a = false ∧ step mid a = some next ∧ run step next after = some s' := by
  induction actions generalizing s with
  | nil => cases failed
  | cons a rest ih =>
      obtain ⟨next, stepped, later⟩ := run_cons_eq_some.mp runs
      cases here : check s a with
      | false => exact ⟨[], a, rest, s, next, rfl, rfl, here, stepped, later⟩
      | true =>
          simp only [along, here, stepped, Option.map_some, Option.getD_some,
            Bool.true_and] at failed
          obtain ⟨before, b, after, mid, last, split, reached, found⟩ := ih later failed
          exact ⟨a :: before, b, after, mid, last, by rw [split, List.cons_append],
            run_cons_eq_some.mpr ⟨next, stepped, reached⟩, found⟩

/-- What every allowed step keeps holds after every run of allowed steps. -/
theorem invariant_run {step : σ → α → Option σ} (Allowed : σ → α → Prop) (Inv : σ → Prop)
    (keeps : ∀ s a s', Inv s → Allowed s a → step s a = some s' → Inv s')
    {s s' : σ} {actions : List α} (start : Inv s)
    (allowed : ∀ before a after, actions = before ++ a :: after →
      ∀ mid, run step s before = some mid → Allowed mid a)
    (runs : run step s actions = some s') : Inv s' := by
  induction actions generalizing s with
  | nil =>
      obtain rfl : s = s' := Option.some.inj runs
      exact start
  | cons a rest ih =>
      obtain ⟨mid, stepped, later⟩ := run_cons_eq_some.mp runs
      refine ih (keeps s a mid start (allowed [] a rest rfl s rfl) stepped) ?_ later
      intro before b after split state reached
      refine allowed (a :: before) b after (by rw [split, List.cons_append]) state ?_
      exact run_cons_eq_some.mpr ⟨mid, stepped, reached⟩

/-- The same for actions that are allowed in any state, in a run that passes a check. -/
theorem invariant_along_of_mem {step : σ → α → Option σ} {check : σ → α → Bool}
    (Allowed : α → Prop) (Inv : σ → Prop) {s s' : σ} {actions : List α}
    (allowed : ∀ a ∈ actions, Allowed a) (checked : along step check s actions = true)
    (keeps : ∀ s a s', Inv s → Allowed a → check s a = true → step s a = some s' → Inv s')
    (start : Inv s) (runs : run step s actions = some s') : Inv s' := by
  refine invariant_run (fun s a => Allowed a ∧ check s a = true) Inv
    (fun s a s' inv allowed => keeps s a s' inv allowed.1 allowed.2) start ?_ runs
  intro before a after split mid reached
  exact ⟨allowed a (by rw [split]; simp), check_of_along checked split reached⟩

/-- The same when only the check matters. -/
theorem invariant_along {step : σ → α → Option σ} {check : σ → α → Bool} (Inv : σ → Prop)
    {s s' : σ} {actions : List α} (checked : along step check s actions = true)
    (keeps : ∀ s a s', Inv s → check s a = true → step s a = some s' → Inv s') (start : Inv s)
    (runs : run step s actions = some s') : Inv s' :=
  invariant_along_of_mem (fun _ => True) Inv (fun _ _ => trivial) checked
    (fun s a s' inv _ => keeps s a s' inv) start runs

/-- The same when being allowed does not depend on the state. -/
theorem invariant_run_of_mem {step : σ → α → Option σ} (Allowed : α → Prop) (Inv : σ → Prop)
    (keeps : ∀ s a s', Inv s → Allowed a → step s a = some s' → Inv s')
    {s s' : σ} {actions : List α} (start : Inv s) (allowed : ∀ a ∈ actions, Allowed a)
    (runs : run step s actions = some s') : Inv s' := by
  refine invariant_run (fun _ => Allowed) Inv keeps start ?_ runs
  intro before a after split _ _
  exact allowed a (by rw [split]; simp)

/-- The same when every step is allowed. -/
theorem invariant_run_all {step : σ → α → Option σ} (Inv : σ → Prop)
    (keeps : ∀ s a s', Inv s → step s a = some s' → Inv s') {s s' : σ} {actions : List α}
    (start : Inv s) (runs : run step s actions = some s') : Inv s' :=
  invariant_run_of_mem (fun _ => True) Inv (fun s a s' inv _ => keeps s a s' inv) start
    (fun _ _ => trivial) runs

/-- An invariant that may speak of the actions taken so far. -/
theorem history_run {step : σ → α → Option σ} (Inv : List α → σ → Prop)
    (keeps : ∀ done s a s', Inv done s → step s a = some s' → Inv (done ++ [a]) s') {s s' : σ}
    {actions : List α} (start : Inv [] s) (runs : run step s actions = some s') : Inv actions s' := by
  have later (done rest : List α) (mid : σ) (inv : Inv done mid)
      (runs : run step mid rest = some s') : Inv (done ++ rest) s' := by
    induction rest generalizing done mid with
    | nil =>
        obtain rfl : mid = s' := Option.some.inj runs
        rwa [List.append_nil]
    | cons a rest ih =>
        obtain ⟨next, stepped, runs⟩ := run_cons_eq_some.mp runs
        have kept := ih (done ++ [a]) next (keeps done mid a next inv stepped) runs
        rwa [List.append_assoc] at kept
  exact later [] actions s start runs

/-- A run of one machine, seen as a run of another: each step changes nothing that is seen, or
is a step there. -/
theorem run_of_simulates {τ β : Type} {step : σ → α → Option σ} {step' : τ → β → Option τ}
    (Inv : σ → Prop) (view : σ → τ) (keeps : ∀ s a s', Inv s → step s a = some s' → Inv s')
    (simulates : ∀ s a s', Inv s → step s a = some s' →
      view s' = view s ∨ ∃ b, step' (view s) b = some (view s'))
    {s s' : σ} {actions : List α} (start : Inv s) (runs : run step s actions = some s') :
    ∃ actions', run step' (view s) actions' = some (view s') := by
  induction actions generalizing s with
  | nil =>
      obtain rfl : s = s' := Option.some.inj runs
      exact ⟨[], rfl⟩
  | cons a rest ih =>
      obtain ⟨mid, stepped, later⟩ := run_cons_eq_some.mp runs
      obtain ⟨actions', seen⟩ := ih (keeps s a mid start stepped) later
      rcases simulates s a mid start stepped with same | ⟨b, matched⟩
      · exact ⟨actions', same ▸ seen⟩
      · exact ⟨b :: actions', run_cons_eq_some.mpr ⟨view mid, matched, seen⟩⟩

/-- A run is no longer than what its steps use up. -/
theorem length_run_le {step : σ → α → Option σ} (Inv : σ → Prop) (fuel : σ → Nat)
    (keeps : ∀ s a s', Inv s → step s a = some s' → Inv s')
    (uses : ∀ s a s', Inv s → step s a = some s' → fuel s' < fuel s)
    {s s' : σ} {actions : List α} (start : Inv s) (runs : run step s actions = some s') :
    actions.length + fuel s' ≤ fuel s := by
  induction actions generalizing s with
  | nil =>
      obtain rfl : s = s' := Option.some.inj runs
      simp
  | cons a rest ih =>
      obtain ⟨mid, stepped, later⟩ := run_cons_eq_some.mp runs
      have tail := ih (keeps s a mid start stepped) later
      have head := uses s a mid start stepped
      rw [List.length_cons]
      omega

/-- How many actions of a run count, each in the state it is taken in. -/
def tally (step : σ → α → Option σ) (counts : σ → α → Bool) (s : σ) : List α → Nat
  | [] => 0
  | a :: rest =>
      (if counts s a then 1 else 0) + ((step s a).map fun s => tally step counts s rest).getD 0

/-- A run takes no more counted steps than there was fuel for and its actions brought. -/
theorem tally_run_le {step : σ → α → Option σ} {counts : σ → α → Bool} (Inv : σ → Prop)
    (fuel : σ → Nat) (brings : α → Nat) (keeps : ∀ s a s', Inv s → step s a = some s' → Inv s')
    (uses : ∀ s a s', Inv s → step s a = some s' →
      fuel s' + (if counts s a then 1 else 0) ≤ fuel s + brings a)
    {s s' : σ} {actions : List α} (start : Inv s) (runs : run step s actions = some s') :
    tally step counts s actions + fuel s' ≤ fuel s + (actions.map brings).sum := by
  induction actions generalizing s with
  | nil =>
      obtain rfl : s = s' := Option.some.inj runs
      simp [tally]
  | cons a rest ih =>
      obtain ⟨mid, stepped, later⟩ := run_cons_eq_some.mp runs
      have tail := ih (keeps s a mid start stepped) later
      have head := uses s a mid start stepped
      simp only [tally, stepped, Option.map_some, Option.getD_some, List.map_cons, List.sum_cons]
      omega

end Machine
