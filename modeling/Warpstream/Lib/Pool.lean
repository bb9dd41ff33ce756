import Mathlib.Data.List.Perm.Basic
import Mathlib.Algebra.BigOperators.Group.List.Basic

set_option autoImplicit false

/- A pool of threads. Each thread is the list of operations it still has to run, and the
pool advances by replacing the first operation of one thread by what it turns into. -/
namespace Pool

variable {α : Type}

/-- The operations of the pool, up to order: the first one of a thread and all others. -/
theorem flatten_perm {threads : List (List α)} {t : Nat} {op : α} {rest : List α}
    (found : threads[t]? = some (op :: rest)) :
    threads.flatten.Perm (op :: (threads.set t rest).flatten) := by
  induction threads generalizing t with
  | nil => simp at found
  | cons first others ih =>
      cases t with
      | zero =>
          obtain rfl : first = op :: rest := by simpa using found
          rfl
      | succ t =>
          simp only [List.set_cons_succ, List.flatten_cons]
          exact ((ih (by simpa using found)).append_left first).trans List.perm_middle

/-- What the first operation of a thread turns into is added to the others. -/
theorem flatten_set_perm {threads : List (List α)} {t : Nat} {op : α} {rest : List α}
    (found : threads[t]? = some (op :: rest)) (ops : List α) :
    (threads.set t (ops ++ rest)).flatten.Perm (ops ++ (threads.set t rest).flatten) := by
  induction threads generalizing t with
  | nil => simp at found
  | cons first others ih =>
      cases t with
      | zero =>
          simp only [List.set_cons_zero, List.flatten_cons, List.append_assoc]
          rfl
      | succ t =>
          simp only [List.set_cons_succ, List.flatten_cons]
          refine ((ih (by simpa using found)).append_left first).trans ?_
          rw [← List.append_assoc, ← List.append_assoc]
          exact List.perm_append_comm.append_right _

/-- The operations of the pool after one of them ran and started new threads. -/
theorem flatten_run_perm {threads : List (List α)} {t : Nat} {op : α} {rest : List α}
    (found : threads[t]? = some (op :: rest)) (ops : List α) (spawned : List (List α)) :
    (ops ++ spawned.flatten ++ (threads.set t rest).flatten).Perm
      (threads.set t (ops ++ rest) ++ spawned).flatten := by
  rw [List.flatten_append, List.append_assoc]
  refine (List.perm_append_comm.append_left _).trans ?_
  rw [← List.append_assoc]
  exact (flatten_set_perm found ops).symm.append_right _

/-- Replacing one element changes a sum by the difference of the two. -/
theorem sum_map_set {M : Type} [AddCommMonoid M] (f : α → M) {xs : List α} {i : Nat} {a : α}
    (found : xs[i]? = some a) (b : α) :
    ((xs.set i b).map f).sum + f a = (xs.map f).sum + f b := by
  induction xs generalizing i with
  | nil => simp at found
  | cons x rest ih =>
      cases i with
      | zero =>
          obtain rfl : x = a := by simpa using found
          simp only [List.set_cons_zero, List.map_cons, List.sum_cons]
          rw [add_comm, add_comm (f b), add_assoc]
      | succ i =>
          have later := ih (i := i) (by simpa using found)
          simp only [List.set_cons_succ, List.map_cons, List.sum_cons, add_assoc, later]

/-- Replacing an element by one with the same image changes no image. -/
theorem map_set_of_eq {β : Type} (f : α → β) {xs : List α} {i : Nat} {a b : α}
    (found : xs[i]? = some a) (same : f b = f a) : (xs.set i b).map f = xs.map f := by
  induction xs generalizing i with
  | nil => rfl
  | cons x rest ih =>
      cases i with
      | zero =>
          obtain rfl : x = a := by simpa using found
          rw [List.set_cons_zero, List.map_cons, List.map_cons, same]
      | succ i => rw [List.set_cons_succ, List.map_cons, List.map_cons, ih (by simpa using found)]

/-- A sum over a list in which each element knows its index, the first having index `first`. -/
def tallyFrom (g : Nat → α → Nat) : Nat → List α → Nat
  | _, [] => 0
  | first, x :: rest => g first x + tallyFrom g (first + 1) rest

@[simp] theorem tallyFrom_zero (first : Nat) (xs : List α) :
    tallyFrom (fun _ _ => 0) first xs = 0 := by
  induction xs generalizing first with
  | nil => rfl
  | cons x rest ih => rw [tallyFrom, ih]

theorem tallyFrom_append (g : Nat → α → Nat) (first : Nat) (xs ys : List α) :
    tallyFrom g first (xs ++ ys) = tallyFrom g first xs + tallyFrom g (first + xs.length) ys := by
  induction xs generalizing first with
  | nil => simp [tallyFrom]
  | cons x rest ih =>
      simp only [List.cons_append, tallyFrom, ih, List.length_cons]
      rw [Nat.add_assoc, Nat.add_assoc, Nat.add_comm 1]

theorem tallyFrom_set (g : Nat → α → Nat) (first : Nat) {i : Nat} {xs : List α} {a : α}
    (found : xs[i]? = some a) (b : α) :
    tallyFrom g first (xs.set i b) + g (first + i) a = tallyFrom g first xs + g (first + i) b := by
  induction xs generalizing i first with
  | nil => simp at found
  | cons x rest ih =>
      cases i with
      | zero =>
          obtain rfl : x = a := by simpa using found
          simp only [List.set_cons_zero, tallyFrom, Nat.add_zero]
          omega
      | succ i =>
          have later : tallyFrom g (first + 1) (rest.set i b) + g (first + 1 + i) a =
              tallyFrom g (first + 1) rest + g (first + 1 + i) b := ih (first + 1) (by simpa using found)
          have shift : first + 1 + i = first + (i + 1) := by omega
          rw [shift] at later
          simp only [List.set_cons_succ, tallyFrom]
          omega

/-- An index that only one element can have picks out that element. -/
theorem tallyFrom_index (h : α → Nat) (first j : Nat) (xs : List α) :
    tallyFrom (fun i x => if i = j then h x else 0) first xs =
      if first ≤ j then ((xs[j - first]?).map h).getD 0 else 0 := by
  induction xs generalizing first with
  | nil => simp [tallyFrom]
  | cons x rest ih =>
      rw [tallyFrom, ih]
      by_cases here : first = j
      · subst here
        rw [if_neg (by omega : ¬ first + 1 ≤ first)]
        simp
      · by_cases before : first ≤ j
        · have step : j - first = (j - (first + 1)) + 1 := by omega
          rw [if_neg here, if_pos before, if_pos (by omega), step]
          simp
        · rw [if_neg here, if_neg before, if_neg (by omega)]

end Pool
