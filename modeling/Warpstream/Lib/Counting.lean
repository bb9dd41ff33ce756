import Mathlib.Algebra.BigOperators.Group.Finset.Piecewise
import Mathlib.Algebra.Ring.Nat

set_option autoImplicit false

/- Counters with labels, and counts of the elements of a list by a key. -/

/-- A counter for each label. -/
structure CounterVec (κ : Type) where
  value : κ → Nat := fun _ => 0

namespace CounterVec

variable {κ : Type}

def add [DecidableEq κ] (c : CounterVec κ) (label : κ) (n : Nat) : CounterVec κ :=
  ⟨fun k => if k = label then c.value k + n else c.value k⟩

/-- Add to the labels that have something to add. -/
def addPositive (c d : CounterVec κ) : CounterVec κ :=
  ⟨fun k => if 0 < d.value k then c.value k + d.value k else c.value k⟩

def total [Fintype κ] (c : CounterVec κ) : Nat := ∑ k, c.value k

section Total

variable [Fintype κ]

theorem total_empty : ({} : CounterVec κ).total = 0 := Finset.sum_const_zero

theorem total_add [DecidableEq κ] (c : CounterVec κ) (label : κ) (n : Nat) :
    (c.add label n).total = c.total + n := by
  have each : ∀ k, (c.add label n).value k = c.value k + if k = label then n else 0 := by
    intro k
    dsimp only [add]
    split <;> rfl
  rw [total, Finset.sum_congr rfl fun k _ => each k, Finset.sum_add_distrib,
    Finset.sum_ite_eq' Finset.univ label fun _ => n, if_pos (Finset.mem_univ label), total]

theorem total_addPositive (c d : CounterVec κ) : (c.addPositive d).total = c.total + d.total := by
  have each : ∀ k, (c.addPositive d).value k = c.value k + d.value k := by
    intro k
    dsimp only [addPositive]
    split
    · rfl
    · omega
  rw [total, Finset.sum_congr rfl fun k _ => each k, Finset.sum_add_distrib, total, total]

end Total

end CounterVec

namespace Counting

variable {α κ δ : Type}

theorem length_eq_countP_add_not (p : α → Bool) (l : List α) :
    l.length = l.countP p + l.countP fun a => !p a := by
  rw [List.length_eq_countP_add_countP p]
  congr 1
  apply List.countP_congr
  intro a _
  simp

theorem countP_or_of_disjoint {p q : α → Bool} {l : List α}
    (disjoint : ∀ a ∈ l, p a = true → q a = false) :
    l.countP (fun a => p a || q a) = l.countP p + l.countP q := by
  induction l with
  | nil => rfl
  | cons a rest ih =>
      have here := disjoint a List.mem_cons_self
      rw [List.countP_cons, List.countP_cons, List.countP_cons,
        ih fun b mem => disjoint b (List.mem_cons_of_mem a mem)]
      cases first : p a with
      | false =>
          simp only [Bool.false_or, Bool.false_eq_true, if_false]
          omega
      | true =>
          simp only [here first, Bool.true_or, Bool.false_eq_true, if_true, if_false]
          omega

/-- The counts under the chosen keys add up to the count of what has a chosen key. -/
theorem sum_countP_of_nodup [DecidableEq κ] (key : α → κ) (l : List α)
    (chosen : κ × δ → Bool) {entries : List (κ × δ)} (distinct : (entries.map Prod.fst).Nodup) :
    (entries.map fun e => if chosen e then l.countP (fun a => key a = e.1) else 0).sum =
      l.countP fun a => entries.any fun e => decide (key a = e.1) && chosen e := by
  induction entries with
  | nil => simp
  | cons e rest ih =>
      obtain ⟨fresh, later⟩ := List.nodup_cons.mp distinct
      have apart : ∀ a ∈ l, (decide (key a = e.1) && chosen e) = true →
          (rest.any fun e => decide (key a = e.1) && chosen e) = false := by
        intro a _ here
        simp only [Bool.and_eq_true, decide_eq_true_eq] at here
        apply List.any_eq_false.mpr
        intro other mem
        have other_key : key a ≠ other.1 := by
          intro same
          exact fresh (List.mem_map.mpr ⟨other, mem, same.symm.trans here.1⟩)
        simp [other_key]
      simp only [List.map_cons, List.sum_cons, List.any_cons]
      rw [ih later, countP_or_of_disjoint apart]
      congr 1
      cases chosen e <;> simp

/-- Two lists that agree position by position on what is counted. -/
theorem countP_eq_of_getElem? {β : Type} {p : α → Bool} {q : β → Bool} {l : List α} {m : List β}
    (agree : ∀ i : Nat, (l[i]?).map p = (m[i]?).map q) : l.countP p = m.countP q := by
  have same : l.map p = m.map q := by
    apply List.ext_getElem?
    intro i
    rw [List.getElem?_map, List.getElem?_map, agree]
  have counted := congrArg (List.countP id) same
  rwa [List.countP_map, List.countP_map] at counted

end Counting
