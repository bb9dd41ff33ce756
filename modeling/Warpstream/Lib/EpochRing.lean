import Mathlib.Algebra.BigOperators.Fin
import Mathlib.Algebra.BigOperators.Group.Finset.Basic
import Mathlib.Data.Int.ModEq
import Mathlib.Order.Interval.Finset.Nat

set_option autoImplicit false

/- A ring of `n` slots that keeps one total per epoch for the last `n` epochs. The slot of an
epoch is found modulo `n` and is overwritten when an addition finds another epoch in it;
nothing is ever evicted. -/
namespace EpochRing

variable {M : Type} {n : Nat} [NeZero n]

structure Slot (M : Type) where
  epoch : Nat
  value : M

section Add

variable [AddCommMonoid M]

def empty : Fin n → Slot M := fun _ => ⟨0, 0⟩

def add (ring : Fin n → Slot M) (epoch : Nat) (m : M) : Fin n → Slot M :=
  let i := Fin.ofNat n epoch
  Function.update ring i
    ⟨epoch, (if (ring i).epoch = epoch then (ring i).value else 0) + m⟩

def addAll (ring : Fin n → Slot M) (log : List (Nat × M)) : Fin n → Slot M :=
  log.foldl (fun ring x => add ring x.1 x.2) ring

/-- All that was added in an epoch. -/
def total (log : List (Nat × M)) (epoch : Nat) : M :=
  ((log.filter fun x => x.1 = epoch).map Prod.snd).sum

theorem total_append (log : List (Nat × M)) (x : Nat × M) (epoch : Nat) :
    total (log ++ [x]) epoch = total log epoch + if x.1 = epoch then x.2 else 0 := by
  by_cases same : x.1 = epoch <;> simp [total, List.filter_append, same]

theorem total_eq_zero {log : List (Nat × M)} {epoch : Nat} (fresh : ∀ x ∈ log, x.1 ≠ epoch) :
    total log epoch = 0 := by
  have none : log.filter (fun x => x.1 = epoch) = [] := by
    rw [List.filter_eq_nil_iff]
    intro x mem same
    exact fresh x mem (of_decide_eq_true same)
  rw [total, none]
  rfl

/-- What the slots hold after the additions of a log. An epoch is recent while no addition
is `n` or more epochs past it. -/
structure Holds (ring : Fin n → Slot M) (log : List (Nat × M)) : Prop where
  own : ∀ i, Fin.ofNat n (ring i).epoch = i → (ring i).value = total log (ring i).epoch
  unused : ∀ i, Fin.ofNat n (ring i).epoch ≠ i → (ring i).value = 0
  recent : ∀ x ∈ log, (∀ y ∈ log, y.1 < x.1 + n) → (ring (Fin.ofNat n x.1)).epoch = x.1

theorem holds_empty : Holds (empty : Fin n → Slot M) [] :=
  ⟨fun _ _ => rfl, fun _ _ => rfl, fun _ mem => absurd mem List.not_mem_nil⟩

omit [AddCommMonoid M] in
/-- Epochs that share a slot are equal if they are less than `n` apart. -/
theorem eq_of_ofNat_eq {a b : Nat} (same : Fin.ofNat n a = Fin.ofNat n b) (lower : a < b + n)
    (upper : b < a + n) : a = b := by
  have mod : a ≡ b [MOD n] := congrArg Fin.val same
  refine mod.eq_of_abs_lt ?_
  rw [abs_lt]
  omega

/-- An addition that is less than `n` epochs late. -/
theorem Holds.add {ring : Fin n → Slot M} {log : List (Nat × M)} (holds : Holds ring log)
    (epoch : Nat) (m : M) (late : ∀ x ∈ log, x.1 < epoch + n) :
    Holds (add ring epoch m) (log ++ [(epoch, m)]) := by
  have other {i : Fin n} (different : i ≠ Fin.ofNat n epoch) :
      EpochRing.add ring epoch m i = ring i := Function.update_of_ne different _ _
  have here : EpochRing.add ring epoch m (Fin.ofNat n epoch) = ⟨epoch,
      (if (ring (Fin.ofNat n epoch)).epoch = epoch then (ring (Fin.ofNat n epoch)).value else 0) +
        m⟩ := Function.update_self _ _ _
  refine ⟨?_, ?_, ?_⟩
  · intro i own
    by_cases same : i = Fin.ofNat n epoch
    · subst same
      rw [here, total_append, if_pos rfl]
      by_cases held : (ring (Fin.ofNat n epoch)).epoch = epoch
      · simp only [held, ↓reduceIte]
        rw [holds.own _ (by rw [held]), held]
      · have fresh : total log epoch = 0 := by
          apply total_eq_zero
          intro x mem found
          subst found
          exact held (holds.recent x mem late)
        simp only [held, ↓reduceIte, fresh]
    · rw [other same] at own ⊢
      have apart : epoch ≠ (ring i).epoch := fun equal => same (by rw [equal, own])
      rw [total_append, if_neg apart, add_zero, holds.own i own]
  · intro i unused
    by_cases same : i = Fin.ofNat n epoch
    · subst same
      rw [here] at unused
      exact absurd rfl unused
    · rw [other same] at unused ⊢
      exact holds.unused i unused
  · intro x mem recent
    by_cases same : Fin.ofNat n x.1 = Fin.ofNat n epoch
    · rcases List.mem_append.mp mem with old | new
      · have upper := recent (epoch, m) (by simp)
        rw [same, here]
        exact (eq_of_ofNat_eq same (late x old) upper).symm
      · rw [List.mem_singleton.mp new, here]
    · rw [other same]
      rcases List.mem_append.mp mem with old | new
      · exact holds.recent x old fun y mem => recent y (by simp [mem])
      · rw [List.mem_singleton.mp new] at same
        exact absurd rfl same

/-- A log in which every addition is less than `n` epochs late. -/
theorem holds_addAll {ring : Fin n → Slot M} {held log : List (Nat × M)}
    (holds : Holds ring held)
    (late : (held ++ log).Pairwise fun earlier later => earlier.1 < later.1 + n) :
    Holds (addAll ring log) (held ++ log) := by
  induction log generalizing ring held with
  | nil => simpa [addAll] using holds
  | cons x rest ih =>
      have split : held ++ x :: rest = (held ++ [x]) ++ rest := by simp
      rw [split] at late ⊢
      have first : ∀ y ∈ held, y.1 < x.1 + n := by
        intro y mem
        exact (List.pairwise_append.mp (List.pairwise_append.mp late).1).2.2 y mem x (by simp)
      exact ih (holds.add x.1 x.2 first) late

/-- The slots that are not older than the window give, for a function of the totals, the sum
over the epochs of the window. -/
theorem Holds.sum_window {K : Type} [AddCommMonoid K] {ring : Fin n → Slot M}
    {log : List (Nat × M)} (holds : Holds ring log) (f : M → K) (zero : f 0 = 0) {now : Nat}
    (latest : ∀ x ∈ log, x.1 ≤ now) :
    (∑ i, if now < (ring i).epoch + n then f (ring i).value else 0) =
      ∑ epoch ∈ (Finset.range (now + 1)).filter (now < · + n), f (total log epoch) := by
  have logged {epoch : Nat} (some : f (total log epoch) ≠ 0) : ∃ x ∈ log, x.1 = epoch := by
    by_contra none
    refine some ?_
    rw [total_eq_zero, zero]
    intro x mem same
    exact none ⟨x, mem, same⟩
  have slot {epoch : Nat} (some : f (total log epoch) ≠ 0) (window : now < epoch + n) :
      (ring (Fin.ofNat n epoch)).epoch = epoch := by
    obtain ⟨x, mem, rfl⟩ := logged some
    refine holds.recent x mem fun y inside => ?_
    have before := latest y inside
    omega
  symm
  refine Finset.sum_bij_ne_zero (fun epoch _ _ => Fin.ofNat n epoch) ?_ ?_ ?_ ?_
  · intros
    exact Finset.mem_univ _
  · intro a windowA _ b windowB _ same
    simp only [Finset.mem_filter, Finset.mem_range] at windowA windowB
    exact eq_of_ofNat_eq same (by omega) (by omega)
  · intro i _ some
    split at some
    · rename_i window
      have own : Fin.ofNat n (ring i).epoch = i := by
        by_contra unused
        exact some (by rw [holds.unused i unused, zero])
      rw [holds.own i own] at some
      obtain ⟨x, mem, equal⟩ := logged some
      have before := latest x mem
      refine ⟨(ring i).epoch, ?_, some, own⟩
      simp only [Finset.mem_filter, Finset.mem_range]
      omega
    · exact absurd rfl some
  · intro epoch window some
    simp only [Finset.mem_filter] at window
    have held := slot some window.2
    rw [held, if_pos window.2, holds.own _ (by rw [held]), held]

/-- The totals of a set of epochs add up to all additions in them. -/
theorem sum_total (log : List (Nat × M)) (epochs : Finset Nat) :
    ∑ epoch ∈ epochs, total log epoch =
      ((log.filter fun x => x.1 ∈ epochs).map Prod.snd).sum := by
  induction log with
  | nil => simp [total]
  | cons x rest ih =>
      have cons (epoch : Nat) : total (x :: rest) epoch =
          (if x.1 = epoch then x.2 else 0) + total rest epoch := by
        by_cases same : x.1 = epoch <;> simp [total, same]
      simp only [cons, Finset.sum_add_distrib, ih, Finset.sum_ite_eq]
      by_cases inside : x.1 ∈ epochs <;> simp [inside]

end Add

end EpochRing
