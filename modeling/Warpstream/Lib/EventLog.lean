import Mathlib.Data.List.Infix

set_option autoImplicit false

/- Logs that grow at their end, and what every point of a log satisfies. -/
namespace EventLog

variable {α : Type}

/-- The entries are `a`, `b`, `a` and so on. -/
def Alternates (a b : α) : List α → Prop
  | [] => True
  | x :: rest => x = a ∧ Alternates b a rest

instance Alternates.decidable [DecidableEq α] (a b : α) :
    (l : List α) → Decidable (Alternates a b l)
  | [] => inferInstanceAs (Decidable True)
  | x :: rest =>
      have := Alternates.decidable b a rest
      inferInstanceAs (Decidable (x = a ∧ Alternates b a rest))

theorem Alternates.concat {a b x : α} {l : List α} (alternates : Alternates a b l)
    (next : x = if l.length % 2 = 0 then a else b) : Alternates a b (l ++ [x]) := by
  induction l generalizing a b with
  | nil => exact ⟨by simpa using next, trivial⟩
  | cons y rest ih =>
      refine ⟨alternates.1, ih alternates.2 ?_⟩
      rw [next, List.length_cons]
      by_cases even : rest.length % 2 = 0
      · rw [if_neg (by omega), if_pos even]
      · rw [if_pos (by omega), if_neg even]

/-- A property of every point of a log, after one more entry. -/
theorem forall_prefix_concat {P : List α → Prop} {l : List α} {e : α}
    (before : ∀ start, start <+: l → P start) (last : P (l ++ [e])) :
    ∀ start, start <+: l ++ [e] → P start := by
  intro start points
  rcases List.prefix_concat_iff.mp points with rfl | earlier
  · exact last
  · exact before start earlier

/-- Where an entry can be in a log with a new last entry. -/
theorem concat_eq_append_cons {l before after : List α} {e x : α}
    (split : l ++ [e] = before ++ x :: after) :
    (after = [] ∧ x = e ∧ l = before) ∨
      ∃ middle, after = middle ++ [e] ∧ l = before ++ x :: middle := by
  rcases List.eq_nil_or_concat' after with rfl | ⟨middle, last, rfl⟩
  · obtain ⟨same, entry⟩ := List.append_inj' split rfl
    exact Or.inl ⟨rfl, (List.singleton_inj.mp entry).symm, same⟩
  · rw [← List.cons_append, ← List.append_assoc] at split
    obtain ⟨same, entry⟩ := List.append_inj' split rfl
    exact Or.inr ⟨middle, by rw [List.singleton_inj.mp entry], same⟩

end EventLog
