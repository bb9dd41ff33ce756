import Mathlib.Data.List.Rotate

set_option autoImplicit false

/- Rotations of a list from which one element is left out. -/
namespace Rotation

/-- Where a rotation of `n + 1` elements by `h` starts among the `n` that remain without the
one at position `p`. -/
def startWithout (n p h : Nat) : Nat :=
  if h % (n + 1) ≤ p then h % (n + 1) else h % (n + 1) - 1

variable {α : Type} [DecidableEq α]

theorem erase_rotate {l : List α} {x : α} (distinct : l.Nodup) (mem : x ∈ l) (h : Nat) :
    (l.rotate h).erase x =
      (l.erase x).rotate (startWithout (l.length - 1) (l.idxOf x) h) := by
  obtain ⟨before, after, rfl⟩ := List.append_of_mem mem
  have notBefore : x ∉ before := fun inside =>
    (List.nodup_append.mp distinct).2.2 x inside x List.mem_cons_self rfl
  have notAfter : x ∉ after := (List.nodup_cons.mp (List.nodup_append.mp distinct).2.1).1
  have length : (before ++ x :: after).length = before.length + after.length + 1 := by
    rw [List.length_append, List.length_cons]
    omega
  have position : (before ++ x :: after).idxOf x = before.length := by
    rw [List.idxOf_append_of_notMem notBefore, List.idxOf_cons_self, Nat.add_zero]
  have rest : (before ++ x :: after).erase x = before ++ after := by
    rw [List.erase_append_right _ notBefore, List.erase_cons_head]
  have bound := Nat.mod_lt h (Nat.succ_pos (before.length + after.length))
  have rotated : (before ++ x :: after).rotate h =
      (before ++ x :: after).drop (h % (before.length + after.length + 1)) ++
        (before ++ x :: after).take (h % (before.length + after.length + 1)) := by
    rw [← length, List.rotate_eq_drop_append_take_mod]
  rw [rotated, rest, position, length, Nat.add_sub_cancel, startWithout]
  generalize h % (before.length + after.length + 1) = start at bound
  by_cases early : start ≤ before.length
  · have notDropped : x ∉ before.drop start := fun inside => notBefore (List.mem_of_mem_drop inside)
    rw [if_pos early, List.rotate_eq_drop_append_take (by rw [List.length_append]; omega),
      List.drop_append_of_le_length early, List.take_append_of_le_length early,
      List.drop_append_of_le_length early, List.take_append_of_le_length early, List.append_assoc,
      List.erase_append_right _ notDropped, List.cons_append, List.erase_cons_head,
      List.append_assoc]
  · -- The element left out stands before the start.
    obtain ⟨k, rfl⟩ : ∃ k, start = before.length + (k + 1) := ⟨start - before.length - 1, by omega⟩
    have notDropped : x ∉ after.drop k := fun inside => notAfter (List.mem_of_mem_drop inside)
    rw [if_neg early, show before.length + (k + 1) - 1 = before.length + k by omega,
      List.rotate_eq_drop_append_take (by rw [List.length_append]; omega),
      List.drop_length_add_append, List.take_length_add_append, List.drop_length_add_append,
      List.take_length_add_append, List.drop_succ_cons, List.take_succ_cons,
      List.erase_append_right _ notDropped, List.erase_append_right _ notBefore,
      List.erase_cons_head]

/-- Leaving out an element of a rotation gives a rotation of what remains, by `h'` exactly
when both start at the same element. -/
theorem erase_rotate_eq_iff {l : List α} {x : α} (distinct : l.Nodup) (mem : x ∈ l) (h h' : Nat) :
    (l.rotate h).erase x = (l.erase x).rotate h' ↔
      l.length - 1 = 0 ∨
        h' % (l.length - 1) = startWithout (l.length - 1) (l.idxOf x) h % (l.length - 1) := by
  rw [erase_rotate distinct mem, (distinct.erase x).rotate_congr_iff, List.length_erase_of_mem mem,
    ← List.length_eq_zero_iff, List.length_erase_of_mem mem, or_comm, eq_comm (a := h' % _)]

end Rotation
