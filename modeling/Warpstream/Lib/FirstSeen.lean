import Mathlib.Data.List.Induction
import Mathlib.Data.List.Perm.Basic
import Mathlib.Data.List.Nodup

set_option autoImplicit false

/- Grouping a list by a key. The groups stand in the order in which their keys
are first seen and keep their members in list order: a slice of keys and a map
from key to members, kept together. -/
namespace FirstSeen

variable {α κ : Type} [DecidableEq κ]

/-- Add one element to its group, a new one at the end if the key is new. -/
def push (key : α → κ) (a : α) : List (κ × List α) → List (κ × List α)
  | [] => [(key a, [a])]
  | (k, members) :: rest =>
      if k = key a then (k, members ++ [a]) :: rest else (k, members) :: push key a rest

def groupBy (key : α → κ) (xs : List α) : List (κ × List α) :=
  xs.foldl (fun groups a => push key a groups) []

/-- The groups hold exactly `xs`, one non-empty group a key. -/
structure Groups (key : α → κ) (xs : List α) (groups : List (κ × List α)) : Prop where
  nodup : (groups.map Prod.fst).Nodup
  members : ∀ k ms, (k, ms) ∈ groups → ms = xs.filter (fun x => key x = k)
  nonempty : ∀ k ms, (k, ms) ∈ groups → ms ≠ []
  covers : ∀ x ∈ xs, key x ∈ groups.map Prod.fst

theorem mem_keys_push (key : α → κ) (a : α) (groups : List (κ × List α)) (k : κ) :
    k ∈ (push key a groups).map Prod.fst ↔ k ∈ groups.map Prod.fst ∨ k = key a := by
  induction groups with
  | nil => simp [push]
  | cons g rest ih =>
      obtain ⟨k', ms⟩ := g
      by_cases same : k' = key a
      · simp only [push, same, ↓reduceIte, List.map_cons, List.mem_cons]
        tauto
      · simp only [push, same, ↓reduceIte, List.map_cons, List.mem_cons, ih]
        tauto

theorem nodup_push (key : α → κ) (a : α) (groups : List (κ × List α))
    (distinct : (groups.map Prod.fst).Nodup) : ((push key a groups).map Prod.fst).Nodup := by
  induction groups with
  | nil => simp [push]
  | cons g rest ih =>
      obtain ⟨k', ms⟩ := g
      obtain ⟨fresh, tail⟩ := List.nodup_cons.mp distinct
      by_cases same : k' = key a
      · simpa only [push, same, ↓reduceIte, List.map_cons] using distinct
      · simp only [push, same, ↓reduceIte, List.map_cons, List.nodup_cons, mem_keys_push, not_or,
          not_false_eq_true, and_true]
        exact ⟨fresh, ih tail⟩

theorem mem_push {key : α → κ} {a : α} {groups : List (κ × List α)} {k : κ} {ms : List α}
    (distinct : (groups.map Prod.fst).Nodup) (mem : (k, ms) ∈ push key a groups) :
    ((k, ms) ∈ groups ∧ k ≠ key a) ∨
      (k = key a ∧ ∃ old, ms = old ++ [a] ∧
        ((k, old) ∈ groups ∨ old = [] ∧ k ∉ groups.map Prod.fst)) := by
  induction groups with
  | nil =>
      simp only [push, List.mem_singleton, Prod.mk.injEq] at mem
      exact Or.inr ⟨mem.1, [], by simpa using mem.2, Or.inr ⟨rfl, by simp⟩⟩
  | cons g rest ih =>
      obtain ⟨k', ms'⟩ := g
      obtain ⟨fresh, tail⟩ := List.nodup_cons.mp distinct
      by_cases same : k' = key a
      · simp only [push, same, ↓reduceIte, List.mem_cons, Prod.mk.injEq] at mem
        rcases mem with ⟨rfl, rfl⟩ | later
        · exact Or.inr ⟨rfl, ms', rfl, Or.inl (by simp [same])⟩
        · refine Or.inl ⟨List.mem_cons_of_mem _ later, ?_⟩
          intro found
          exact fresh (List.mem_map.mpr ⟨(k, ms), later, found.trans same.symm⟩)
      · simp only [push, same, ↓reduceIte, List.mem_cons, Prod.mk.injEq] at mem
        rcases mem with ⟨rfl, rfl⟩ | later
        · exact Or.inl ⟨by simp, same⟩
        · rcases ih tail later with ⟨old, other⟩ | ⟨found, old, grown, place⟩
          · exact Or.inl ⟨List.mem_cons_of_mem _ old, other⟩
          · refine Or.inr ⟨found, old, grown, ?_⟩
            rcases place with inside | ⟨new, absent⟩
            · exact Or.inl (List.mem_cons_of_mem _ inside)
            · refine Or.inr ⟨new, ?_⟩
              simp only [List.map_cons, List.mem_cons, not_or]
              exact ⟨fun first => same (first ▸ found), absent⟩

/-- Pushing an element extends what the groups hold by it. -/
theorem Groups.push {key : α → κ} {xs : List α} {groups : List (κ × List α)}
    (held : Groups key xs groups) (a : α) : Groups key (xs ++ [a]) (push key a groups) := by
  refine ⟨nodup_push key a groups held.nodup, ?_, ?_, ?_⟩
  · intro k ms mem
    rw [List.filter_append]
    rcases mem_push held.nodup mem with ⟨old, other⟩ | ⟨rfl, old, rfl, inside | ⟨rfl, absent⟩⟩
    · simp [held.members k ms old, Ne.symm other]
    · simp [held.members _ old inside]
    · have none : xs.filter (fun x => key x = key a) = [] := by
        rw [List.filter_eq_nil_iff]
        intro x mem same
        exact absent (of_decide_eq_true same ▸ held.covers x mem)
      simp [none]
  · intro k ms mem
    rcases mem_push held.nodup mem with ⟨old, -⟩ | ⟨-, old, rfl, -⟩
    · exact held.nonempty k ms old
    · simp
  · intro x mem
    rw [mem_keys_push]
    rcases List.mem_append.mp mem with old | new
    · exact Or.inl (held.covers x old)
    · exact Or.inr (by rw [List.mem_singleton.mp new])

theorem groups_foldl {key : α → κ} {held : List α} {groups : List (κ × List α)}
    (start : Groups key held groups) (xs : List α) :
    Groups key (held ++ xs) (xs.foldl (fun groups a => push key a groups) groups) := by
  induction xs generalizing held groups with
  | nil => simpa using start
  | cons a rest ih =>
      have next := ih (start.push a)
      rwa [List.append_assoc] at next

theorem groups_groupBy (key : α → κ) (xs : List α) : Groups key xs (groupBy key xs) := by
  have start : Groups key ([] : List α) [] := ⟨by simp, by simp, by simp, by simp⟩
  exact groups_foldl start xs

theorem length_push_le (key : α → κ) (a : α) (groups : List (κ × List α)) :
    (push key a groups).length ≤ groups.length + 1 := by
  induction groups with
  | nil => simp [push]
  | cons g rest ih =>
      by_cases same : g.1 = key a
      · simp [push, same]
      · simpa [push, same] using ih

theorem length_groupBy_le (key : α → κ) (xs : List α) : (groupBy key xs).length ≤ xs.length := by
  have all (groups : List (κ × List α)) :
      (xs.foldl (fun groups a => push key a groups) groups).length ≤ groups.length + xs.length := by
    induction xs generalizing groups with
    | nil => simp
    | cons a rest ih =>
        have pushed := length_push_le key a groups
        have folded := ih (push key a groups)
        rw [List.foldl_cons, List.length_cons]
        omega
  simpa [groupBy] using all []

theorem flatMap_push_perm (key : α → κ) (a : α) (groups : List (κ × List α)) :
    ((push key a groups).flatMap Prod.snd).Perm (groups.flatMap Prod.snd ++ [a]) := by
  induction groups with
  | nil => simp [push]
  | cons g rest ih =>
      obtain ⟨k', ms⟩ := g
      by_cases same : k' = key a
      · simp only [push, same, ↓reduceIte, List.flatMap_cons, List.append_assoc]
        exact (List.perm_append_comm).append_left ms
      · simp only [push, same, ↓reduceIte, List.flatMap_cons, List.append_assoc]
        exact ih.append_left ms

theorem filter_push {key : α → κ} (a : α) {groups : List (κ × List α)} (k : κ)
    (distinct : (groups.map Prod.fst).Nodup) :
    ((push key a groups).filter (fun g => g.1 = k)).flatMap Prod.snd =
      (groups.filter (fun g => g.1 = k)).flatMap Prod.snd ++ if key a = k then [a] else [] := by
  induction groups with
  | nil => by_cases here : key a = k <;> simp [push, here]
  | cons g rest ih =>
      obtain ⟨k', ms⟩ := g
      obtain ⟨fresh, tail⟩ := List.nodup_cons.mp distinct
      by_cases same : k' = key a
      · by_cases here : k' = k
        · have only : rest.filter (fun g => g.1 = k) = [] := by
            rw [List.filter_eq_nil_iff]
            intro g mem found
            exact fresh (List.mem_map.mpr ⟨g, mem, (of_decide_eq_true found).trans here.symm⟩)
          simp [push, ← same, here, only]
        · simp [push, ← same, here]
      · by_cases here : k' = k
        · have other : key a ≠ k := fun found => same (here.trans found.symm)
          simp [push, here, other, Ne.symm other, ih tail]
        · simp [push, same, here, ih tail]

/-- The group of a key holds the elements with that key, in list order. -/
theorem filter_groupBy (key : α → κ) (xs : List α) (k : κ) :
    ((groupBy key xs).filter (fun g => g.1 = k)).flatMap Prod.snd =
      xs.filter (fun x => key x = k) := by
  have all (groups : List (κ × List α)) (distinct : (groups.map Prod.fst).Nodup) :
      ((xs.foldl (fun groups a => push key a groups) groups).filter (fun g => g.1 = k)).flatMap
          Prod.snd =
        (groups.filter (fun g => g.1 = k)).flatMap Prod.snd ++ xs.filter (fun x => key x = k) := by
    induction xs generalizing groups with
    | nil => simp
    | cons a rest ih =>
        rw [List.foldl_cons, ih _ (nodup_push key a groups distinct), filter_push a k distinct,
          List.append_assoc]
        by_cases here : key a = k <;> simp [here]
  exact all [] (by simp)

theorem keys_push (key : α → κ) (a : α) (groups : List (κ × List α)) :
    (push key a groups).map Prod.fst =
      if key a ∈ groups.map Prod.fst then groups.map Prod.fst
      else groups.map Prod.fst ++ [key a] := by
  induction groups with
  | nil => simp [push]
  | cons g rest ih =>
      obtain ⟨k', ms⟩ := g
      by_cases same : k' = key a
      · simp [push, same]
      · simp only [push, same, ↓reduceIte, List.map_cons, ih, List.mem_cons, Ne.symm same, false_or]
        split <;> rfl

theorem groupBy_concat (key : α → κ) (xs : List α) (a : α) :
    groupBy key (xs ++ [a]) = push key a (groupBy key xs) := by
  rw [groupBy, List.foldl_append]
  rfl

theorem eraseDups_concat (ks : List κ) (k : κ) :
    (ks ++ [k]).eraseDups = if k ∈ ks then ks.eraseDups else ks.eraseDups ++ [k] := by
  rw [List.eraseDups_append]
  by_cases seen : k ∈ ks
  · simp [List.removeAll, seen]
  · simp [List.removeAll, seen, List.eraseDups_cons]

/-- The groups stand in the order in which their keys are first seen. -/
theorem keys_groupBy (key : α → κ) (xs : List α) :
    (groupBy key xs).map Prod.fst = (xs.map key).eraseDups := by
  induction xs using List.reverseRecOn with
  | nil => rfl
  | append_singleton xs a ih =>
      rw [groupBy_concat, keys_push, ih, List.map_append, List.map_singleton, eraseDups_concat]
      simp only [List.mem_eraseDups]

/-- One group for each key in the order they are first seen, with its elements in list order. -/
theorem groupBy_eq (key : α → κ) (xs : List α) :
    groupBy key xs = (xs.map key).eraseDups.map fun k => (k, xs.filter fun x => key x = k) := by
  rw [← keys_groupBy, List.map_map]
  refine (List.map_id _).symm.trans (List.map_congr_left ?_)
  rintro ⟨k, members⟩ group
  rw [(groups_groupBy key xs).members k members group]
  rfl

/-- Grouping loses and duplicates nothing. -/
theorem flatMap_groupBy_perm (key : α → κ) (xs : List α) :
    ((groupBy key xs).flatMap Prod.snd).Perm xs := by
  have all (groups : List (κ × List α)) :
      ((xs.foldl (fun groups a => push key a groups) groups).flatMap Prod.snd).Perm
        (groups.flatMap Prod.snd ++ xs) := by
    induction xs generalizing groups with
    | nil => simp
    | cons a rest ih =>
        refine (ih _).trans ?_
        have moved := (flatMap_push_perm key a groups).append_right rest
        rwa [List.append_assoc] at moved
  exact all []

end FirstSeen
