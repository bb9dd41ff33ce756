import Mathlib.Data.List.AList

set_option autoImplicit false

/- Maps changed by a list of insertions or deletions. A later insertion replaces an earlier
one for the same key. -/
namespace Inserts

variable {κ ν : Type} [DecidableEq κ]

def insertAll (m : AList fun _ : κ => ν) (pairs : List (κ × ν)) : AList fun _ : κ => ν :=
  pairs.foldl (fun m kv => m.insert kv.1 kv.2) m

@[simp] theorem insertAll_nil (m : AList fun _ : κ => ν) : insertAll m [] = m := rfl

@[simp] theorem insertAll_cons (m : AList fun _ : κ => ν) (k : κ) (v : ν) (rest : List (κ × ν)) :
    insertAll m ((k, v) :: rest) = insertAll (m.insert k v) rest := rfl

theorem insertAll_append (m : AList fun _ : κ => ν) (left right : List (κ × ν)) :
    insertAll m (left ++ right) = insertAll (insertAll m left) right :=
  List.foldl_append

theorem mem_insertAll {m : AList fun _ : κ => ν} {pairs : List (κ × ν)} {k : κ} :
    k ∈ insertAll m pairs ↔ k ∈ m ∨ k ∈ pairs.map Prod.fst := by
  induction pairs generalizing m with
  | nil => simp
  | cons kv rest ih =>
      obtain ⟨k', v⟩ := kv
      rw [insertAll_cons, ih, AList.mem_insert, List.map_cons, List.mem_cons]
      tauto

/-- A value comes from the map before or from one of the insertions. -/
theorem mem_of_lookup_insertAll {m : AList fun _ : κ => ν} {pairs : List (κ × ν)} {k : κ} {v : ν}
    (found : (insertAll m pairs).lookup k = some v) : m.lookup k = some v ∨ (k, v) ∈ pairs := by
  induction pairs generalizing m with
  | nil => exact Or.inl found
  | cons kv rest ih =>
      obtain ⟨k', v'⟩ := kv
      rcases ih found with old | later
      · by_cases same : k = k'
        · subst same
          rw [AList.lookup_insert] at old
          obtain rfl : v' = v := Option.some.inj old
          exact Or.inr List.mem_cons_self
        · exact Or.inl (by rwa [AList.lookup_insert_ne same] at old)
      · exact Or.inr (List.mem_cons_of_mem _ later)

/-- With one insertion a key, the map holds exactly the pairs. -/
theorem lookup_insertAll_empty {pairs : List (κ × ν)} (distinct : (pairs.map Prod.fst).Nodup)
    {k : κ} {v : ν} :
    (insertAll (∅ : AList fun _ : κ => ν) pairs).lookup k = some v ↔ (k, v) ∈ pairs := by
  constructor
  · intro found
    rcases mem_of_lookup_insertAll found with old | mem
    · rw [AList.lookup_empty] at old
      cases old
    · exact mem
  · intro mem
    have present : k ∈ insertAll (∅ : AList fun _ : κ => ν) pairs :=
      mem_insertAll.mpr (Or.inr (List.mem_map_of_mem (f := Prod.fst) mem))
    obtain ⟨v', found⟩ := Option.isSome_iff_exists.mp (AList.lookup_isSome.mpr present)
    rcases mem_of_lookup_insertAll found with old | mem'
    · rw [AList.lookup_empty] at old
      cases old
    · have same := List.inj_on_of_nodup_map distinct mem mem' rfl
      rw [found, (Prod.mk.inj same).2]

theorem lookup_eraseAll (m : AList fun _ : κ => ν) (keys : List κ) (k : κ) :
    (keys.foldl (fun m key => m.erase key) m).lookup k =
      if k ∈ keys then none else m.lookup k := by
  induction keys generalizing m with
  | nil => simp
  | cons first rest ih =>
      rw [List.foldl_cons, ih]
      by_cases later : k ∈ rest
      · simp [later]
      · by_cases same : k = first
        · subst same
          simp [later, AList.lookup_erase]
        · simp [later, same, AList.lookup_erase_ne same]

theorem mem_eraseAll {m : AList fun _ : κ => ν} {keys : List κ} {k : κ} :
    k ∈ keys.foldl (fun m key => m.erase key) m ↔ k ∈ m ∧ k ∉ keys := by
  rw [← AList.lookup_isSome, ← AList.lookup_isSome, lookup_eraseAll]
  by_cases gone : k ∈ keys <;> simp [gone]

end Inserts
