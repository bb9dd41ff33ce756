import Warpstream.Lib.Program

set_option autoImplicit false

/- Invariants of threads that share a state. Each thread keeps an invariant of the state and
changes it only in the way `Grows` allows. What it knows at a point of its program must
survive every such change, so the other threads cannot take it away. -/
namespace RelyGuarantee

variable {σ Op In α β : Type} {Ret : Op → Type}

/-- An assertion that no thread can make false. -/
def Stable (Grows : σ → σ → Prop) (P : σ → Prop) : Prop := ∀ s s', P s → Grows s s' → P s'

/-- A program that, started where `P` holds, keeps the invariant and its part of the
guarantee. -/
def Safe (handle : (o : Op) → In → σ → Option (Ret o × σ)) (Inv : σ → Prop)
    (Grows : σ → σ → Prop) : Program Op Ret α → (σ → Prop) → Prop
  | .ret _, _ => True
  | .op o next, P => ∀ s input r s', Inv s → P s → handle o input s = some (r, s') →
      Inv s' ∧ Grows s s' ∧
        ∃ Q, Stable Grows Q ∧ Q s' ∧ Safe handle Inv Grows (next r) Q

/-- The invariant holds, and every thread is at a point where what it knows holds. -/
structure Threaded (handle : (o : Op) → In → σ → Option (Ret o × σ)) (Inv : σ → Prop)
    (Grows : σ → σ → Prop) (s : Threads σ Op Ret α) : Prop where
  inv : Inv s.shared
  threads : ∀ p ∈ s.programs, ∃ P, Stable Grows P ∧ P s.shared ∧ Safe handle Inv Grows p P

variable {handle : (o : Op) → In → σ → Option (Ret o × σ)} {Inv : σ → Prop}
  {Grows : σ → σ → Prop} {s s' : Threads σ Op Ret α}

theorem Threaded.start (threaded : Threaded handle Inv Grows s) {p : Program Op Ret α}
    (safe : Safe handle Inv Grows p fun _ => True) : Threaded handle Inv Grows (s.start p) := by
  refine ⟨threaded.inv, fun q mem => ?_⟩
  rcases List.mem_append.mp mem with old | new
  · exact threaded.threads q old
  · rw [List.mem_singleton.mp new]
    exact ⟨fun _ => True, fun _ _ _ _ => trivial, trivial, safe⟩

theorem Threaded.run (threaded : Threaded handle Inv Grows s) {i : Nat} {input : In}
    (ran : s.run handle i input = some s') : Threaded handle Inv Grows s' := by
  obtain ⟨o, next, ⟨r, shared⟩, found, handled, rfl⟩ := Threads.run_eq_some ran
  obtain ⟨P, -, holds, safe⟩ := threaded.threads _ (List.mem_of_getElem? found)
  obtain ⟨inv, grows, Q, stable, now, later⟩ := safe _ _ _ _ threaded.inv holds handled
  refine ⟨inv, fun p mem => ?_⟩
  rcases List.mem_or_eq_of_mem_set mem with old | rfl
  · obtain ⟨P', stable', holds', safe'⟩ := threaded.threads p old
    exact ⟨P', stable', stable' _ _ holds' grows, safe'⟩
  · exact ⟨Q, stable, now, later⟩

end RelyGuarantee
