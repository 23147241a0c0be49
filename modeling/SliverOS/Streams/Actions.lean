import Mathlib

/-!
# Actions

Actions on a state that may fail (`EStateM`): what a sequence of two of them does, a failure that
is caught, and what is done at the end in any case. Actions done for the items of a list stop at
the first one that fails (`forM_append_cons_of_error`).
-/

namespace Streams

universe u v

variable {ε σ α β : Type u} {x : EStateM ε σ α} {f : α → EStateM ε σ β} {s s' s'' : σ} {a : α}
  {b : β} {e : ε}

theorem bind_of_ok (h : x s = .ok a s') : (x >>= f) s = f a s' := by
  change EStateM.bind x f s = _
  rw [EStateM.bind, h]

theorem bind_of_error (h : x s = .error e s') : (x >>= f) s = .error e s' := by
  change EStateM.bind x f s = _
  rw [EStateM.bind, h]

/-- A sequence of two steps returns if both of them do. -/
theorem bind_eq_ok_iff : (x >>= f) s = .ok b s'' ↔ ∃ a s', x s = .ok a s' ∧ f a s' = .ok b s'' := by
  cases hx : x s with
  | ok a s' => simp [bind_of_ok hx]
  | error e s' => simp [bind_of_error hx]

theorem tryCatch_of_ok (h : x s = .ok a s') (g : ε → EStateM ε σ α) :
    tryCatch x g s = .ok a s' := by
  change EStateM.tryCatch x g s = _
  rw [EStateM.tryCatch, h]

theorem tryCatch_of_error (h : x s = .error e s') (g : ε → EStateM ε σ α) :
    tryCatch x g s = g e s' := by
  change EStateM.tryCatch x g s = _
  rw [EStateM.tryCatch, h]
  rfl

/-! ## At the end -/

variable {g : σ → σ}

theorem tryFinally_of_ok (h : x s = .ok a s') :
    tryFinally x (modify g : EStateM ε σ PUnit) s = .ok a (g s') := by
  simp only [tryFinally, tryFinally', Functor.map, EStateM.map, h]
  rfl

theorem tryFinally_of_error (h : x s = .error e s') :
    tryFinally x (modify g : EStateM ε σ PUnit) s = .error e (g s') := by
  simp only [tryFinally, tryFinally', Functor.map, EStateM.map, h]
  rfl

/-! ## Lists -/

variable {ι : Type v} {act : ι → EStateM ε σ PUnit} {is js : List ι} {i : ι}

theorem forM_append_of_ok (h : forM is act s = .ok ⟨⟩ s') :
    forM (is ++ js) act s = forM js act s' := by
  rw [List.forM_append]
  exact bind_of_ok h

/-- What comes after an item that fails is not done. -/
theorem forM_append_cons_of_error (h : forM is act s = .ok ⟨⟩ s') (hi : act i s' = .error e s'') :
    forM (is ++ i :: js) act s = .error e s'' :=
  (forM_append_of_ok h).trans (bind_of_error hi)

end Streams
