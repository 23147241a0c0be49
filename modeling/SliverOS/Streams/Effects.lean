import SliverOS.Streams.Actions

/-!
# What actions do to a state

Actions on a state that may fail (`EStateM`), and what is true of the state after them in any case.
An action *keeps to* a preorder on the states (`Does`) if the state after it is related to the one
before. As the relation is a preorder, so do sequences of such actions, failures that are caught,
and loops.

* `Appends`: the preorder of an output that only grows, by items of some kind.
-/

namespace Streams

universe u v

variable {ε σ α β : Type u} {R R' : σ → σ → Prop} {x : EStateM ε σ α} {f : α → EStateM ε σ β}
  {s s' : σ} {a : α} {e : ε}

/-- The state after an action, whether it returns or fails. -/
def final (x : EStateM ε σ α) (s : σ) : σ :=
  match x s with
  | .ok _ s' => s'
  | .error _ s' => s'

theorem final_of_ok (h : x s = .ok a s') : final x s = s' := by
  rw [final, h]

theorem final_of_error (h : x s = .error e s') : final x s = s' := by
  rw [final, h]

theorem final_bind_of_ok (h : x s = .ok a s') : final (x >>= f) s = final (f a) s' := by
  rw [final, bind_of_ok h, final]

theorem final_bind_of_error (h : x s = .error e s') : final (x >>= f) s = s' :=
  final_of_error (bind_of_error h)

theorem tryCatch_eq_ok_iff {g : ε → EStateM ε σ α} :
    tryCatch x g s = .ok a s' ↔ x s = .ok a s' ∨ ∃ e r, x s = .error e r ∧ g e r = .ok a s' := by
  cases hx : x s with
  | ok b r => simp [tryCatch_of_ok hx]
  | error e r => simp [tryCatch_of_error hx]

theorem unless_eq_ok_iff {p : Prop} [Decidable p] :
    (if p then (throw e : EStateM ε σ PUnit) >>= fun _ => x else x) s = .ok a s' ↔
      ¬p ∧ x s = .ok a s' := by
  by_cases hp : p
  · rw [if_pos hp]
    refine iff_of_false ?_ fun h => h.1 hp
    intro h
    cases h
  · rw [if_neg hp]
    exact (and_iff_right hp).symm

/-- The state after an action is related to the state before it. -/
def Does (R : σ → σ → Prop) (x : EStateM ε σ α) : Prop := ∀ s, R s (final x s)

theorem Does.mono (h : Does R x) (hR : ∀ s s', R s s' → R' s s') : Does R' x :=
  fun s => hR _ _ (h s)

theorem Does.of_ok (h : Does R x) (hx : x s = .ok a s') : R s s' := final_of_ok hx ▸ h s

theorem Does.ite {y : EStateM ε σ α} {p : Prop} [Decidable p] (hx : p → Does R x)
    (hy : ¬p → Does R y) : Does R (if p then x else y) := by
  split_ifs with hp
  · exact hx hp
  · exact hy hp

variable [IsPreorder σ R]

theorem does_pure (a : α) : Does R (pure a : EStateM ε σ α) := fun s => refl s

theorem does_throw (e : ε) : Does R (throw e : EStateM ε σ α) := fun s => refl s

/-- What is done after an action is done to the state that it leaves. -/
theorem related_final_bind (h : ∀ a, Does R (f a)) (x : EStateM ε σ α) (s : σ) :
    R (final x s) (final (x >>= f) s) := by
  cases hx : x s with
  | ok a s' =>
    rw [final_of_ok hx, final_bind_of_ok hx]
    exact h a s'
  | error e s' =>
    rw [final_of_error hx, final_bind_of_error hx]
    exact refl s'

theorem Does.bind (h : Does R x) (hf : ∀ a, Does R (f a)) : Does R (x >>= f) :=
  fun s => trans_of R (h s) (related_final_bind hf x s)

theorem Does.tryCatch {g : ε → EStateM ε σ α} (h : Does R x) (hg : ∀ e, Does R (g e)) :
    Does R (tryCatch x g) := by
  intro s
  have hs := h s
  cases hx : x s with
  | ok a s' =>
    rw [final_of_ok hx] at hs
    rwa [final_of_ok (tryCatch_of_ok hx g)]
  | error e s' =>
    rw [final_of_error hx] at hs
    have hcatch : final (MonadExcept.tryCatch x g) s = final (g e) s' := by
      rw [final, tryCatch_of_error hx g, final]
    rw [hcatch]
    exact trans_of R hs (hg e s')

/-- An action that is done unless a check fails. -/
theorem Does.unless {p : Prop} [Decidable p] (h : Does R x) (e : ε) :
    Does R (if p then (throw e : EStateM ε σ PUnit) >>= fun _ => x else x) :=
  .ite (fun _ => (does_throw e).bind fun _ => h) fun _ => h

/-! ## Outputs -/

variable {γ : Type v} {out : σ → List γ} {P : γ → Prop}

/-- An output has grown, by items of some kind. -/
def Appends (out : σ → List γ) (P : γ → Prop) (s s' : σ) : Prop :=
  ∃ items, out s' = out s ++ items ∧ ∀ item ∈ items, P item

instance : IsPreorder σ (Appends out P) where
  refl _ := ⟨[], (List.append_nil _).symm, List.forall_mem_nil _⟩
  trans := by
    rintro s s' s'' ⟨items, heq, hitems⟩ ⟨items', heq', hitems'⟩
    refine ⟨items ++ items', by rw [heq', heq, List.append_assoc], fun item hitem => ?_⟩
    exact (List.mem_append.1 hitem).elim (hitems item) (hitems' item)

end Streams
