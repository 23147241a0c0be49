import Mathlib

/-!
# Machines in lockstep

Two machines reading the same stream, of which the states are to stay related.
`Lockstep` says for which symbols they do, from two related states, and
`Lockstep.forall_prefix_iff` for which streams, after every symbol.
-/

namespace Streams

variable {σ τ α : Type*}

/-- Two machines, given by their steps `f` and `g`, of which a step from related states ends
    in related states exactly if the symbol is accepted. What is needed besides is an
    invariant of accepted steps. -/
structure Lockstep (f : σ → α → σ) (g : τ → α → τ) (R Inv : σ → τ → Prop)
    (Accepts : σ → α → Prop) : Prop where
  related_iff : ∀ {s t} a, R s t → Inv s t → (R (f s a) (g t a) ↔ Accepts s a)
  inv : ∀ {s t} a, R s t → Inv s t → Accepts s a → Inv (f s a) (g t a)

variable {f : σ → α → σ} {g : τ → α → τ} {R Inv : σ → τ → Prop} {Accepts : σ → α → Prop}

/-- The states stay related exactly as long as every symbol is accepted. -/
theorem Lockstep.forall_prefix_iff (h : Lockstep f g R Inv Accepts) {s : σ} {t : τ} (hR : R s t)
    (hInv : Inv s t) (xs : List α) :
    (∀ ys, ys <+: xs → R (ys.foldl f s) (ys.foldl g t)) ↔
      ∀ ys a, ys ++ [a] <+: xs → Accepts (ys.foldl f s) a := by
  induction xs generalizing s t with
  | nil =>
    constructor
    · intro _ ys a hys
      simp at hys
    · intro _ ys hys
      rw [List.prefix_nil.1 hys]
      exact hR
  | cons x xs ih =>
    constructor
    · -- A symbol is accepted as the states are related after it.
      intro hrel
      have hx : Accepts s x := (h.related_iff x hR hInv).1 (hrel [x] (by simp))
      have hrest := (ih ((h.related_iff x hR hInv).2 hx) (h.inv x hR hInv hx)).1
        fun ys hys => hrel (x :: ys) ((List.prefix_cons_inj x).2 hys)
      intro ys a hys
      cases ys with
      | nil =>
        obtain rfl : a = x := by simpa using hys
        exact hx
      | cons y ys =>
        obtain ⟨rfl, htail⟩ := List.cons_prefix_cons.1 hys
        exact hrest ys a htail
    · -- The first symbol is accepted, and so the next ones can be compared.
      intro hacc
      have hx : Accepts s x := hacc [] x (by simp)
      have hrest := (ih ((h.related_iff x hR hInv).2 hx) (h.inv x hR hInv hx)).2
        fun ys a hys => hacc (x :: ys) a ((List.prefix_cons_inj x).2 hys)
      intro ys hys
      cases ys with
      | nil => exact hR
      | cons y ys =>
        obtain ⟨rfl, htail⟩ := List.cons_prefix_cons.1 hys
        exact hrest ys htail

end Streams
