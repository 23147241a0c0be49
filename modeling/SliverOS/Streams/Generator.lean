import Mathlib

/-!
# Generators

A generator is a machine without input: each step gives an item and the next state. Its
runs are observed by the items they give, one at each step (`Generator.item`).

* `item_eq_of_view`: a generator of which every step is that of another one, in some view of
  its state, gives the same items;
* `exists_first`: one that gets closer to some items with every other item gives one of them,
  and first after as many steps as it was away;
* `item_of_le`: what is given again and again once it is given, is given from then on.
-/

namespace Streams

/-- A machine without input: the item it gives at a step, and its next state. -/
abbrev Generator (σ β : Type*) := σ → β × σ

namespace Generator

variable {σ τ β : Type*} (g : Generator σ β)

/-- The state after `n` steps. -/
def state (s : σ) (n : ℕ) : σ := (fun s => (g s).2)^[n] s

/-- The item given after `n` others. -/
def item (s : σ) (n : ℕ) : β := (g (g.state s n)).1

theorem state_succ (s : σ) (n : ℕ) : g.state s (n + 1) = (g (g.state s n)).2 :=
  Function.iterate_succ_apply' _ n s

@[simp] theorem item_zero (s : σ) : g.item s 0 = (g s).1 := rfl

theorem item_succ (s : σ) (n : ℕ) : g.item s (n + 1) = g.item (g s).2 n := rfl

variable {g}

/-- The items do not depend on what the view of the state leaves out. -/
theorem item_eq_of_view {h : Generator τ β} (view : σ → τ)
    (hview : ∀ s, h (view s) = ((g s).1, view (g s).2)) (s : σ) (n : ℕ) :
    h.item (view s) n = g.item s n := by
  induction n generalizing s with
  | zero => rw [item_zero, item_zero, hview]
  | succ n ih => rw [item_succ, item_succ, hview, ih]

/-- An item with `Q` is given, and before the first of them there are not more other items than
    the measure of the state. -/
theorem exists_first {Q : β → Prop} (measure : σ → ℕ)
    (hstep : ∀ s, ¬Q (g s).1 → measure (g s).2 < measure s) (s : σ) :
    ∃ n ≤ measure s, Q (g.item s n) ∧ ∀ k < n, ¬Q (g.item s k) := by
  -- By induction on the measure.
  induction hm : measure s using Nat.strongRecOn generalizing s with
  | ind m ih =>
    subst hm
    by_cases hQ : Q (g s).1
    · exact ⟨0, Nat.zero_le _, hQ, nofun⟩
    obtain ⟨n, hn, hitem, hbefore⟩ := ih _ (hstep s hQ) (g s).2 rfl
    refine ⟨n + 1, Nat.succ_le_of_lt (Nat.lt_of_le_of_lt hn (hstep s hQ)), hitem, ?_⟩
    intro k hk
    cases k with
    | zero => exact hQ
    | succ k => exact hbefore k (Nat.lt_of_succ_lt_succ hk)

/-- Items with `Q` are given from the first one on. -/
theorem item_of_le {Q : β → Prop} (hstep : ∀ s, Q (g s).1 → Q (g (g s).2).1) {s : σ} {n k : ℕ}
    (hn : Q (g.item s n)) (hk : n ≤ k) : Q (g.item s k) := by
  induction k, hk using Nat.le_induction with
  | base => exact hn
  | succ k _ ih =>
    rw [item, state_succ]
    exact hstep _ ih

end Generator

end Streams
