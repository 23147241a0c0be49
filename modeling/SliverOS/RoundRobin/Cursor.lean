import Mathlib

/-!
# Round robin

A cursor goes round `n` slots: from a cursor `c`, slot `i` comes after
`ahead c i` others. The first slot with a property is found by going round once
(`first`): it is the nearest one with the property (`first_eq_some_iff`).

Of two slots, `b` is *due* before `a` at a cursor from which it comes first. This
is so when the cursor was left just after `a` (`due_succ`), and as long as it is
left after slots that come before `b` (`Due.succ`). Leaving it after slot `i`
makes `a` come first exactly when `i` lies from `b` on up to `a`
(`not_due_succ_iff`): this is how a cursor shared with other parties loses the
turn of `b`.
-/

namespace RoundRobin

variable {n : ℕ}

/-- The number of slots before slot `i`, from the cursor `c` on. -/
def ahead (c i : Fin n) : ℕ := (i - c).val

/-- The first slot with a property, from the cursor `c` on. -/
def first (p : Fin n → Bool) (c : Fin n) : Option (Fin n) :=
  ((List.finRange n).map (c + ·)).find? p

/-- Slot `b` comes before slot `a`, from the cursor `c` on. -/
def Due (b a c : Fin n) : Prop := ahead c b < ahead c a

variable {p : Fin n → Bool} {a b c i : Fin n}

/-! ## Slots ahead -/

theorem ahead_lt (c i : Fin n) : ahead c i < n := (i - c).isLt

/-- Going round, a slot before the cursor comes after the last one. -/
theorem ahead_eq (c i : Fin n) :
    ahead c i = if c.val ≤ i.val then i.val - c.val else n + i.val - c.val := by
  have hc := c.isLt
  have hi := i.isLt
  change (n - c.val + i.val) % n = _
  split
  · rw [show n - c.val + i.val = n + (i.val - c.val) by omega, Nat.add_mod_left,
      Nat.mod_eq_of_lt (by omega)]
  · rw [show n - c.val + i.val = n + i.val - c.val by omega, Nat.mod_eq_of_lt (by omega)]

variable [NeZero n]

theorem val_add_one (i : Fin n) : (i + 1).val = if i.val + 1 = n then 0 else i.val + 1 := by
  have hi := i.isLt
  rw [Fin.val_add_eq_ite]
  rcases Nat.lt_or_ge 1 n with hn | hn
  · rw [Fin.val_one', Nat.mod_eq_of_lt hn]
    split <;> split <;> omega
  · obtain rfl : n = 1 := Nat.le_antisymm hn (Nat.pos_of_ne_zero (NeZero.ne n))
    simp

/-- Going as many slots on from the cursor leads to the slot. -/
theorem add_ahead (c i : Fin n) : c + ⟨ahead c i, ahead_lt c i⟩ = i :=
  add_sub_cancel c i

theorem ahead_injective (c : Fin n) : Function.Injective (ahead c) := fun i j h => by
  rw [← add_ahead c i, ← add_ahead c j]
  simp only [h]

/-! ## The first slot -/

/-- The first slot with a property is the nearest one. -/
theorem first_eq_some_iff :
    first p c = some i ↔ p i ∧ ∀ j, p j → ahead c i ≤ ahead c j := by
  have hnear {i : Fin n} (h : first p c = some i) :
      p i ∧ ∀ j, p j → ahead c i ≤ ahead c j := by
    obtain ⟨hi, k, hk, rfl, hbefore⟩ := List.find?_eq_some_iff_getElem.1 h
    refine ⟨hi, fun j hj => Nat.le_of_not_lt fun hlt => ?_⟩
    have hkn : k < n := by simpa using hk
    have hahead : ahead c (c + ⟨k, hkn⟩) = k :=
      congrArg Fin.val (add_sub_cancel_left c ⟨k, hkn⟩)
    simp only [List.getElem_map, List.getElem_finRange, Fin.cast_mk] at hlt hbefore
    rw [hahead] at hlt
    have hnot := hbefore (ahead c j) hlt
    rw [add_ahead] at hnot
    simp [hj] at hnot
  refine ⟨hnear, fun ⟨hi, hmin⟩ => ?_⟩
  cases hf : first p c with
  | none =>
    have hmem : i ∈ (List.finRange n).map (c + ·) :=
      List.mem_map.2 ⟨_, List.mem_finRange _, add_ahead c i⟩
    exact absurd hi (List.find?_eq_none.1 hf i hmem)
  | some j =>
    obtain ⟨hj, hle⟩ := hnear hf
    rw [ahead_injective c (Nat.le_antisymm (hle i hi) (hmin j hj))]

/-- There is none when no slot has the property. -/
theorem first_eq_none_iff : first p c = none ↔ ∀ i, ¬p i := by
  refine ⟨fun h i => ?_, fun h => List.find?_eq_none.2 fun i _ => h i⟩
  exact List.find?_eq_none.1 h i (List.mem_map.2 ⟨_, List.mem_finRange _, add_ahead c i⟩)

/-! ## Turns -/

/-- Just after a slot, every other one is due before it. -/
theorem due_succ (h : a ≠ b) : Due b a (a + 1) := by
  have ha := a.isLt
  have hb := b.isLt
  have hne : a.val ≠ b.val := fun hval => h (Fin.ext hval)
  simp only [Due, ahead_eq, val_add_one]
  split <;> split <;> split <;> omega

/-- A slot that is due stays so when the cursor is left after one before it. -/
theorem Due.succ (hd : Due b a c) (hi : ahead c i < ahead c b) : Due b a (i + 1) := by
  have ha := a.isLt
  have hb := b.isLt
  have hc := c.isLt
  have hilt := i.isLt
  simp only [Due, ahead_eq, val_add_one] at *
  split_ifs at * <;> omega

/-- The cursor is left where `a` comes before `b` when it is left after a slot
    from `b` on up to `a`. -/
theorem not_due_succ_iff (h : a ≠ b) : ¬Due b a (i + 1) ↔ ahead b i < ahead b a := by
  have ha := a.isLt
  have hb := b.isLt
  have hi := i.isLt
  have hne : a.val ≠ b.val := fun hval => h (Fin.ext hval)
  simp only [Due, ahead_eq, val_add_one]
  split_ifs <;> omega

end RoundRobin
