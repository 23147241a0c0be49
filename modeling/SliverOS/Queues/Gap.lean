import SliverOS.Queues.Ring

/-!
# Rings with a slot kept free

A queue kept in an array of `n` slots with a head and a tail only: it is empty when
they are the same, and so it is full already when the head is one slot before the
tail (`GapRing`). It holds `n - 1` items. The number of items is the distance of the
head from the tail, and with it the array is a ring in order (`GapRing.ok_toRing`).

Items offered one after the other are taken in as long as there is room, and the
others are lost (`GapRing.contents_offerAll`); those taken out are the first ones
(`GapRing.take_eq`).
-/

namespace Queues

variable {n : ℕ} [NeZero n] {α : Type*}

/-- A queue kept in an array with one slot free. -/
structure GapRing (n : ℕ) (α : Type*) where
  slots : Fin n → α
  head : Fin n
  tail : Fin n

namespace GapRing

/-- The ring, with the number of its items. -/
def toRing (r : GapRing n α) : Ring n α := ⟨r.slots, r.head, r.tail, (r.head - r.tail : Fin n)⟩

/-- The items, from the tail on. -/
def contents (r : GapRing n α) : List α := r.toRing.contents

/-- An item is written at the head, unless the next slot is the one at the tail. -/
def offer (r : GapRing n α) (x : α) : GapRing n α :=
  if r.head + 1 = r.tail then r
  else { r with slots := Function.update r.slots r.head x, head := r.head + 1 }

/-- Some items are offered. -/
def offerAll (r : GapRing n α) (xs : List α) : GapRing n α := xs.foldl offer r

/-- At most `k` items are taken out. -/
def take (r : GapRing n α) : ℕ → List α × GapRing n α
  | 0 => ([], r)
  | k + 1 =>
    if r.tail = r.head then ([], r)
    else
      let (xs, r') := take { r with tail := r.tail + 1 } k
      (r.slots r.tail :: xs, r')

variable {r : GapRing n α} {x : α} {xs : List α}

theorem ok_toRing (r : GapRing n α) : r.toRing.Ok where
  count_le := Nat.le_of_lt (r.head - r.tail).isLt
  head_eq := by
    refine Fin.ext ?_
    rw [val_after, toRing, ← Fin.val_add, add_sub_cancel]

@[simp] theorem length_contents (r : GapRing n α) :
    r.contents.length = (r.head - r.tail : Fin n) :=
  Ring.length_contents _

/-- There is never more than one slot less than there are. -/
theorem length_contents_le (r : GapRing n α) : r.contents.length ≤ n - 1 := by
  have hlt := (r.head - r.tail).isLt
  rw [length_contents]
  omega

/-- Distances grow by one, but for the last one. -/
theorem val_add_one {d : Fin n} (hne : d + 1 ≠ 0) : ((d + 1 : Fin n) : ℕ) = d + 1 := by
  have hlt := d.isLt
  rw [val_succ]
  refine Nat.mod_eq_of_lt (Nat.lt_of_le_of_ne hlt fun hlast => hne (Fin.ext ?_))
  rw [val_succ, hlast, Nat.mod_self]
  rfl

theorem val_eq_zero_iff {d : Fin n} : (d : ℕ) = 0 ↔ d = 0 :=
  ⟨fun h => Fin.ext h, fun h => h ▸ rfl⟩

/-- The distance of the slot after the head. -/
theorem head_add_one_sub (r : GapRing n α) : r.head + 1 - r.tail = r.head - r.tail + 1 :=
  add_sub_right_comm r.head 1 r.tail

/-- The ring is full when there is one item less than slots. -/
theorem full_iff : r.head + 1 = r.tail ↔ r.contents.length = n - 1 := by
  have hlt := (r.head - r.tail).isLt
  rw [length_contents]
  rw [← sub_eq_zero, head_add_one_sub]
  constructor
  · intro hzero
    have hval := val_eq_zero_iff.2 hzero
    rw [val_succ] at hval
    by_contra hne
    rw [Nat.mod_eq_of_lt (by omega)] at hval
    omega
  · intro hlen
    by_contra hne
    have hnext := val_add_one hne
    have hlt' := (r.head - r.tail + 1).isLt
    omega

/-- An item offered is the last one, if there is room. -/
theorem contents_offer (r : GapRing n α) (x : α) :
    (r.offer x).contents = if r.contents.length = n - 1 then r.contents else r.contents ++ [x] := by
  by_cases hfull : r.head + 1 = r.tail
  · rw [offer, if_pos hfull, if_pos (full_iff.1 hfull)]
  · have hne : r.head - r.tail + 1 ≠ 0 := by
      rwa [← head_add_one_sub, sub_ne_zero]
    have hcount : ((r.head + 1 - r.tail : Fin n) : ℕ) = (r.head - r.tail : Fin n) + 1 := by
      rw [head_add_one_sub, val_add_one hne]
    have hpush : (r.offer x).toRing = r.toRing.push x := by
      rw [offer, if_neg hfull, toRing, hcount]
      rfl
    rw [if_neg (full_iff.not.1 hfull), contents, hpush]
    exact r.ok_toRing.contents_push (r.head - r.tail).isLt x

/-- Items offered are taken in as long as there is room. -/
theorem contents_offerAll (r : GapRing n α) (xs : List α) :
    (r.offerAll xs).contents = r.contents ++ xs.take (n - 1 - r.contents.length) := by
  induction xs generalizing r with
  | nil =>
    rw [List.take_nil, List.append_nil]
    rfl
  | cons x xs ih =>
    rw [offerAll, List.foldl_cons]
    refine (ih (r.offer x)).trans ?_
    have hle := r.length_contents_le
    rw [contents_offer]
    by_cases hfull : r.contents.length = n - 1
    · rw [if_pos hfull, hfull, Nat.sub_self]
      rfl
    · obtain ⟨k, hk⟩ : ∃ k, n - 1 - r.contents.length = k + 1 :=
        Nat.exists_eq_succ_of_ne_zero (by omega)
      rw [if_neg hfull, List.length_append, List.length_singleton, hk, List.take_succ_cons,
        List.append_assoc, List.singleton_append]
      congr 3
      omega

/-- The first items are taken out. -/
theorem take_eq (r : GapRing n α) (k : ℕ) :
    (r.take k).1 = r.contents.take k ∧ (r.take k).2.contents = r.contents.drop k := by
  induction k generalizing r with
  | zero => exact ⟨rfl, rfl⟩
  | succ k ih =>
    by_cases hempty : r.tail = r.head
    · have hnil : r.contents = [] := by
        rw [← List.length_eq_zero_iff, length_contents, hempty, sub_self]
        rfl
      rw [take, if_pos hempty, hnil]
      exact ⟨rfl, rfl⟩
    · have hne : r.head - r.tail ≠ 0 := sub_ne_zero.2 (Ne.symm hempty)
      have hpos : 0 < r.toRing.count := Nat.pos_of_ne_zero (val_eq_zero_iff.not.2 hne)
      -- The distance of the head from the next slot is one less.
      have hpred : r.head - (r.tail + 1) + 1 = r.head - r.tail := by
        rw [← sub_sub, sub_add_cancel]
      have hcount := val_add_one (hpred ▸ hne)
      rw [hpred] at hcount
      have hdrop : ({ r with tail := r.tail + 1 } : GapRing n α).toRing = r.toRing.drop := by
        simp only [toRing, Ring.drop, hcount, Nat.add_sub_cancel]
      obtain ⟨hfst, hsnd⟩ := ih { r with tail := r.tail + 1 }
      have hcons : r.contents = r.slots r.tail :: ({ r with tail := r.tail + 1 } :
          GapRing n α).contents := by
        rw [contents, contents, hdrop]
        exact Ring.contents_eq_cons hpos
      rw [take, if_neg hempty, hcons]
      exact ⟨congrArg _ hfst, hsnd⟩

theorem contents_eq_nil (h : r.tail = r.head) : r.contents = [] := by
  rw [← List.length_eq_zero_iff, length_contents, h, sub_self]
  rfl

/-- The first item is at the tail. -/
theorem contents_eq_cons (h : r.tail ≠ r.head) :
    r.contents = r.slots r.tail :: ({ r with tail := r.tail + 1 } : GapRing n α).contents := by
  have htake : r.take 1 = ([r.slots r.tail], { r with tail := r.tail + 1 }) := by
    rw [take, if_neg h]
    rfl
  obtain ⟨hfst, hsnd⟩ := r.take_eq 1
  rw [htake] at hfst hsnd
  rw [hsnd, ← List.take_append_drop 1 r.contents, ← hfst]
  rfl

end GapRing

end Queues
