import Mathlib

/-!
# Slices

A list cut into slices of given lengths, the last of them shorter or empty if the list ends
before (`List.splitLengths`).

* `flatten_splitLengths_eq_take`: the slices are what comes first in the list, cut;
* `getElem?_splitLengths`: a slice is what comes after the lengths before it;
* `map_range_eq_splitLengths`: a list cut into blocks.
-/

namespace Streams

variable {α : Type*} {xs : List α} {lengths : List ℕ}

theorem flatten_splitLengths_eq_take (lengths : List ℕ) (xs : List α) :
    (lengths.splitLengths xs).flatten = xs.take lengths.sum := by
  induction lengths generalizing xs with
  | nil => rfl
  | cons n lengths ih =>
    rw [List.splitLengths_cons, List.flatten_cons, ih, List.sum_cons, List.take_add]

/-- The slices before one are what comes before it. -/
theorem flatten_take_splitLengths (lengths : List ℕ) (xs : List α) (k : ℕ) :
    ((lengths.splitLengths xs).take k).flatten = xs.take (lengths.take k).sum := by
  rw [List.take_splitLength, flatten_splitLengths_eq_take]

theorem getElem?_splitLengths {k n : ℕ} (h : lengths[k]? = some n) :
    (lengths.splitLengths xs)[k]? = some ((xs.drop (lengths.take k).sum).take n) := by
  induction lengths generalizing k xs with
  | nil => cases h
  | cons m lengths ih =>
    rw [List.splitLengths_cons]
    cases k with
    | zero =>
      obtain rfl := Option.some.inj h
      rfl
    | succ k =>
      rw [List.getElem?_cons_succ] at h ⊢
      rw [ih h, List.take_succ_cons, List.sum_cons, List.drop_drop]

/-- A slice is as long as it should be, or the list ends with it. -/
theorem length_slice_or (xs : List α) {k n : ℕ} (h : lengths[k]? = some n) :
    ∃ slice, (lengths.splitLengths xs)[k]? = some slice ∧ slice.length ≤ n ∧
      (slice.length = n ∨ ((lengths.splitLengths xs).take (k + 1)).flatten = xs) := by
  refine ⟨_, getElem?_splitLengths h, List.length_take_le _ _, ?_⟩
  rw [flatten_take_splitLengths, List.take_add_one, h, Option.toList_some, List.sum_append,
    List.sum_singleton, List.length_take, List.length_drop, List.take_eq_self_iff]
  omega

/-- Nothing comes after the end. -/
theorem slice_eq_nil {k n : ℕ} (h : lengths[k]? = some n)
    (hend : ((lengths.splitLengths xs).take k).flatten = xs) :
    (lengths.splitLengths xs)[k]? = some [] := by
  rw [flatten_take_splitLengths, List.take_eq_self_iff] at hend
  rw [getElem?_splitLengths h, List.drop_eq_nil_of_le hend, List.take_nil]

/-- The slices of one length. -/
theorem map_range_eq_splitLengths (n b : ℕ) (xs : List α) :
    (List.range n).map (fun k => (xs.drop (k * b)).take b) =
      (List.replicate n b).splitLengths xs := by
  refine List.ext_getElem? fun k => ?_
  rcases Nat.lt_or_ge k n with hk | hk
  · have hlength : (List.replicate n b)[k]? = some b := by simp [hk]
    rw [getElem?_splitLengths hlength, List.getElem?_map, List.getElem?_range hk, Option.map_some,
      List.take_replicate, Nat.min_eq_left hk.le, List.sum_replicate, smul_eq_mul]
  · rw [List.getElem?_eq_none (by simpa using hk), List.getElem?_eq_none (by simpa using hk)]

end Streams
