import SliverOS.Streams.Run

/-!
# The load of a queue

Items come to a queue of some capacity one by one, and are taken from it some at a time, as many as
there are. An item is lost when it comes to the full queue.

* `fits_iff`: a queue that is empty at first loses none exactly if, from no moment to a later one,
  more items come than its capacity and those that might be taken meanwhile.
-/

namespace Queues

open Streams

/-- An item comes, or at most `n` items are taken. -/
inductive Traffic
  | come
  | take (n : ℕ)

/-- What comes, less what might be taken. -/
def Traffic.load : Traffic → ℤ
  | come => 1
  | take n => -n

/-- The load of some traffic. -/
def load (es : List Traffic) : ℤ := (es.map Traffic.load).sum

/-- The number of items in a queue, after some traffic. -/
def occupancy (capacity n : ℕ) : Traffic → ℕ
  | .come => if n < capacity then n + 1 else n
  | .take k => n - k

/-- No item is lost. -/
def Fits (capacity n : ℕ) (e : Traffic) : Prop := e = .come → n < capacity

variable {capacity : ℕ} {es : List Traffic}

theorem fits_take (n k : ℕ) : Fits capacity n (.take k) := by
  intro h
  cases h

@[simp] theorem load_nil : load [] = 0 := rfl

@[simp] theorem load_concat (e : Traffic) : load (es ++ [e]) = load es + e.load := by
  simp [load]

theorem forall_suffix_concat {e : Traffic} {m : ℤ} :
    (∀ ys, ys <:+ es ++ [e] → load ys ≤ m) ↔ 0 ≤ m ∧ ∀ ys, ys <:+ es → load ys ≤ m - e.load := by
  constructor
  · refine fun h => ⟨h [] List.nil_suffix, fun ys hys => ?_⟩
    have hload := h (ys ++ [e]) (List.suffix_concat_iff.2 (.inr ⟨ys, rfl, hys⟩))
    rw [load_concat] at hload
    omega
  · rintro ⟨hm, h⟩ ys hys
    rcases List.suffix_concat_iff.1 hys with rfl | ⟨zs, rfl, hzs⟩
    · exact hm
    · have hload := h zs hzs
      rw [load_concat]
      omega

/-- As long as no item is lost, the queue has as many items as the greatest load up to now. -/
theorem occupancy_le_iff (h : Throughout (occupancy capacity) (Fits capacity) 0 es) (m : ℤ) :
    ((es.foldl (occupancy capacity) 0 : ℕ) : ℤ) ≤ m ↔ ∀ ys, ys <:+ es → load ys ≤ m := by
  induction es using List.reverseRecOn generalizing m with
  | nil =>
    simp
  | append_singleton es e ih =>
    rw [throughout_concat] at h
    rw [List.foldl_concat, forall_suffix_concat, ← ih h.1]
    cases e with
    | come =>
      rw [occupancy, if_pos (h.2 rfl), Traffic.load]
      push_cast
      omega
    | take k =>
      rw [occupancy, Traffic.load]
      omega

/-- A queue loses no item exactly if the load of no part of the traffic exceeds its capacity. -/
theorem fits_iff : Throughout (occupancy capacity) (Fits capacity) 0 es ↔
    ∀ ys, ys <:+: es → load ys ≤ capacity := by
  induction es using List.reverseRecOn with
  | nil =>
    simp
  | append_singleton es e ih =>
    have hinfix : (∀ ys, ys <:+: es ++ [e] → load ys ≤ capacity) ↔
        (∀ ys, ys <:+: es → load ys ≤ capacity) ∧
          ∀ ys, ys <:+ es ++ [e] → load ys ≤ capacity := by
      constructor
      · exact fun h => ⟨fun ys hys => h ys (List.infix_concat_iff.2 (.inr hys)),
          fun ys hys => h ys (List.infix_concat_iff.2 (.inl hys))⟩
      · rintro ⟨h, h'⟩ ys hys
        rcases List.infix_concat_iff.1 hys with hys | hys
        · exact h' ys hys
        · exact h ys hys
    rw [throughout_concat, hinfix, ← ih]
    refine and_congr_right fun h => ?_
    rw [forall_suffix_concat, ← occupancy_le_iff h, Fits]
    have hle := (occupancy_le_iff h capacity).2 fun ys hys => ih.1 h ys hys.isInfix
    cases e with
    | come =>
      rw [Traffic.load]
      simp only [forall_const]
      omega
    | take k =>
      rw [Traffic.load]
      simp only [reduceCtorEq, false_imp_iff, true_iff]
      omega

end Queues
