import Mathlib

/-!
# Runs of a machine

A machine is given by its step `f`, and a run of it by the symbols that it reads.

* `Throughout`: what every step of a run meets, in the state that it starts from;
  `Throughout.inv` and `throughout_congr` are the rules to get it along a run, from an
  invariant, and `forall_prefix_iff` says it of the states of the run;
* `collect`: the items that the steps of a run give, in order;
* `Paced`: a machine that keeps the last time at which it did something, and does it again only
  at a time far enough from it. Over a run, the times are far from each other (`Paced.isChain`).
-/

namespace Streams

variable {σ α β : Type*} {f : σ → α → σ} {g : σ → α → List β} {P Q : σ → α → Prop}
  {s : σ} {xs : List α}

/-- Every symbol meets `P`, in the state in which it is read. -/
def Throughout (f : σ → α → σ) (P : σ → α → Prop) (s : σ) (xs : List α) : Prop :=
  ∀ ys a, ys ++ [a] <+: xs → P (ys.foldl f s) a

@[simp] theorem throughout_nil : Throughout f P s [] := by
  intro ys a hys
  simp at hys

theorem throughout_concat (a : α) :
    Throughout f P s (xs ++ [a]) ↔ Throughout f P s xs ∧ P (xs.foldl f s) a := by
  constructor
  · exact fun h => ⟨fun ys b hys => h ys b (hys.trans (List.prefix_append _ _)),
      h xs a (List.prefix_refl _)⟩
  · rintro ⟨hxs, ha⟩ ys b hys
    rcases List.prefix_concat_iff.1 hys with heq | hys
    · obtain ⟨rfl, hb⟩ := List.append_inj' heq rfl
      rw [List.singleton_inj.1 hb]
      exact ha
    · exact hxs ys b hys

theorem throughout_cons (a : α) :
    Throughout f P s (a :: xs) ↔ P s a ∧ Throughout f P (f s a) xs := by
  constructor
  · exact fun h => ⟨h [] a (List.prefix_append [a] xs),
      fun ys b hys => h (a :: ys) b (List.cons_prefix_cons.2 ⟨rfl, hys⟩)⟩
  · rintro ⟨ha, hxs⟩ ys b hys
    cases ys with
    | nil =>
      obtain ⟨rfl, -⟩ := List.cons_prefix_cons.1 hys
      exact ha
    | cons c ys =>
      obtain ⟨rfl, hys'⟩ := List.cons_prefix_cons.1 hys
      exact hxs ys b hys'

instance decidableThroughout [∀ s a, Decidable (P s a)] (s : σ) :
    (xs : List α) → Decidable (Throughout f P s xs)
  | [] => isTrue throughout_nil
  | a :: xs =>
    have : Decidable (Throughout f P (f s a) xs) := decidableThroughout (f s a) xs
    decidable_of_iff _ (throughout_cons a).symm

/-- An invariant of the steps with `P` holds after a run of them. -/
theorem Throughout.inv {I : σ → Prop} (h : Throughout f P s xs) (hs : I s)
    (hstep : ∀ s a, I s → P s a → I (f s a)) : I (xs.foldl f s) := by
  induction xs using List.reverseRecOn with
  | nil => exact hs
  | append_singleton xs a ih =>
    rw [throughout_concat] at h
    rw [List.foldl_concat]
    exact hstep _ a (ih h.1) h.2

/-- An invariant that counts the steps with `P` holds of their number after a run of them. -/
theorem Throughout.inv_length {I : ℕ → σ → Prop} (h : Throughout f P s xs) (hs : I 0 s)
    (hstep : ∀ n s a, I n s → P s a → I (n + 1) (f s a)) : I xs.length (xs.foldl f s) := by
  induction xs using List.reverseRecOn with
  | nil => exact hs
  | append_singleton xs a ih =>
    rw [throughout_concat] at h
    rw [List.foldl_concat, List.length_append, List.length_singleton]
    exact hstep _ _ a (ih h.1) h.2

/-- What is the same as `P`, given an invariant of the steps with `P`, is the same along a
    run. -/
theorem throughout_congr {I : σ → Prop} (hs : I s) (hiff : ∀ s a, I s → (Q s a ↔ P s a))
    (hstep : ∀ s a, I s → P s a → I (f s a)) :
    Throughout f Q s xs ↔ Throughout f P s xs := by
  induction xs using List.reverseRecOn with
  | nil => simp
  | append_singleton xs a ih =>
    rw [throughout_concat, throughout_concat, ih]
    exact and_congr_right fun h => hiff _ a (h.inv hs hstep)

/-- What holds of the states of a run holds at its start and after every step. -/
theorem forall_prefix_iff {G : σ → Prop} :
    (∀ ys, ys <+: xs → G (ys.foldl f s)) ↔ G s ∧ Throughout f (fun s a => G (f s a)) s xs := by
  constructor
  · refine fun h => ⟨h [] (List.nil_prefix ..), fun ys a hys => ?_⟩
    have hG := h _ hys
    rwa [List.foldl_concat] at hG
  · rintro ⟨hs, h⟩ ys hys
    rcases List.eq_nil_or_concat ys with rfl | ⟨ys, a, rfl⟩
    · exact hs
    · rw [List.concat_eq_append] at hys ⊢
      rw [List.foldl_concat]
      exact h ys a hys

/-- The items given by the steps of a run, in order. -/
def collect (f : σ → α → σ) (g : σ → α → List β) (s : σ) : List α → List β
  | [] => []
  | a :: xs => g s a ++ collect f g (f s a) xs

theorem collect_concat (a : α) :
    collect f g s (xs ++ [a]) = collect f g s xs ++ g (xs.foldl f s) a := by
  induction xs generalizing s with
  | nil => exact List.append_nil _
  | cons x xs ih =>
    rw [List.cons_append, collect, ih, collect, List.append_assoc]
    rfl

/-- An item is given by some step. -/
theorem exists_of_mem_collect {x : β} (h : x ∈ collect f g s xs) : ∃ s a, x ∈ g s a := by
  induction xs generalizing s with
  | nil => cases h
  | cons a xs ih =>
    rcases List.mem_append.1 h with h | h
    · exact ⟨s, a, h⟩
    · exact ih h

/-! ## Paces -/

/-- The time of a step is far from the last one kept, and kept then. -/
structure Paced (f : σ → α → σ) (far : β → β → Prop) (last : σ → β) (time? : σ → α → Option β) :
    Prop where
  far : ∀ s a t, time? s a = some t → far (last s) t
  last : ∀ s a, last (f s a) = (time? s a).getD (last s)

/-- The times of a run, after the one kept before it, are far from each other, and the last of
    them is the one kept. -/
theorem Paced.isChain {far : β → β → Prop} {last : σ → β} {time? : σ → α → Option β}
    (h : Paced f far last time?) (s : σ) (xs : List α) :
    (last s :: collect f (fun s a => (time? s a).toList) s xs).IsChain far ∧
      last (xs.foldl f s) = (last s :: collect f (fun s a => (time? s a).toList) s xs).getLast
        (List.cons_ne_nil _ _) := by
  induction xs generalizing s with
  | nil => exact ⟨List.isChain_singleton _, rfl⟩
  | cons a xs ih =>
    obtain ⟨hchain, hlast⟩ := ih (f s a)
    rw [h.last] at hchain hlast
    cases ht : time? s a with
    | none =>
      rw [ht] at hchain hlast
      simp only [collect, ht]
      exact ⟨hchain, hlast⟩
    | some t =>
      rw [ht] at hchain hlast
      simp only [collect, ht]
      exact ⟨hchain.cons_cons (h.far s a t ht), hlast⟩

end Streams
