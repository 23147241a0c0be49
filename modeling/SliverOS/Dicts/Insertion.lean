import Mathlib

/-!
# Dictionaries in the order of insertion

A dictionary that keeps its keys in the order in which they were first assigned, as a list of its
entries. An entry is looked for by a condition on its key, of which the first one that meets it is
found.
-/

namespace Dicts

variable {α β : Type*} [DecidableEq α] {d : List (α × β)} {k k' : α} {v : β} {P : α → Bool}

/-- An assignment: in the place of the key, or at the end. -/
def assign : List (α × β) → α → β → List (α × β)
  | [], k, v => [(k, v)]
  | (k', v') :: d, k, v => if k' = k then (k, v) :: d else (k', v') :: assign d k v

theorem exists_mem_assign (h : ∃ v', (k', v') ∈ assign d k v) :
    k' = k ∨ ∃ v', (k', v') ∈ d := by
  induction d with
  | nil =>
    obtain ⟨v', hv⟩ := h
    exact .inl (Prod.ext_iff.1 (List.mem_singleton.1 hv)).1
  | cons e d ih =>
    obtain ⟨v', hv⟩ := h
    rw [assign] at hv
    split_ifs at hv
    · obtain heq | hmem := List.mem_cons.1 hv
      · exact .inl (Prod.ext_iff.1 heq).1
      · exact .inr ⟨v', .tail _ hmem⟩
    · obtain heq | hmem := List.mem_cons.1 hv
      · exact .inr ⟨v', heq ▸ .head _⟩
      · exact (ih ⟨v', hmem⟩).imp_right fun ⟨w, hw⟩ => ⟨w, .tail _ hw⟩

/-- What was assigned is found, by a condition that no other key meets. -/
theorem find?_assign_self (hk : P k = true) (hd : ∀ e ∈ d, P e.1 = true → e.1 = k) :
    (assign d k v).find? (fun e => P e.1) = some (k, v) := by
  induction d with
  | nil => simp [assign, hk]
  | cons e d ih =>
    obtain ⟨he, hd⟩ := List.forall_mem_cons.1 hd
    rw [assign]
    split_ifs with heq
    · simp [hk]
    · have hne : P e.1 = false := Bool.eq_false_iff.2 fun hP => heq (he hP)
      rw [← ih hd]
      simp [hne]

/-- What is found by a condition that the key does not meet is as before. -/
theorem find?_assign_of_not (hk : P k = false) :
    (assign d k v).find? (fun e => P e.1) = d.find? (fun e => P e.1) := by
  induction d with
  | nil => simp [assign, hk]
  | cons e d ih =>
    rw [assign]
    split_ifs with heq
    · simp [hk, heq]
    · rw [List.find?_cons, List.find?_cons, ih]

end Dicts
