import Mathlib

/-!
# Linked lists in memory

A list in memory is a head, and at each node the next one, the last of which is
the null pointer (`Links`). There is only one list from a head (`Links.unique`), so
that a list that ends has no cycle (`Links.nodup`). A node that is not in the list
is put in front of it (`Links.push`), and the first node is taken off
(`Links.pop`), by assignments to the head and to the link of that node.
-/

namespace Heap

variable {ι : Type*} {null : ι}

/-- The nodes of a list, from its head on. -/
def Links (null : ι) (next : ι → ι) : ι → List ι → Prop
  | head, [] => head = null
  | head, p :: ps => head = p ∧ p ≠ null ∧ Links null next (next p) ps

namespace Links

variable {next next' : ι → ι} {head p : ι} {ps qs : List ι}

theorem eq_nil_iff (h : Links null next head ps) : head = null ↔ ps = [] := by
  cases ps with
  | nil => exact iff_of_true h rfl
  | cons p ps => exact iff_of_false (fun heq => h.2.1 (h.1.symm.trans heq)) (List.cons_ne_nil _ _)

/-- The list depends on the links of its nodes only. -/
theorem congr (h : Links null next head ps) (hnext : ∀ p ∈ ps, next' p = next p) :
    Links null next' head ps := by
  induction ps generalizing head with
  | nil => exact h
  | cons p ps ih =>
    obtain ⟨hhead, hp, hrest⟩ := h
    obtain ⟨hfirst, hothers⟩ := List.forall_mem_cons.1 hnext
    refine ⟨hhead, hp, ?_⟩
    rw [hfirst]
    exact ih hrest hothers

/-- There is only one list from a head. -/
theorem unique (h : Links null next head ps) (h' : Links null next head qs) : ps = qs := by
  induction ps generalizing head qs with
  | nil => exact ((eq_nil_iff h').1 h).symm
  | cons p ps ih =>
    obtain ⟨rfl, hp, hrest⟩ := h
    cases qs with
    | nil => exact absurd h' hp
    | cons q qs =>
      obtain ⟨rfl, _, hrest'⟩ := h'
      rw [ih hrest hrest']

/-- From a node of a list on, there is the rest of it. -/
theorem of_mem (h : Links null next head ps) (hp : p ∈ ps) :
    ∃ before after, ps = before ++ p :: after ∧ Links null next p (p :: after) := by
  induction ps generalizing head with
  | nil => exact absurd hp List.not_mem_nil
  | cons q ps ih =>
    obtain ⟨rfl, hq, hrest⟩ := h
    rcases List.mem_cons.1 hp with rfl | hp
    · exact ⟨[], ps, rfl, rfl, hq, hrest⟩
    · obtain ⟨before, after, rfl, hlinks⟩ := ih hrest hp
      exact ⟨head :: before, after, rfl, hlinks⟩

/-- A list that ends has no node twice. -/
theorem nodup (h : Links null next head ps) : ps.Nodup := by
  induction ps generalizing head with
  | nil => exact .nil
  | cons p ps ih =>
    refine List.nodup_cons.2 ⟨fun hp => ?_, ih h.2.2⟩
    -- The list from the second occurrence on is shorter, but it is the one from the first.
    obtain ⟨before, after, rfl, hlinks⟩ := h.2.2.of_mem hp
    obtain ⟨rfl, -⟩ := id h
    have hlen := congrArg List.length (hlinks.unique h)
    simp only [List.length_cons, List.length_append] at hlen
    omega

/-- A node is put in front of a list. -/
theorem push [DecidableEq ι] (h : Links null next head ps) (hp : p ≠ null) (hnot : p ∉ ps) :
    Links null (Function.update next p head) p (p :: ps) := by
  refine ⟨rfl, hp, ?_⟩
  rw [Function.update_self]
  refine h.congr fun q hq => Function.update_of_ne ?_ ..
  rintro rfl
  exact hnot hq

/-- The first node is taken off a list. -/
theorem pop [DecidableEq ι] (h : Links null next p (p :: ps)) (q : ι) :
    Links null (Function.update next p q) (next p) ps := by
  have hnot : p ∉ ps := (List.nodup_cons.1 h.nodup).1
  refine h.2.2.congr fun r hr => Function.update_of_ne ?_ ..
  rintro rfl
  exact hnot hr

end Links

end Heap
