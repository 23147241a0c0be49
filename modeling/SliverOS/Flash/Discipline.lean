import Mathlib.Data.Set.Insert
import SliverOS.Flash.Nor

/-!
# Erasing before programming

A sector is programmed only if it was erased, and not programmed since
(`Disciplined`). What the cells do with a byte that is not erased is then of no
consequence: the flash is the same for all of them (`Disciplined.run_eq`).
-/

namespace Flash

namespace Step

/-- A step that programs a sector programs one of those that are erased. -/
def Allowed (erased : Set ℕ) : Step → Prop
  | erase _ => True
  | program a _ => a ∈ erased

/-- The sectors that are erased, and not programmed since, after a step. -/
def erasedAfter (erased : Set ℕ) : Step → Set ℕ
  | erase a => insert a erased
  | program a _ => erased \ {a}

variable {E E' : Set ℕ}

theorem Allowed.mono (hE : E ⊆ E') {st : Step} (h : st.Allowed E) : st.Allowed E' := by
  cases st with
  | erase a => trivial
  | program a data => exact hE h

theorem erasedAfter_mono (hE : E ⊆ E') (st : Step) : st.erasedAfter E ⊆ st.erasedAfter E' := by
  cases st with
  | erase a => exact Set.insert_subset_insert hE
  | program a data => exact Set.sdiff_subset_sdiff_left hE

end Step

/-- Sectors are programmed only when they are erased, those of `erased` being erased
    at first. -/
def Disciplined : Set ℕ → List Step → Prop
  | _, [] => True
  | erased, st :: steps => st.Allowed erased ∧ Disciplined (st.erasedAfter erased) steps

variable {E E' : Set ℕ} {c c' : Cell} {f : Image} {a : ℕ} {data : List UInt8} {xs ys : List Step}

theorem Disciplined.mono (hE : E ⊆ E') (h : Disciplined E xs) : Disciplined E' xs := by
  induction xs generalizing E E' with
  | nil => trivial
  | cons st xs ih => exact ⟨h.1.mono hE, ih (st.erasedAfter_mono hE) h.2⟩

/-- Steps that start with no sector erased can follow any others. -/
theorem Disciplined.append (hxs : Disciplined E xs) (hys : Disciplined ∅ ys) :
    Disciplined E (xs ++ ys) := by
  induction xs generalizing E with
  | nil => exact hys.mono (Set.empty_subset E)
  | cons st xs ih => exact ⟨hxs.1, ih hxs.2⟩

theorem disciplined_erase (a : ℕ) : Disciplined ∅ [.erase a] := ⟨trivial, trivial⟩

theorem disciplined_rewrite (a : ℕ) (data : List UInt8) : Disciplined ∅ (rewrite a data) :=
  ⟨trivial, Set.mem_insert a ∅, trivial⟩

/-- A sector that is programmed was erased before, and not programmed in between. -/
theorem Disciplined.erased_before (h : Disciplined E (xs ++ .program a data :: ys)) :
    a ∈ E ∧ (∀ data', .program a data' ∉ xs) ∨
      ∃ us vs, xs = us ++ .erase a :: vs ∧ ∀ data', .program a data' ∉ vs := by
  induction xs generalizing E with
  | nil => exact .inl ⟨h.1, fun _ => List.not_mem_nil⟩
  | cons st xs ih =>
    rcases ih h.2 with ⟨hmem, hnot⟩ | ⟨us, vs, rfl, hnot⟩
    · cases st with
      | erase b =>
        by_cases hab : a = b
        · subst hab
          exact .inr ⟨[], xs, rfl, hnot⟩
        · refine .inl ⟨Set.mem_of_mem_insert_of_ne hmem hab, fun data' hmem' => ?_⟩
          exact hnot data' ((List.mem_cons.1 hmem').resolve_left fun heq => by cases heq)
      | program b data'' =>
        obtain ⟨hmem, hne⟩ := hmem
        refine .inl ⟨hmem, fun data' hmem' => ?_⟩
        refine hnot data' ((List.mem_cons.1 hmem').resolve_left fun heq => ?_)
        cases heq
        exact hne rfl
    · exact .inr ⟨st :: us, vs, rfl, hnot⟩

/-- The flash after disciplined steps does not depend on the cells. -/
theorem Disciplined.run_eq (h : Disciplined E xs) (hE : ∀ a ∈ E, f a = blank) :
    run c f xs = run c' f xs := by
  induction xs generalizing E f with
  | nil => rfl
  | cons st xs ih =>
    obtain ⟨hst, hxs⟩ := h
    have hstep : st.apply c f = st.apply c' f := by
      cases st with
      | erase a => rfl
      | program a data =>
        have hblank : f a = blank := hE a hst
        simp only [Step.apply, hblank, programAll_blank]
    rw [run_cons, run_cons, ← hstep]
    refine ih hxs fun a ha => ?_
    cases st with
    | erase b =>
      by_cases hab : a = b
      · subst hab
        exact Function.update_self ..
      · exact (Function.update_of_ne hab ..).trans (hE a (Set.mem_of_mem_insert_of_ne ha hab))
    | program b data => exact (Function.update_of_ne ha.2 ..).trans (hE a ha.1)

end Flash
