import SliverOS.Bytes.Memory

/-!
# NOR flash and power cuts

A flash is a number of sectors, erased as a whole and programmed from their
start on (`Step`). An erased byte takes the value it is programmed with; what
programming any other byte does is left to the cells (`Cell`).

A power cut leaves the flash with some of the steps done, and of the next one,
if it programs a sector, some of the bytes (`cut`). A sector that is rewritten,
erased and then programmed, is thus as before the cut, or has the start of the
data and is erased from there on (`cut_rewrite_zero`, `cut_rewrite_one`,
`cut_rewrite_two`).
-/

namespace Flash

open Bytes

/-- The contents of the sectors. -/
abbrev Image := ℕ → Memory

/-- How programming changes a byte: an erased one takes the value programmed. -/
structure Cell where
  program : UInt8 → UInt8 → UInt8
  program_erased : ∀ d, program 0xFF d = d

namespace Cell

/-- The cells of a simulation, which take any value programmed. -/
def overwriting : Cell := ⟨fun _ d => d, fun _ => rfl⟩

/-- Cells of which programming only clears bits. -/
def clearing : Cell where
  program b d := b &&& d
  program_erased d := by
    apply UInt8.toBitVec_inj.1
    simp only [UInt8.toBitVec_and]
    exact BitVec.allOnes_and

variable (c : Cell)

/-- A sector with some bytes programmed from its start on. -/
def programAll (m : Memory) (data : List UInt8) : Memory := fun x =>
  if x < data.length then c.program (m x) (data.getD x 0) else m x

end Cell

/-- A sector erased. -/
def blank : Memory := fun _ => 0xFF

/-- A sector erased and programmed. -/
def written (data : List UInt8) : Memory := fun x => data.getD x 0xFF

@[simp] theorem programAll_blank (c : Cell) (data : List UInt8) :
    c.programAll blank data = written data := by
  funext x
  by_cases hx : x < data.length
  · simp [Cell.programAll, blank, written, hx, c.program_erased]
  · simp [Cell.programAll, blank, written, hx]

/-- A sector erased and programmed has the data, and is erased from there on. -/
theorem slice_written {data : List UInt8} {n : ℕ} (h : data.length ≤ n) :
    slice (written data) 0 n = data ++ List.replicate (n - data.length) 0xFF := by
  obtain ⟨l, rfl⟩ := Nat.exists_eq_add_of_le h
  rw [slice_append, Nat.add_sub_cancel_left, Nat.zero_add]
  congr 1
  · refine List.ext_getElem (by simp) fun i hi hi' => ?_
    simp [slice, written, List.getD_eq_getElem?_getD, hi']
  · refine List.ext_getElem (by simp) fun i hi hi' => ?_
    simp [slice, written, List.getD_eq_getElem?_getD]

/-- Two sectors programmed, one of them with the start of the data of the other,
    are the same if the rest of the data is as if erased. -/
theorem slice_written_append {p r : List UInt8} {n : ℕ} (h : (p ++ r).length ≤ n) :
    slice (written (p ++ r)) 0 n = slice (written p) 0 n ↔ ∀ b ∈ r, b = 0xFF := by
  have hlen : (p ++ r).length = p.length + r.length := List.length_append
  have hsplit : n - p.length = r.length + (n - (p ++ r).length) := by omega
  rw [slice_written h, slice_written (by omega), hsplit, List.replicate_add, ← List.append_assoc,
    List.append_cancel_right_eq, List.append_cancel_left_eq, List.eq_replicate_iff]
  exact and_iff_right rfl

/-! ## Steps -/

/-- What is done to a flash: a sector is erased, or programmed. -/
inductive Step
  | erase (sector : ℕ)
  | program (sector : ℕ) (data : List UInt8)
  deriving DecidableEq

namespace Step

/-- The sector a step changes. -/
def sector : Step → ℕ
  | erase s => s
  | program s _ => s

/-- The flash after a step. -/
def apply (c : Cell) (f : Image) : Step → Image
  | erase s => Function.update f s blank
  | program s data => Function.update f s (c.programAll (f s) data)

/-- The flash after a step cut short: no erasure is, and of the data only the
    first `j` bytes are programmed. -/
def interrupt (c : Cell) (f : Image) (j : ℕ) : Step → Image
  | erase _ => f
  | program s data => (program s (data.take j)).apply c f

variable {c : Cell} {f : Image} {a : ℕ}

theorem apply_of_ne {st : Step} (h : st.sector ≠ a) : st.apply c f a = f a := by
  cases st with
  | erase s => exact Function.update_of_ne (Ne.symm h) _ _
  | program s data => exact Function.update_of_ne (Ne.symm h) _ _

end Step

variable {c : Cell} {f : Image} {a : ℕ} {data : List UInt8}

/-- The flash after some steps. -/
def run (c : Cell) (f : Image) (steps : List Step) : Image :=
  steps.foldl (fun f st => st.apply c f) f

/-- The flash after a power cut that comes after `n` of the steps and `j` bytes
    of the next one. -/
def cut (c : Cell) (f : Image) : List Step → ℕ → ℕ → Image
  | [], _, _ => f
  | st :: _, 0, j => st.interrupt c f j
  | st :: steps, n + 1, j => cut c (st.apply c f) steps n j

@[simp] theorem run_nil : run c f [] = f := rfl

@[simp] theorem run_cons (st : Step) (steps : List Step) :
    run c f (st :: steps) = run c (st.apply c f) steps := rfl

theorem run_append (xs ys : List Step) : run c f (xs ++ ys) = run c (run c f xs) ys :=
  List.foldl_append ..

/-- A sector that no step changes is as before. -/
theorem run_of_ne {steps : List Step} (h : ∀ st ∈ steps, st.sector ≠ a) :
    run c f steps a = f a := by
  induction steps generalizing f with
  | nil => rfl
  | cons st steps ih =>
    rw [run_cons, ih fun st' h' => h st' (List.mem_cons_of_mem _ h'),
      Step.apply_of_ne (h st List.mem_cons_self)]

/-- A cut comes during some steps or after them. -/
theorem cut_append (xs ys : List Step) (n j : ℕ) :
    cut c f (xs ++ ys) n j =
      if n < xs.length then cut c f xs n j else cut c (run c f xs) ys (n - xs.length) j := by
  induction xs generalizing f n with
  | nil => simp
  | cons st xs ih =>
    cases n with
    | zero => simp [cut]
    | succ n => simp [cut, ih]

/-- A cut after all of the steps. -/
theorem cut_of_length_le {steps : List Step} {n j : ℕ} (h : steps.length ≤ n) :
    cut c f steps n j = run c f steps := by
  have happ := cut_append (c := c) (f := f) steps [] n j
  rw [List.append_nil, if_neg (by omega)] at happ
  exact happ

/-! ## Rewriting a sector -/

/-- A sector erased and programmed with some data. -/
def rewrite (a : ℕ) (data : List UInt8) : List Step := [.erase a, .program a data]

@[simp] theorem run_rewrite : run c f (rewrite a data) = Function.update f a (written data) := by
  simp [rewrite, Step.apply]

/-- Of a sector that is rewritten, nothing, the erasure, or all may be done. -/
theorem eq_zero_or_one_or_add (n : ℕ) : n = 0 ∨ n = 1 ∨ ∃ k, n = k + 2 := by
  rcases n with _ | _ | n
  · exact .inl rfl
  · exact .inr (.inl rfl)
  · exact .inr (.inr ⟨n, rfl⟩)

theorem cut_rewrite_zero (j : ℕ) : cut c f (rewrite a data) 0 j = f := rfl

theorem cut_rewrite_one (j : ℕ) :
    cut c f (rewrite a data) 1 j = Function.update f a (written (data.take j)) := by
  simp [rewrite, cut, Step.interrupt, Step.apply]

theorem cut_rewrite_two {n : ℕ} (hn : 2 ≤ n) (j : ℕ) :
    cut c f (rewrite a data) n j = Function.update f a (written data) := by
  rw [cut_of_length_le hn, run_rewrite]

end Flash
