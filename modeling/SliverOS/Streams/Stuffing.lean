import Mathlib

/-!
# Stuffing

Packets are sent over a stream with a delimiter around them. The delimiter must
then not occur in a packet: an escape symbol followed by another one stands for
it, and likewise for the escape symbol itself (`Stuffing.stuff`).

The receiver cuts the stream at the delimiters, and replaces what stands for a
symbol by the symbol (`Stuffing.unstuff`), the delimiters being skipped. So

* `delim_notMem`: a stuffed packet is not cut;
* `unstuff_flatMap_append`: it is unstuffed to the packet, whatever follows.

What is cut from a stream is what comes before its first delimiter
(`takeWhile_ne_append_of_mem`, `take_idxOf`).
-/

namespace Streams

/-- The symbols of a stuffing: the delimiter, the escape symbol, and those that follow it in
    place of either. -/
structure Stuffing (α : Type*) where
  delim : α
  esc : α
  escDelim : α
  escEsc : α
  esc_ne : esc ≠ delim
  escDelim_ne : escDelim ≠ delim
  escEsc_ne : escEsc ≠ delim
  escEsc_ne_escDelim : escEsc ≠ escDelim

namespace Stuffing

variable {α : Type*} [DecidableEq α] (c : Stuffing α)

/-- What a symbol of a packet is sent as. -/
def stuff (x : α) : List α :=
  if x = c.delim then [c.esc, c.escDelim]
  else if x = c.esc then [c.esc, c.escEsc]
  else [x]

/-- What is received, after an escape symbol or not. -/
def unstuff : Bool → List α → List α
  | _, [] => []
  | escaped, x :: xs =>
    if x = c.delim then unstuff escaped xs
    else if escaped then
      (if x = c.escDelim then c.delim else if x = c.escEsc then c.esc else x) :: unstuff false xs
    else if x = c.esc then unstuff true xs
    else x :: unstuff false xs

@[simp] theorem unstuff_nil (escaped : Bool) : c.unstuff escaped [] = [] := rfl

/-- A delimiter is skipped. -/
@[simp] theorem unstuff_delim (escaped : Bool) (xs : List α) :
    c.unstuff escaped (c.delim :: xs) = c.unstuff escaped xs :=
  if_pos rfl

theorem unstuff_append_delim (escaped : Bool) (xs : List α) :
    c.unstuff escaped (xs ++ [c.delim]) = c.unstuff escaped xs := by
  induction xs generalizing escaped with
  | nil => exact c.unstuff_delim escaped []
  | cons x xs ih => simp only [List.cons_append, unstuff, ih]

/-- A symbol that was stuffed is received as it was. -/
theorem unstuff_stuff_append (x : α) (xs : List α) :
    c.unstuff false (c.stuff x ++ xs) = x :: c.unstuff false xs := by
  rw [stuff]
  split_ifs with hdelim hesc
  · subst hdelim
    simp [unstuff, c.esc_ne, c.escDelim_ne]
  · subst hesc
    simp [unstuff, c.esc_ne, c.escEsc_ne, c.escEsc_ne_escDelim]
  · simp [unstuff, hdelim, hesc]

/-- A packet that was stuffed is received as it was. -/
theorem unstuff_flatMap_append (xs ys : List α) :
    c.unstuff false (xs.flatMap c.stuff ++ ys) = xs ++ c.unstuff false ys := by
  induction xs with
  | nil => rfl
  | cons x xs ih => rw [List.flatMap_cons, List.append_assoc, unstuff_stuff_append, ih,
      List.cons_append]

/-- There is no delimiter in a packet that was stuffed. -/
theorem delim_notMem (xs : List α) : c.delim ∉ xs.flatMap c.stuff := by
  rw [List.mem_flatMap]
  rintro ⟨x, _, hx⟩
  rw [stuff] at hx
  split_ifs at hx with hdelim hesc
  · simp [c.esc_ne.symm, c.escDelim_ne.symm] at hx
  · simp [c.esc_ne.symm, c.escEsc_ne.symm] at hx
  · exact hdelim (List.mem_singleton.1 hx).symm

end Stuffing

/-! ## Cutting at a delimiter -/

variable {α : Type*} [DecidableEq α] {d : α}

/-- What comes before the first delimiter does not depend on what comes after it. -/
theorem takeWhile_ne_append_of_mem {xs : List α} (h : d ∈ xs) (ys : List α) :
    (xs ++ ys).takeWhile (· ≠ d) = xs.takeWhile (· ≠ d) := by
  induction xs with
  | nil => cases h
  | cons x xs ih =>
    by_cases hx : x = d
    · simp [hx]
    · have hd : d ∈ xs := (List.mem_cons.1 h).resolve_left (Ne.symm hx)
      simpa [hx] using ih hd

theorem takeWhile_ne_append_cons {xs : List α} (h : d ∉ xs) (ys : List α) :
    (xs ++ d :: ys).takeWhile (· ≠ d) = xs := by
  rw [List.takeWhile_append_of_pos fun x hx => by
    rw [decide_eq_true_eq]
    rintro rfl
    exact h hx]
  simp

/-- The first delimiter, with what comes before it. -/
theorem take_idxOf {xs : List α} (h : d ∈ xs) :
    xs.take (xs.idxOf d + 1) = xs.takeWhile (· ≠ d) ++ [d] := by
  induction xs with
  | nil => cases h
  | cons x xs ih =>
    by_cases hx : x = d
    · simp [hx]
    · have hd : d ∈ xs := (List.mem_cons.1 h).resolve_left (Ne.symm hx)
      rw [List.idxOf_cons_ne _ hx, List.take_succ_cons, ih hd]
      simp [hx]

end Streams
