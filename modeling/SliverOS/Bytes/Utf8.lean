import Mathlib

/-!
# Decoding UTF-8

The decoder of UTF-8 that never fails: what is not the encoding of a character
is read as the replacement character, one for each longest part that could have
become one, and a byte order mark at the start is removed (`decodeText`).

* `decodeText_of_ascii`: bytes below 128 are the characters of their numbers.
-/

namespace Utf8

/-- Where the decoder stands: the bits of the character read so far, the bytes it
    still needs, and the bounds on the next of them. -/
structure State where
  codePoint : ℕ
  needed : ℕ
  lower : UInt8
  upper : UInt8

/-- The state between characters. -/
def State.start : State := ⟨0, 0, 0x80, 0xBF⟩

/-- U+FFFD. -/
def replacement : Char := Char.ofNat 0xFFFD

/-- The byte order mark, U+FEFF. -/
def byteOrderMark : Char := Char.ofNat 0xFEFF

/-- The first byte of a character: the state after it, and the characters output. -/
def lead (b : UInt8) : State × List Char :=
  if b ≤ 0x7F then (.start, [Char.ofNat b.toNat])
  else if 0xC2 ≤ b ∧ b ≤ 0xDF then (⟨b.toNat &&& 0x1F, 1, 0x80, 0xBF⟩, [])
  else if 0xE0 ≤ b ∧ b ≤ 0xEF then
    -- No character is encoded in more bytes than it needs, and none is a surrogate.
    (⟨b.toNat &&& 0x0F, 2, if b = 0xE0 then 0xA0 else 0x80, if b = 0xED then 0x9F else 0xBF⟩, [])
  else if 0xF0 ≤ b ∧ b ≤ 0xF4 then
    (⟨b.toNat &&& 0x07, 3, if b = 0xF0 then 0x90 else 0x80, if b = 0xF4 then 0x8F else 0xBF⟩, [])
  else (.start, [replacement])

/-- A byte: the state after it, and the characters output. -/
def State.step (s : State) (b : UInt8) : State × List Char :=
  if s.needed = 0 then lead b
  else if b < s.lower ∨ s.upper < b then
    -- The character is cut short, and the byte starts the next one.
    ((lead b).1, replacement :: (lead b).2)
  else
    let codePoint := (s.codePoint <<< 6) ||| (b.toNat &&& 0x3F)
    if s.needed = 1 then (.start, [Char.ofNat codePoint])
    else (⟨codePoint, s.needed - 1, 0x80, 0xBF⟩, [])

/-- The characters of some bytes. -/
def State.decode (s : State) : List UInt8 → List Char
  | [] => if s.needed = 0 then [] else [replacement]
  | b :: bs => (s.step b).2 ++ (s.step b).1.decode bs

/-- The text of some bytes, without its byte order mark. -/
def decodeText (bs : List UInt8) : String :=
  let chars := State.start.decode bs
  String.ofList (if chars.head? = some byteOrderMark then chars.tail else chars)

theorem decode_of_ascii {bs : List UInt8} (h : ∀ b ∈ bs, b ≤ 0x7F) :
    State.start.decode bs = bs.map fun b => Char.ofNat b.toNat := by
  induction bs with
  | nil => rfl
  | cons b bs ih =>
    obtain ⟨hb, hbs⟩ := List.forall_mem_cons.1 h
    have hstep : State.start.step b = (.start, [Char.ofNat b.toNat]) := if_pos hb
    rw [State.decode, hstep, ih hbs]
    rfl

/-- Bytes below 128 are the characters of their numbers. -/
theorem decodeText_of_ascii {bs : List UInt8} (h : ∀ b ∈ bs, b ≤ 0x7F) :
    decodeText bs = String.ofList (bs.map fun b => Char.ofNat b.toNat) := by
  have hmark : (bs.map fun b => Char.ofNat b.toNat).head? ≠ some byteOrderMark := by
    rw [List.head?_map]
    intro hhead
    obtain ⟨b, hb, hchar⟩ := Option.map_eq_some_iff.1 hhead
    have hle : b.toNat ≤ 127 := UInt8.le_iff_toNat_le.1 (h b (List.mem_of_mem_head? hb))
    have hnum := congrArg Char.toNat hchar
    have hmark : byteOrderMark.toNat = 0xFEFF := rfl
    rw [Char.toNat_ofNat, if_pos (.inl (by omega)), hmark] at hnum
    omega
  simp only [decodeText, decode_of_ascii h]
  rw [if_neg hmark]

end Utf8
