import Mathlib

/-!
# Cyclic redundancy checks

The reflected CRC of a polynomial: every byte is added to the state, from which eight
bits leave one after the other, each of those set adding the polynomial (`byte`). The
step of a bit is linear (`bit_add`), so that the bits may be taken from a table
(`iterate_bit_eq_table`), and the byte may be added bit by bit as they leave (`serial`,
`foldl_byte_eq_serial`).

If the polynomial has its top bit, no step loses information, neither about the state
nor about the byte. So the states after two messages that differ in one byte differ
(`foldl_byte_ne`), however long the messages are.
-/

namespace Crc

open Function

/-- Messages that differ in one symbol are told apart by what loses neither the state nor the
    symbol. -/
theorem foldl_ne {σ α : Type*} {f : σ → α → σ} (hstate : ∀ a, Injective (f · a))
    (hsymbol : ∀ c, Injective (f c)) (c : σ) (xs ys : List α) {a b : α} (hab : a ≠ b) :
    (xs ++ a :: ys).foldl f c ≠ (xs ++ b :: ys).foldl f c := by
  have hrest : ∀ c d, c ≠ d → ys.foldl f c ≠ ys.foldl f d := by
    induction ys with
    | nil => exact fun _ _ h => h
    | cons y ys ih => exact fun c d h => ih _ _ fun heq => h (hstate y heq)
  rw [List.foldl_append, List.foldl_append]
  exact hrest _ _ fun heq => hab (hsymbol _ heq)

variable {w : ℕ} {p : BitVec w}

/-- A bit leaves the state, adding the polynomial if it is set. -/
def bit (p c : BitVec w) : BitVec w := if c.getLsbD 0 then p ^^^ (c >>> 1) else c >>> 1

/-- A byte is added to the state, and its bits leave. -/
def byte (p c : BitVec w) (b : UInt8) : BitVec w := (bit p)^[8] (c ^^^ b.toBitVec.setWidth w)

/-! ## Linearity -/

theorem bit_add (c d : BitVec w) : bit p (c ^^^ d) = bit p c ^^^ bit p d := by
  simp only [bit, BitVec.getLsbD_xor, BitVec.ushiftRight_xor_distrib]
  cases c.getLsbD 0 <;> cases d.getLsbD 0
  · rfl
  · change p ^^^ ((c >>> 1) ^^^ (d >>> 1)) = (c >>> 1) ^^^ (p ^^^ (d >>> 1))
    ac_rfl
  · exact (BitVec.xor_assoc _ _ _).symm
  · calc (c >>> 1) ^^^ (d >>> 1)
        = (p ^^^ p) ^^^ ((c >>> 1) ^^^ (d >>> 1)) := by rw [BitVec.xor_self, BitVec.zero_xor]
      _ = (p ^^^ (c >>> 1)) ^^^ (p ^^^ (d >>> 1)) := by ac_rfl

theorem iterate_bit_add (n : ℕ) (c d : BitVec w) :
    (bit p)^[n] (c ^^^ d) = (bit p)^[n] c ^^^ (bit p)^[n] d := by
  induction n generalizing c d with
  | zero => rfl
  | succ n ih => rw [iterate_succ_apply, bit_add, ih, iterate_succ_apply, iterate_succ_apply]

/-- Bits that are not set only leave. -/
theorem iterate_bit_of_clear {n : ℕ} {c : BitVec w} (h : ∀ i < n, c.getLsbD i = false) :
    (bit p)^[n] c = c >>> n := by
  induction n generalizing c with
  | zero => simp
  | succ n ih =>
    have hstep : bit p c = c >>> 1 := by rw [bit, h 0 (Nat.succ_pos n), if_neg Bool.false_ne_true]
    have hrest : ∀ i < n, (c >>> 1).getLsbD i = false := fun i hi => by
      rw [BitVec.getLsbD_ushiftRight]
      exact h (1 + i) (by omega)
    rw [iterate_succ_apply, hstep, ih hrest, ← BitVec.shiftRight_add, Nat.add_comm]

/-- The low bits decide what is added, and the others move down. -/
theorem iterate_bit_eq_table {n : ℕ} {mask : BitVec w}
    (hmask : ∀ i < w, mask.getLsbD i = decide (i < n)) (c : BitVec w) :
    (bit p)^[n] c = (bit p)^[n] (c &&& mask) ^^^ (c >>> n) := by
  have hsplit : c = (c &&& mask) ^^^ (c &&& ~~~mask) := by
    refine BitVec.eq_of_getLsbD_eq fun i hi => ?_
    simp only [BitVec.getLsbD_xor, BitVec.getLsbD_and, BitVec.getLsbD_not, hi, decide_true,
      Bool.true_and]
    cases c.getLsbD i <;> cases mask.getLsbD i <;> rfl
  have hclear : ∀ i < n, (c &&& ~~~mask).getLsbD i = false := fun i hi => by
    rcases Nat.lt_or_ge i w with hw | hw
    · simp [hw, hmask i hw, hi]
    · exact BitVec.getLsbD_of_ge _ _ hw
  have hshift : (c &&& ~~~mask) >>> n = c >>> n := by
    refine BitVec.eq_of_getLsbD_eq fun i hi => ?_
    simp only [BitVec.getLsbD_ushiftRight, BitVec.getLsbD_and]
    rcases Nat.lt_or_ge (n + i) w with hw | hw
    · rw [BitVec.getLsbD_not, hmask _ hw]
      simp [hw]
    · rw [BitVec.getLsbD_of_ge c _ hw, Bool.false_and]
  conv_lhs => rw [hsplit, iterate_bit_add, iterate_bit_of_clear hclear, hshift]

/-- All bits of a byte leave. -/
theorem setWidth_ushiftRight_eight (b : UInt8) : (b.toBitVec.setWidth w) >>> 8 = 0#w := by
  refine BitVec.eq_of_getLsbD_eq fun i _ => ?_
  rw [BitVec.getLsbD_ushiftRight, BitVec.getLsbD_setWidth,
    BitVec.getLsbD_of_ge _ _ (Nat.le_add_right 8 i), Bool.and_false, BitVec.getLsbD_zero]

/-- The bits of a byte all leave: it only decides what is added. -/
theorem byte_eq_table {mask : BitVec w} (hmask : ∀ i < w, mask.getLsbD i = decide (i < 8))
    (c : BitVec w) (b : UInt8) :
    byte p c b = (bit p)^[8] ((c ^^^ b.toBitVec.setWidth w) &&& mask) ^^^ (c >>> 8) := by
  rw [byte, iterate_bit_eq_table hmask, BitVec.ushiftRight_xor_distrib,
    setWidth_ushiftRight_eight, BitVec.xor_zero]

/-! ## Bit by bit -/

/-- A bit leaves the state along with one of the message, adding the polynomial if they differ. -/
def serial (p c : BitVec w) (b : Bool) : BitVec w :=
  if c.getLsbD 0 ^^ b then p ^^^ (c >>> 1) else c >>> 1

/-- The bits of a byte, the lowest first. -/
def lowBits (b : UInt8) : List Bool := (List.range 8).map b.toBitVec.getLsbD

/-- What is added to the state may be added in part when the lowest bit leaves. -/
theorem bit_xor_eq_serial (c x : BitVec w) :
    bit p (c ^^^ x) = serial p c (x.getLsbD 0) ^^^ (x >>> 1) := by
  simp only [bit, serial, BitVec.getLsbD_xor, BitVec.ushiftRight_xor_distrib]
  split_ifs
  · exact (BitVec.xor_assoc _ _ _).symm
  · rfl

/-- What is added to the state may be added bit by bit. -/
theorem iterate_bit_xor (n : ℕ) (c x : BitVec w) :
    (bit p)^[n] (c ^^^ x) = ((List.range n).map x.getLsbD).foldl (serial p) c ^^^ (x >>> n) := by
  induction n generalizing c x with
  | zero => simp
  | succ n ih =>
    have hrest : (List.range n).map (x >>> 1).getLsbD =
        (List.range n).map (x.getLsbD ∘ Nat.succ) := by
      refine List.map_congr_left fun i _ => ?_
      rw [BitVec.getLsbD_ushiftRight, Nat.add_comm]
      rfl
    rw [iterate_succ_apply, bit_xor_eq_serial, ih, hrest, List.range_succ_eq_map, List.map_cons,
      List.map_map, List.foldl_cons, ← BitVec.shiftRight_add, Nat.add_comm]

/-- A byte is added as its bits are, in a state of a byte at least. -/
theorem byte_eq_serial (hw : 8 ≤ w) (c : BitVec w) (b : UInt8) :
    byte p c b = (lowBits b).foldl (serial p) c := by
  have hbits : (List.range 8).map (b.toBitVec.setWidth w).getLsbD = lowBits b := by
    refine List.map_congr_left fun i hi => ?_
    have hlt : i < w := Nat.lt_of_lt_of_le (List.mem_range.1 hi) hw
    rw [BitVec.getLsbD_setWidth, decide_eq_true hlt, Bool.true_and]
  rw [byte, iterate_bit_xor, hbits, setWidth_ushiftRight_eight, BitVec.xor_zero]

/-- So are the bytes of a message. -/
theorem foldl_byte_eq_serial (hw : 8 ≤ w) (c : BitVec w) (data : List UInt8) :
    data.foldl (byte p) c = (data.flatMap lowBits).foldl (serial p) c := by
  induction data generalizing c with
  | nil => rfl
  | cons b data ih =>
    rw [List.foldl_cons, List.flatMap_cons, List.foldl_append, byte_eq_serial hw, ih]

/-! ## Detection -/

/-- With the top bit, a bit that leaves is not lost. -/
theorem injective_bit (hp : p.msb = true) : Injective (bit p) := by
  have hker : ∀ c : BitVec w, bit p c = 0#w → c = 0#w := by
    intro c hc
    rw [bit] at hc
    split_ifs at hc with hlow
    · -- The top bit of the shifted state is clear, that of the polynomial is not.
      rw [BitVec.xor_eq_zero_iff] at hc
      rw [hc, BitVec.msb_eq_getLsbD_last, BitVec.getLsbD_ushiftRight] at hp
      rw [BitVec.getLsbD_of_ge c _ (by omega)] at hp
      cases hp
    · refine BitVec.eq_of_getLsbD_eq fun i hi => ?_
      rw [BitVec.getLsbD_zero]
      cases i with
      | zero => exact Bool.eq_false_iff.2 hlow
      | succ i =>
        have hbit := congrArg (·.getLsbD i) hc
        simpa [Nat.add_comm] using hbit
  intro c d h
  refine BitVec.xor_eq_zero_iff.1 (hker _ ?_)
  rw [bit_add, BitVec.xor_eq_zero_iff]
  exact h

/-- The state before a byte can be told from that after it. -/
theorem injective_byte_state (hp : p.msb = true) (b : UInt8) : Injective (byte p · b) :=
  fun _ _ h => (BitVec.xor_left_inj _).1 ((injective_bit hp).iterate 8 h)

/-- So can the byte. -/
theorem injective_byte (hp : p.msb = true) (hw : 8 ≤ w) (c : BitVec w) : Injective (byte p c) := by
  intro a b h
  have hbits := (BitVec.xor_right_inj _).1 ((injective_bit hp).iterate 8 h)
  have hnat := congrArg BitVec.toNat hbits
  rw [BitVec.toNat_setWidth_of_le hw, BitVec.toNat_setWidth_of_le hw] at hnat
  exact UInt8.toNat_inj.1 hnat

/-- A change of one byte changes the state after the message. -/
theorem foldl_byte_ne (hp : p.msb = true) (hw : 8 ≤ w) (c : BitVec w) (xs ys : List UInt8)
    {a b : UInt8} (hab : a ≠ b) :
    (xs ++ a :: ys).foldl (byte p) c ≠ (xs ++ b :: ys).foldl (byte p) c :=
  foldl_ne (injective_byte_state hp) (injective_byte hp hw) c xs ys hab

end Crc
