import Mathlib

/-!
# Bursts

The CRC of a polynomial, most significant bit first: every bit of the message is added
to the top of the state, from which it leaves, adding the polynomial if the bit that
leaves is set (`shift`, `step`).

A message no longer than the state is added to it as a whole (`foldl_step`). So two
messages that differ in a burst no longer than the state (`Burst`) have different
states at its end, and after any further bits, as no step loses information if the
polynomial has its lowest bit: `foldl_step_ne`.
-/

namespace Crc

open Function

/-- Two messages of the same length differ, and only within the `n` bits from `k` on. -/
structure Burst (n k : ℕ) (xs ys : List Bool) : Prop where
  length_eq : ys.length = xs.length
  ne : ys ≠ xs
  within : ∀ i, ys[i]? ≠ xs[i]? → k ≤ i ∧ i < k + n

/-- It is enough to look at the bits that there are. -/
theorem burst_iff {n k : ℕ} {xs ys : List Bool} : Burst n k xs ys ↔
    ys.length = xs.length ∧ ys ≠ xs ∧ ∀ i < xs.length, ys[i]? ≠ xs[i]? → k ≤ i ∧ i < k + n := by
  refine ⟨fun ⟨hlen, hne, hwithin⟩ => ⟨hlen, hne, fun i _ => hwithin i⟩,
    fun ⟨hlen, hne, hwithin⟩ => ⟨hlen, hne, fun i hi => hwithin i ?_ hi⟩⟩
  by_contra hge
  rw [List.getElem?_eq_none (by omega), List.getElem?_eq_none (by omega)] at hi
  exact hi rfl

instance (n k : ℕ) (xs ys : List Bool) : Decidable (Burst n k xs ys) :=
  decidable_of_iff' _ burst_iff

variable {w : ℕ} {p : BitVec w}

/-- The top bit of the state leaves, adding the polynomial if it is set. -/
def shift (p c : BitVec w) : BitVec w := if c.msb then (c <<< 1) ^^^ p else c <<< 1

/-- The state with a bit at the top. -/
def top (b : Bool) : BitVec w := if b then BitVec.twoPow w (w - 1) else 0#w

/-- A bit of the message is added to the top of the state, and leaves. -/
def step (p c : BitVec w) (b : Bool) : BitVec w := shift p (c ^^^ top b)

/-- The state with the bits of a message from the top down. -/
def word : List Bool → BitVec w
  | [] => 0#w
  | b :: bs => top b ^^^ (word bs >>> 1)

theorem getMsbD_top (hw : 0 < w) (b : Bool) (i : ℕ) :
    (top b : BitVec w).getMsbD i = (decide (i = 0) && b) := by
  rw [top]
  cases b with
  | false => simp
  | true =>
    have hlast : w - (w - 1) - 1 = 0 := by omega
    rw [if_pos rfl, BitVec.getMsbD_twoPow, hlast, decide_eq_true (by omega : w - 1 < w),
      Bool.true_and, Bool.and_true]

theorem getMsbD_word {bs : List Bool} {i : ℕ} (hi : i < w) :
    (word bs : BitVec w).getMsbD i = bs.getD i false := by
  induction bs generalizing i with
  | nil => simp [word]
  | cons b bs ih =>
    rw [word, BitVec.getMsbD_xor, getMsbD_top (by omega), BitVec.getMsbD_ushiftRight]
    cases i with
    | zero => simp
    | succ i => simp [ih (Nat.lt_of_succ_lt hi), hi]

/-! ## Linearity -/

theorem shift_add (c d : BitVec w) : shift p (c ^^^ d) = shift p c ^^^ shift p d := by
  simp only [shift, BitVec.msb_xor, BitVec.shiftLeft_xor_distrib]
  cases c.msb <;> cases d.msb
  · rfl
  · exact BitVec.xor_assoc ..
  · change (c <<< 1) ^^^ (d <<< 1) ^^^ p = (c <<< 1) ^^^ p ^^^ (d <<< 1)
    ac_rfl
  · calc (c <<< 1) ^^^ (d <<< 1)
        = (c <<< 1) ^^^ (d <<< 1) ^^^ (p ^^^ p) := by rw [BitVec.xor_self, BitVec.xor_zero]
      _ = ((c <<< 1) ^^^ p) ^^^ ((d <<< 1) ^^^ p) := by ac_rfl

/-- With the lowest bit, a bit that leaves is not lost. -/
theorem injective_shift (hp : p.getLsbD 0 = true) : Injective (shift p) := by
  have hw : 0 < w := BitVec.lt_of_getLsbD hp
  have hlow (c : BitVec w) : (shift p c).getLsbD 0 = c.msb := by
    rw [shift]
    cases c.msb <;> simp [hp]
  have hker (c : BitVec w) (hc : shift p c = 0#w) : c = 0#w := by
    have hmsb : c.msb = false := by rw [← hlow, hc, BitVec.getLsbD_zero]
    rw [shift, hmsb, if_neg Bool.false_ne_true] at hc
    refine BitVec.eq_of_getMsbD_eq fun i hi => ?_
    rw [BitVec.getMsbD_zero]
    cases i with
    | zero => rwa [← BitVec.msb_eq_getMsbD_zero]
    | succ i => simpa using congrArg (·.getMsbD i) hc
  intro c d h
  refine BitVec.xor_eq_zero_iff.1 (hker _ ?_)
  rw [shift_add, BitVec.xor_eq_zero_iff]
  exact h

/-! ## Messages -/

/-- A message no longer than the state is added to it as a whole. -/
theorem foldl_step {bs : List Bool} (h : bs.length ≤ w) (c : BitVec w) :
    bs.foldl (step p) c = (shift p)^[bs.length] (c ^^^ word bs) := by
  induction bs generalizing c with
  | nil => simp [word]
  | cons b bs ih =>
    rw [List.length_cons] at h
    -- What is after the first bit has not moved up yet.
    have hnext : shift p (word bs >>> 1 : BitVec w) = word bs := by
      rw [shift, BitVec.msb_eq_getMsbD_zero, BitVec.getMsbD_ushiftRight]
      rw [if_neg (by simp)]
      refine BitVec.eq_of_getMsbD_eq fun i hi => ?_
      rw [BitVec.getMsbD_shiftLeft, BitVec.getMsbD_ushiftRight, getMsbD_word hi]
      by_cases hlast : i + 1 < w
      · simp [hlast, getMsbD_word hi]
      · rw [decide_eq_false hlast, Bool.false_and, List.getD_eq_default _ _ (by omega)]
    rw [List.foldl_cons, ih (by omega), step, List.length_cons, iterate_succ_apply, word,
      ← BitVec.xor_assoc, shift_add _ (word bs >>> 1), hnext]

/-- The states after two messages differ by what the bits that differ add to them. -/
theorem foldl_step_add {xs ys : List Bool} (h : ys.length = xs.length) (c d : BitVec w) :
    xs.foldl (step p) c ^^^ ys.foldl (step p) d =
      (List.zipWith (· ^^ ·) xs ys).foldl (step p) (c ^^^ d) := by
  induction xs generalizing ys c d with
  | nil => rw [List.length_eq_zero_iff.1 h]; rfl
  | cons x xs ih =>
    cases ys with
    | nil => cases h
    | cons y ys =>
      have htop : (top x ^^^ top y : BitVec w) = top (x ^^ y) := by
        cases x <;> cases y <;> simp [top]
      rw [List.foldl_cons, List.foldl_cons, ih (Nat.succ.inj h), List.zipWith_cons_cons,
        List.foldl_cons, step, step, ← shift_add, step, ← htop]
      congr 2
      ac_rfl

/-! ## Detection -/

@[simp] theorem shift_zero : shift p 0#w = 0#w := by simp [shift]

/-- Bits that are not set only move the state. -/
theorem foldl_step_of_clear {bs : List Bool} (h : ∀ b ∈ bs, b = false) (c : BitVec w) :
    bs.foldl (step p) c = (shift p)^[bs.length] c := by
  induction bs generalizing c with
  | nil => rfl
  | cons b bs ih =>
    rw [List.forall_mem_cons] at h
    rw [List.foldl_cons, ih h.2, step, h.1, List.length_cons, iterate_succ_apply]
    simp [top]

/-- A message that is not clear, and no longer than the state, does not leave it clear. -/
theorem foldl_step_zero_ne (hp : p.getLsbD 0 = true) {bs : List Bool} (hlen : bs.length ≤ w)
    (hset : true ∈ bs) : bs.foldl (step p) 0#w ≠ 0#w := by
  have hinj : Injective (shift p)^[bs.length] := (injective_shift hp).iterate _
  have hzero : (shift p)^[bs.length] 0#w = 0#w := iterate_fixed shift_zero _
  rw [foldl_step hlen, BitVec.zero_xor, ← hzero]
  intro h
  obtain ⟨i, hi, hb⟩ := List.getElem_of_mem hset
  have hbit := congrArg (·.getMsbD i) (hinj h)
  simp [getMsbD_word (Nat.lt_of_lt_of_le hi hlen), hi, hb] at hbit

/-- A burst no longer than the state is detected: the states after the two messages differ. -/
theorem foldl_step_ne (hp : p.getLsbD 0 = true) {n k : ℕ} (hn : n ≤ w) {xs ys : List Bool}
    (h : Burst n k xs ys) (c : BitVec w) : ys.foldl (step p) c ≠ xs.foldl (step p) c := by
  obtain ⟨hlen, hne, hwithin⟩ := h
  rw [Ne, ← BitVec.xor_eq_zero_iff, foldl_step_add hlen.symm, BitVec.xor_self]
  -- The bits that differ, before, in and after the window.
  generalize hes : List.zipWith (· ^^ ·) ys xs = es
  have hbit (i : ℕ) (hi : es[i]? = some true) : k ≤ i ∧ i < k + n := by
    refine hwithin i fun heq => ?_
    rw [← hes, List.getElem?_zipWith, heq] at hi
    cases hx : xs[i]? <;> simp [hx] at hi
  have hset : true ∈ es := by
    by_contra hnone
    refine hne (List.ext_getElem hlen fun i hy hx => ?_)
    subst hes
    have hi : i < (List.zipWith (· ^^ ·) ys xs).length := by simp [hy, hx]
    have hclear (htrue : (List.zipWith (· ^^ ·) ys xs)[i] = true) : False :=
      hnone (htrue ▸ List.getElem_mem hi)
    simpa using hclear
  have hbefore : ∀ b ∈ es.take k, b = false := fun b hb => by
    by_contra htrue
    obtain ⟨i, hi, rfl⟩ := List.getElem_of_mem hb
    rw [Bool.not_eq_false, List.getElem_take] at htrue
    have := hbit i (List.getElem?_eq_some_iff.2 ⟨_, htrue⟩)
    simp only [List.length_take] at hi
    omega
  have hafter : ∀ b ∈ (es.drop k).drop n, b = false := fun b hb => by
    by_contra htrue
    obtain ⟨i, hi, rfl⟩ := List.getElem_of_mem hb
    rw [Bool.not_eq_false, List.getElem_drop, List.getElem_drop] at htrue
    have := hbit (k + (n + i)) (List.getElem?_eq_some_iff.2 ⟨_, htrue⟩)
    omega
  have hsplit : es = es.take k ++ ((es.drop k).take n ++ (es.drop k).drop n) := by simp
  have hin : true ∈ (es.drop k).take n := by
    rw [hsplit, List.mem_append, List.mem_append] at hset
    rcases hset with hset | hset | hset
    · cases hbefore _ hset
    · exact hset
    · cases hafter _ hset
  rw [hsplit, List.foldl_append, List.foldl_append, foldl_step_of_clear hbefore,
    iterate_fixed shift_zero, foldl_step_of_clear hafter]
  have hlen : ((es.drop k).take n).length ≤ w := (List.length_take_le _ _).trans hn
  have hinj : Injective (shift p)^[((es.drop k).drop n).length] := (injective_shift hp).iterate _
  have hfinal := hinj.ne (foldl_step_zero_ne hp hlen hin)
  rwa [iterate_fixed shift_zero] at hfinal

/-! ## Bytes -/

/-- The bits of a byte, the most significant first. -/
def byteBits (b : UInt8) : List Bool := (List.range 8).map b.toBitVec.getMsbD

/-- The bits of some bytes, one after the other. -/
def bits (bs : List UInt8) : List Bool := bs.flatMap byteBits

@[simp] theorem length_byteBits (b : UInt8) : (byteBits b).length = 8 := by simp [byteBits]

@[simp] theorem bits_nil : bits [] = [] := rfl

@[simp] theorem bits_cons (b : UInt8) (bs : List UInt8) : bits (b :: bs) = byteBits b ++ bits bs :=
  List.flatMap_cons

@[simp] theorem bits_append (xs ys : List UInt8) : bits (xs ++ ys) = bits xs ++ bits ys :=
  List.flatMap_append

theorem length_bits (bs : List UInt8) : (bits bs).length = 8 * bs.length := by
  induction bs with
  | nil => rfl
  | cons b bs ih =>
    rw [bits_cons, List.length_append, length_byteBits, ih, List.length_cons]
    omega

theorem getElem?_byteBits (b : UInt8) {r : ℕ} (hr : r < 8) :
    (byteBits b)[r]? = some (b.toBitVec.getMsbD r) := by
  simp [byteBits, hr]

theorem getElem?_bits (bs : List UInt8) (j : ℕ) {r : ℕ} (hr : r < 8) :
    (bits bs)[8 * j + r]? = bs[j]?.map (·.toBitVec.getMsbD r) := by
  induction bs generalizing j with
  | nil => simp
  | cons b bs ih =>
    rw [bits_cons]
    cases j with
    | zero =>
      rw [List.getElem?_append_left (by simpa using hr), Nat.mul_zero, Nat.zero_add,
        getElem?_byteBits b hr]
      rfl
    | succ j =>
      have hrest : 8 * (j + 1) + r - (byteBits b).length = 8 * j + r := by
        rw [length_byteBits]
        omega
      rw [List.getElem?_append_right (by rw [length_byteBits]; omega), hrest, ih,
        List.getElem?_cons_succ]

/-- A byte apart from the window of a burst is not changed. -/
theorem Burst.getElem?_eq {n k : ℕ} {xs ys : List UInt8} (h : Burst n k (bits xs) (bits ys)) {j : ℕ}
    (hj : 8 * j + 8 ≤ k ∨ k + n ≤ 8 * j) : ys[j]? = xs[j]? := by
  have hlen : ys.length = xs.length := by
    have := h.length_eq
    rw [length_bits, length_bits] at this
    omega
  have hbit (r : ℕ) (hr : r < 8) : ys[j]?.map (·.toBitVec.getMsbD r) =
      xs[j]?.map (·.toBitVec.getMsbD r) := by
    rw [← getElem?_bits ys j hr, ← getElem?_bits xs j hr]
    by_contra hne
    have := h.within _ hne
    omega
  by_cases hin : j < xs.length
  · simp only [List.getElem?_eq_getElem hin, List.getElem?_eq_getElem (hlen.symm ▸ hin),
      Option.map_some, Option.some.injEq] at hbit ⊢
    exact UInt8.toBitVec_inj.1 (BitVec.eq_of_getMsbD_eq hbit)
  · rw [List.getElem?_eq_none (by omega), List.getElem?_eq_none (by omega)]

/-- What is before a burst may be left out. -/
theorem Burst.of_append {n k : ℕ} {zs xs ys : List Bool} (h : Burst n k (zs ++ xs) (zs ++ ys)) :
    Burst n (k - zs.length) xs ys where
  length_eq := by simpa using h.length_eq
  ne heq := h.ne (by rw [heq])
  within i hi := by
    have := h.within (zs.length + i) (by simpa [List.getElem?_append_right] using hi)
    omega

end Crc
