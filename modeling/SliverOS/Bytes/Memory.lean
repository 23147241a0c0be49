import Mathlib

/-!
# Numbers as bytes, and memories

Numbers are stored as bytes, the low one first (`toLE`, `ofLE`), and records as
the bytes of their fields, one after the other (`pack`, `unpack`).

A memory gives a byte to every address. A run of bytes is read with `slice` and
written with `blit`: what was written is read back (`slice_blit_self`), and what
does not overlap it is read as before (`slice_blit_of_apart`).
-/

namespace Bytes

/-! ## Little-endian numbers -/

/-- The `n` low bytes of a number, the lowest first. -/
def toLE : ℕ → ℕ → List UInt8
  | 0, _ => []
  | n + 1, v => UInt8.ofNat v :: toLE n (v / 256)

/-- The number of some bytes, the lowest first. -/
def ofLE : List UInt8 → ℕ
  | [] => 0
  | b :: bs => b.toNat + 256 * ofLE bs

@[simp] theorem length_toLE (n v : ℕ) : (toLE n v).length = n := by
  induction n generalizing v with
  | zero => rfl
  | succ n ih => simp [toLE, ih]

/-- A number is stored modulo the range of its bytes. -/
theorem ofLE_toLE (n v : ℕ) : ofLE (toLE n v) = v % 256 ^ n := by
  induction n generalizing v with
  | zero => simp [toLE, ofLE, Nat.mod_one]
  | succ n ih =>
    rw [toLE, ofLE, ih, Nat.pow_succ', Nat.mod_mul]
    simp

theorem ofLE_lt (bs : List UInt8) : ofLE bs < 256 ^ bs.length := by
  induction bs with
  | nil => simp [ofLE]
  | cons b bs ih =>
    have := b.toNat_lt
    rw [ofLE, List.length_cons, Nat.pow_succ]
    omega

/-- As many bytes with the same number are the same. -/
theorem ofLE_inj {bs cs : List UInt8} (hlen : bs.length = cs.length) (h : ofLE bs = ofLE cs) :
    bs = cs := by
  induction bs generalizing cs with
  | nil => exact (List.length_eq_zero_iff.1 hlen.symm).symm
  | cons b bs ih =>
    cases cs with
    | nil => cases hlen
    | cons c cs =>
      rw [ofLE, ofLE] at h
      have hb := b.toNat_lt
      have hc := c.toNat_lt
      have hhead : b = c := UInt8.toNat_inj.1 (by omega)
      rw [hhead, ih (Nat.succ.inj hlen) (by omega)]

theorem ofLE_append (bs cs : List UInt8) :
    ofLE (bs ++ cs) = ofLE bs + 256 ^ bs.length * ofLE cs := by
  induction bs with
  | nil => simp [ofLE]
  | cons b bs ih =>
    rw [List.cons_append, ofLE, ofLE, ih, List.length_cons, Nat.pow_succ']
    ring

/-- A number grows with its bytes. -/
theorem ofLE_mono {bs cs : List UInt8} (h : List.Forall₂ (· ≤ ·) bs cs) : ofLE bs ≤ ofLE cs := by
  induction h with
  | nil => exact Nat.le_refl _
  | cons hbc _ ih =>
    have hle := UInt8.le_iff_toNat_le.1 hbc
    rw [ofLE, ofLE]
    omega

theorem ofLE_take_lt (w : ℕ) (bs : List UInt8) : ofLE (bs.take w) < 256 ^ w :=
  Nat.lt_of_lt_of_le (ofLE_lt _) (Nat.pow_le_pow_right (by omega) (List.length_take_le _ _))

/-! ## Records -/

/-- The bytes of some fields of given widths, one after the other. -/
def pack : List (ℕ × ℕ) → List UInt8
  | [] => []
  | (w, v) :: fields => toLE w v ++ pack fields

/-- The fields of given widths read from some bytes. -/
def unpack : List ℕ → List UInt8 → List ℕ
  | [], _ => []
  | w :: ws, bs => ofLE (bs.take w) :: unpack ws (bs.drop w)

theorem length_pack (fields : List (ℕ × ℕ)) :
    (pack fields).length = (fields.map Prod.fst).sum := by
  induction fields with
  | nil => rfl
  | cons f fields ih => simp [pack, ih]

/-- Fields packed are unpacked modulo the ranges of their widths. -/
theorem unpack_pack_append (fields : List (ℕ × ℕ)) (bs : List UInt8) :
    unpack (fields.map Prod.fst) (pack fields ++ bs) =
      fields.map fun f => f.2 % 256 ^ f.1 := by
  induction fields with
  | nil => rfl
  | cons f fields ih =>
    obtain ⟨w, v⟩ := f
    rw [List.map_cons, pack, List.append_assoc, unpack, List.take_left' (length_toLE w v),
      List.drop_left' (length_toLE w v), ih, ofLE_toLE]
    rfl

theorem unpack_pack (fields : List (ℕ × ℕ)) :
    unpack (fields.map Prod.fst) (pack fields) = fields.map fun f => f.2 % 256 ^ f.1 := by
  simpa using unpack_pack_append fields []

/-! ## Memories -/

/-- A byte at every address. -/
abbrev Memory := ℕ → UInt8

/-- The `n` bytes of a memory from an address on. -/
def slice (m : Memory) (a n : ℕ) : List UInt8 := (List.range n).map fun i => m (a + i)

/-- The memory with some bytes written from an address on. -/
def blit (m : Memory) (a : ℕ) (bs : List UInt8) : Memory := fun x =>
  if a ≤ x ∧ x < a + bs.length then bs.getD (x - a) 0 else m x

@[simp] theorem length_slice (m : Memory) (a n : ℕ) : (slice m a n).length = n := by
  simp [slice]

theorem slice_congr {m m' : Memory} {a n : ℕ} (h : ∀ x, a ≤ x → x < a + n → m x = m' x) :
    slice m a n = slice m' a n := by
  refine List.map_congr_left fun i hi => h _ (Nat.le_add_right _ _) ?_
  have := List.mem_range.1 hi
  omega

theorem slice_append (m : Memory) (a n n' : ℕ) :
    slice m a (n + n') = slice m a n ++ slice m (a + n) n' := by
  simp [slice, List.range_add, Function.comp_def, Nat.add_assoc]

/-- The parts of a run of bytes that is known. -/
theorem slice_eq_append {m : Memory} {a n : ℕ} {xs ys : List UInt8}
    (h : slice m a (xs.length + n) = xs ++ ys) :
    slice m a xs.length = xs ∧ slice m (a + xs.length) n = ys :=
  List.append_inj ((slice_append m a xs.length n).symm.trans h) (length_slice m a xs.length)

/-- The first field of a record that is stored, and the others. -/
theorem slice_eq_pack_cons {m : Memory} {a w v n : ℕ} {fields : List (ℕ × ℕ)}
    (h : slice m a (w + n) = pack ((w, v) :: fields)) :
    slice m a w = toLE w v ∧ slice m (a + w) n = pack fields := by
  have hparts : slice m a (toLE w v).length = toLE w v ∧
      slice m (a + (toLE w v).length) n = pack fields :=
    slice_eq_append (by rwa [length_toLE])
  rwa [length_toLE] at hparts

theorem take_slice (m : Memory) (a n k : ℕ) : (slice m a n).take k = slice m a (min k n) := by
  rw [slice, ← List.map_take, List.take_range, slice]

theorem drop_slice (m : Memory) (a n k : ℕ) : (slice m a n).drop k = slice m (a + k) (n - k) := by
  rcases Nat.le_total k n with hk | hk
  · obtain ⟨l, rfl⟩ := Nat.exists_eq_add_of_le hk
    rw [slice_append, List.drop_left' (length_slice m a k), Nat.add_sub_cancel_left]
  · rw [List.drop_eq_nil_of_le (by simpa using hk), Nat.sub_eq_zero_of_le hk]
    rfl

/-- What was written is read back. -/
theorem slice_blit_self (m : Memory) (a : ℕ) (bs : List UInt8) :
    slice (blit m a bs) a bs.length = bs := by
  refine List.ext_getElem (by simp) fun i h₁ h₂ => ?_
  simp [slice, blit, h₂, List.getD_eq_getElem?_getD]

/-- A byte not written is read as before. -/
theorem blit_of_notMem {m : Memory} {a x : ℕ} {bs : List UInt8}
    (h : x < a ∨ a + bs.length ≤ x) : blit m a bs x = m x :=
  if_neg (by omega)

/-- A byte of a run, by its offset. -/
theorem getD_slice {m : Memory} {a n i : ℕ} (hi : i < n) (d : UInt8) :
    (slice m a n).getD i d = m (a + i) := by
  simp [slice, List.getD_eq_getElem?_getD, hi]

/-- Runs that are the same have the same bytes. -/
theorem eq_of_slice_eq {m m' : Memory} {a n x : ℕ} (h : slice m a n = slice m' a n)
    (hx : a ≤ x ∧ x < a + n) : m x = m' x := by
  have hbyte := congrArg (·.getD (x - a) 0) h
  rw [getD_slice (by omega), getD_slice (by omega), Nat.add_sub_cancel' hx.1] at hbyte
  exact hbyte

/-- A byte of a run, between those before it and those after it. -/
theorem slice_eq_append_cons (m : Memory) (a : ℕ) {i n : ℕ} (hi : i < n) :
    slice m a n = slice m a i ++ m (a + i) :: slice m (a + i + 1) (n - (i + 1)) := by
  obtain ⟨l, rfl⟩ := Nat.exists_eq_add_of_lt hi
  rw [Nat.add_assoc, slice_append, Nat.add_comm l 1, slice_append, Nat.add_sub_add_left,
    Nat.add_sub_cancel_left]
  rfl

/-- The start of a memory copied to another. -/
theorem blit_slice_zero {m m' : Memory} {n x : ℕ} (hx : x < n) :
    blit m 0 (slice m' 0 n) x = m' x := by
  rw [blit, if_pos (by simpa using hx), Nat.sub_zero, getD_slice hx, Nat.zero_add]

/-- Bytes apart from those written are read as before. -/
theorem slice_blit_of_apart {m : Memory} {a b n : ℕ} {bs : List UInt8}
    (h : a + bs.length ≤ b ∨ b + n ≤ a) : slice (blit m a bs) b n = slice m b n :=
  slice_congr fun _ _ _ => blit_of_notMem (by omega)

/-- What was written is read back after what was before it. -/
theorem slice_blit_append (m : Memory) (k : ℕ) (bs : List UInt8) :
    slice (blit m k bs) 0 (k + bs.length) = slice m 0 k ++ bs := by
  rw [slice_append, Nat.zero_add, slice_blit_self, slice_blit_of_apart (.inr (by omega))]

end Bytes
