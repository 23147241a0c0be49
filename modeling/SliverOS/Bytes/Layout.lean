import SliverOS.Bytes.Memory

/-!
# Layouts of records

A packed record is its fields one after the other (`recordImage`): numbers, the
low byte first, and texts in arrays of bytes, zeros after them. It is read field
by field, each at its offset: a number, if the bytes go that far (`number?`), and
a text up to the first zero (`zString`).

* `reads_recordImage`: fields that fit are read back at the sums of the widths
  of those before them, wherever the record starts.
-/

namespace Bytes

/-! ## Fields -/

/-- A field of a packed record: a number in some bytes, or a text in an array of
    some length. -/
inductive Field
  | number (w v : ℕ)
  | text (n : ℕ) (bs : List UInt8)

namespace Field

/-- An unsigned number of 8 bits. -/
def u8 (x : UInt8) : Field := number 1 x.toNat

/-- An unsigned number of 16 bits. -/
def u16 (x : UInt16) : Field := number 2 x.toNat

/-- An unsigned number of 32 bits. -/
def u32 (x : UInt32) : Field := number 4 x.toNat

/-- A signed number of 16 bits, in two's complement. -/
def i16 (x : Int16) : Field := u16 x.toUInt16

/-- The bytes a field takes. -/
def width : Field → ℕ
  | number w _ => w
  | text n _ => n

@[simp] theorem width_u8 (x : UInt8) : (u8 x).width = 1 := rfl

@[simp] theorem width_u16 (x : UInt16) : (u16 x).width = 2 := rfl

@[simp] theorem width_u32 (x : UInt32) : (u32 x).width = 4 := rfl

@[simp] theorem width_i16 (x : Int16) : (i16 x).width = 2 := rfl

/-- The bytes of a field: those of a text are cut to the array, and zeros after. -/
def image : Field → List UInt8
  | number w v => toLE w v
  | text n bs => bs.take n ++ List.replicate (n - bs.length) 0

/-- The bytes of a field are enough for its value. -/
def Fits : Field → Prop
  | number w v => v < 256 ^ w
  | text n bs => bs.length ≤ n ∧ 0 ∉ bs

@[simp] theorem fits_u8 (x : UInt8) : (u8 x).Fits := x.toNat_lt

@[simp] theorem fits_u16 (x : UInt16) : (u16 x).Fits := x.toNat_lt

@[simp] theorem fits_u32 (x : UInt32) : (u32 x).Fits := x.toNat_lt

@[simp] theorem fits_i16 (x : Int16) : (i16 x).Fits := fits_u16 _

@[simp] theorem length_image (f : Field) : f.image.length = f.width := by
  cases f with
  | number w v => exact length_toLE w v
  | text n bs =>
    rw [image, width, List.length_append, List.length_take, List.length_replicate]
    omega

end Field

/-- The bytes of some fields, one after the other. -/
def recordImage (fields : List Field) : List UInt8 := fields.flatMap Field.image

theorem length_recordImage (fields : List Field) :
    (recordImage fields).length = (fields.map Field.width).sum := by
  simp [recordImage, List.length_flatMap]

/-! ## Reading -/

/-- The number in the `w` bytes at an offset, if there are so many. -/
def number? (w offset : ℕ) (bs : List UInt8) : Option ℕ :=
  if offset + w ≤ bs.length then some (ofLE ((bs.drop offset).take w)) else none

/-- The text at an offset: the bytes there up to the first zero, at most `n` of them. -/
def zString (n offset : ℕ) (bs : List UInt8) : List UInt8 :=
  ((bs.drop offset).take n).takeWhile (· ≠ 0)

/-- A field is what is read at an offset. -/
def Field.ReadAt (bs : List UInt8) (offset : ℕ) : Field → Prop
  | number w v => number? w offset bs = some v
  | text n t => zString n offset bs = t

/-- Fields are what is read from an offset on, each after the one before it. -/
def Reads (bs : List UInt8) : ℕ → List Field → Prop
  | _, [] => True
  | offset, f :: fields => f.ReadAt bs offset ∧ Reads bs (offset + f.width) fields

@[simp] theorem Field.readAt_u8 {bs : List UInt8} {offset : ℕ} {x : UInt8} :
    (u8 x).ReadAt bs offset ↔ number? 1 offset bs = some x.toNat := .rfl

@[simp] theorem Field.readAt_u16 {bs : List UInt8} {offset : ℕ} {x : UInt16} :
    (u16 x).ReadAt bs offset ↔ number? 2 offset bs = some x.toNat := .rfl

@[simp] theorem Field.readAt_u32 {bs : List UInt8} {offset : ℕ} {x : UInt32} :
    (u32 x).ReadAt bs offset ↔ number? 4 offset bs = some x.toNat := .rfl

@[simp] theorem Field.readAt_i16 {bs : List UInt8} {offset : ℕ} {x : Int16} :
    (i16 x).ReadAt bs offset ↔ number? 2 offset bs = some x.toUInt16.toNat := .rfl

@[simp] theorem reads_nil (bs : List UInt8) (offset : ℕ) : Reads bs offset [] := trivial

@[simp] theorem reads_cons {bs : List UInt8} {offset : ℕ} {f : Field} {fields : List Field} :
    Reads bs offset (f :: fields) ↔ f.ReadAt bs offset ∧ Reads bs (offset + f.width) fields := .rfl

variable {before rest : List UInt8}

/-- A field that fits is read back. -/
theorem Field.Fits.readAt {f : Field} (h : f.Fits) :
    f.ReadAt (before ++ (f.image ++ rest)) before.length := by
  cases f with
  | number w v =>
    have hlen : before.length + w ≤ (before ++ (toLE w v ++ rest)).length := by
      simp only [List.length_append, length_toLE]
      omega
    rw [ReadAt, image, number?, if_pos hlen, List.drop_left, List.take_left' (length_toLE w v),
      ofLE_toLE, Nat.mod_eq_of_lt h]
  | text n t =>
    obtain ⟨hlen, hzero⟩ := h
    have hne : ∀ b ∈ t, decide (b ≠ 0) = true := fun b hb =>
      decide_eq_true fun hb0 => hzero (hb0 ▸ hb)
    have hlen' : (image (text n t)).length = n := length_image (text n t)
    rw [ReadAt, zString, List.drop_left, List.take_left' hlen', image,
      List.take_of_length_le hlen, List.takeWhile_append_of_pos hne]
    -- What is after the text starts with a zero, or is empty.
    cases n - t.length <;> simp [List.replicate_succ]

/-- The fields of a record that fit are read back, wherever it starts. -/
theorem reads_recordImage {fields : List Field} (h : ∀ f ∈ fields, f.Fits) :
    Reads (before ++ (recordImage fields ++ rest)) before.length fields := by
  induction fields generalizing before with
  | nil => exact trivial
  | cons f fields ih =>
    obtain ⟨hf, hfields⟩ := List.forall_mem_cons.1 h
    rw [recordImage, List.flatMap_cons, List.append_assoc]
    refine ⟨hf.readAt, ?_⟩
    have hnext : Reads ((before ++ f.image) ++ (recordImage fields ++ rest))
        (before ++ f.image).length fields := ih hfields
    rwa [List.append_assoc, List.length_append, Field.length_image] at hnext

/-- The fields of a record at the start are read back. -/
theorem reads_recordImage_zero {fields : List Field} (h : ∀ f ∈ fields, f.Fits) :
    Reads (recordImage fields ++ rest) 0 fields :=
  @reads_recordImage [] rest fields h

end Bytes
