import SliverOS.Bytes.Access
import SliverOS.Vfs.Record
import SliverOS.Vfs.Invariant

/-!
# What the validation of a record reads

`vfs_record_validate` as a computation that reads a buffer (`recordValidation`), with
the bytes that it looks at in the order of the code.

The length of the payload comes from the buffer, and the length of the record is
computed in `size_t`. In 32 bits, a length of the payload next to `2 ^ 32` makes a sum
that is small: the record is taken to fit, and the payload is read far beyond the
buffer. So the validation stays in the buffer, and accepts what is in it only, if and
only if the sum does not wrap around (`validatesInBounds_iff`).
-/

namespace SliverOS

open Bytes

namespace VfsBlock

/-- A field of four bytes. -/
def u32 (a : ℕ) : Access UInt32 := .read a 4 fun bs => UInt32.ofNat (ofLE bs)

/-- A field of two bytes. -/
def u16 (a : ℕ) : Access UInt16 := .read a 2 fun bs => UInt16.ofNat (ofLE bs)

/-- `vfs_record_validate`, with what it reads: the length of the payload. -/
def recordValidation (w : SizeT) (b : VfsBlock) (bufLen : ℕ) :
    Access (Except MkStatus ℕ × VfsBlock) :=
  if bufLen < VfsRecordHeader.size + 4 then return (.error .corrupted, b)
  else do
    let magic ← u32 0
    if magic ≠ recordMagic then return (.error .corrupted, b)
    else
      let version ← u16 4
      if version ≠ 1 then return (.error .corrupted, b)
      else
        let payloadLen ← u32 8
        let len := payloadLen.toNat
        if bufLen < w.wrap (VfsRecordHeader.size + len + 4) then return (.error .corrupted, b)
        else
          let payload ← .read VfsRecordHeader.size len id
          let (calcCrc, b) := b.vfsBlockCalcCrc32 payload
          let payloadCrc32 ← u32 12
          if calcCrc ≠ payloadCrc32 then return (.error .corrupted, b)
          else
            let commit ← u32 (VfsRecordHeader.size + len)
            if commit ≠ recordCommitMagic then return (.error .corrupted, b)
            else return (.ok len, b)

variable {w : SizeT} {b : VfsBlock} {buffer : Memory} {bufLen : ℕ}

@[simp] theorem value_u32 (a : ℕ) : (u32 a).value buffer = readU32 buffer a := rfl

@[simp] theorem value_u16 (a : ℕ) : (u16 a).value buffer = readU16 buffer a := rfl

@[simp] theorem addresses_u32 (a : ℕ) : (u32 a).addresses buffer = List.range' a 4 := rfl

@[simp] theorem addresses_u16 (a : ℕ) : (u16 a).addresses buffer = List.range' a 2 := rfl

/-- It computes what `vfs_record_validate` does. -/
theorem value_recordValidation (w : SizeT) (b : VfsBlock) (buffer : Memory) (bufLen : ℕ) :
    (b.recordValidation w bufLen).value buffer = b.vfsRecordValidate w buffer bufLen := by
  simp only [recordValidation, Access.value_ite, Access.value_bind, Access.value_pure]
  simp only [value_u32, value_u16, Access.value_read, id, vfsRecordValidate,
    VfsRecordHeader.ofMemory]
  -- The magic and the version are looked at one after the other.
  by_cases hmagic : readU32 buffer 0 = recordMagic
  · by_cases hversion : readU16 buffer 4 = 1
    · simp only [hmagic, hversion, ne_eq, not_true_eq_false, or_self, if_false]
      rfl
    · simp only [hmagic, hversion, ne_eq, not_true_eq_false, not_false_eq_true, or_true, if_true,
        if_false]
  · simp only [hmagic, ne_eq, not_false_eq_true, true_or, if_true]

/-- The buffer starts with the header of a record. -/
def HasHeader (buffer : Memory) (bufLen : ℕ) : Prop :=
  VfsRecordHeader.size + 4 ≤ bufLen ∧ (VfsRecordHeader.ofMemory buffer).magic = recordMagic ∧
    (VfsRecordHeader.ofMemory buffer).version = 1

/-- The payload has the CRC-32 of the header. -/
def HasCrc (b : VfsBlock) (buffer : Memory) : Prop :=
  (b.vfsBlockCalcCrc32 (slice buffer VfsRecordHeader.size
    (VfsRecordHeader.ofMemory buffer).payloadLen.toNat)).1 =
      (VfsRecordHeader.ofMemory buffer).payloadCrc32

/-- A record is in the buffer: its header, its payload with its CRC-32, and its marker. -/
structure HasRecord (b : VfsBlock) (buffer : Memory) (bufLen len : ℕ) : Prop where
  header : HasHeader buffer bufLen
  payloadLen : (VfsRecordHeader.ofMemory buffer).payloadLen.toNat = len
  room : VfsRecordHeader.size + len + 4 ≤ bufLen
  crc : HasCrc b buffer
  commit : readU32 buffer (VfsRecordHeader.size + len) = recordCommitMagic

/-- Only bytes of the buffer are read, and only what has a record in it is accepted. -/
structure ValidatesInBounds (w : SizeT) (b : VfsBlock) (buffer : Memory) (bufLen : ℕ) : Prop where
  reads : ∀ a ∈ (b.recordValidation w bufLen).addresses buffer, a < bufLen
  accepts : ∀ len, (b.vfsRecordValidate w buffer bufLen).1 = .ok len →
    HasRecord b buffer bufLen len

/-- Without a header, the bytes that it could be in are read at most. -/
theorem addresses_of_not_hasHeader (h : ¬HasHeader buffer bufLen) :
    ∀ a ∈ (b.recordValidation w bufLen).addresses buffer, a < bufLen := by
  intro a ha
  have hsize : VfsRecordHeader.size = 16 := rfl
  simp only [recordValidation, Access.addresses_ite, Access.addresses_bind,
    Access.addresses_pure] at ha
  simp only [value_u32, value_u16, addresses_u32, addresses_u16] at ha
  by_cases hshort : bufLen < VfsRecordHeader.size + 4
  · simp only [hshort, if_true] at ha
    cases ha
  by_cases hmagic : readU32 buffer 0 = recordMagic
  · have hversion : ¬readU16 buffer 4 = 1 := fun hv => h ⟨Nat.not_lt.1 hshort, hmagic, hv⟩
    simp only [hshort, hmagic, hversion, ne_eq, not_true_eq_false, not_false_eq_true, if_true,
      if_false, List.mem_append, List.mem_range'_1, List.append_nil] at ha
    omega
  · simp only [hshort, hmagic, ne_eq, not_false_eq_true, if_true, if_false, List.append_nil,
      List.mem_range'_1] at ha
    omega

/-- With a header, what it says is read: the payload if the record is taken to fit, and the
    marker if the payload has its CRC-32. -/
theorem mem_addresses_of_hasHeader (h : HasHeader buffer bufLen) {len a : ℕ}
    (hlen : (VfsRecordHeader.ofMemory buffer).payloadLen.toNat = len) :
    a ∈ (b.recordValidation w bufLen).addresses buffer ↔ a < 6 ∨ 8 ≤ a ∧ a < 12 ∨
      w.wrap (VfsRecordHeader.size + len + 4) ≤ bufLen ∧ (12 ≤ a ∧ a < 16 ∨
        16 ≤ a ∧ a < 16 + len ∨ HasCrc b buffer ∧ 16 + len ≤ a ∧ a < 20 + len) := by
  rcases h with ⟨hroom, hmagic, hversion⟩
  have hsize : VfsRecordHeader.size = 16 := rfl
  have hshort : ¬bufLen < VfsRecordHeader.size + 4 := Nat.not_lt.2 hroom
  have hcrc : HasCrc b buffer ↔
      (b.vfsBlockCalcCrc32 (slice buffer VfsRecordHeader.size len)).1 = readU32 buffer 12 := by
    rw [← hlen]
    rfl
  simp only [VfsRecordHeader.ofMemory] at hmagic hversion hlen
  simp only [recordValidation, Access.addresses_ite, Access.addresses_bind, Access.addresses_pure]
  simp only [value_u32, value_u16, addresses_u32, addresses_u16, Access.addresses_read,
    Access.value_read, id, hlen]
  simp only [hshort, hmagic, hversion, ne_eq, not_true_eq_false, if_false]
  -- The cases are those of the returns that are left.
  by_cases hfits : bufLen < w.wrap (VfsRecordHeader.size + len + 4)
  · simp only [hfits, Nat.not_le.2 hfits, if_true, List.append_nil, List.mem_append,
      List.mem_range'_1, false_and, or_false]
    omega
  by_cases hmatch : (b.vfsBlockCalcCrc32 (slice buffer VfsRecordHeader.size len)).1 =
      readU32 buffer 12
  · simp only [hfits, Nat.not_lt.1 hfits, hcrc, hmatch, not_true_eq_false, if_false, ite_self,
      List.append_nil, List.mem_append, List.mem_range'_1, true_and]
    omega
  · simp only [hfits, Nat.not_lt.1 hfits, hcrc, hmatch, not_false_eq_true, if_true, if_false,
      List.append_nil, List.mem_append, List.mem_range'_1, true_and, false_and, or_false]
    omega

/-- What is accepted was checked, the room for the record with its wrapped length. -/
theorem of_vfsRecordValidate_ok {len : ℕ}
    (h : (b.vfsRecordValidate w buffer bufLen).1 = .ok len) :
    HasHeader buffer bufLen ∧ (VfsRecordHeader.ofMemory buffer).payloadLen.toNat = len ∧
      w.wrap (VfsRecordHeader.size + len + 4) ≤ bufLen ∧ HasCrc b buffer ∧
        readU32 buffer (VfsRecordHeader.size + len) = recordCommitMagic := by
  simp only [vfsRecordValidate] at h
  split_ifs at h with hshort hheader hroom hcrc hmarker
  cases h
  rw [not_or, not_not, not_not] at hheader
  exact ⟨⟨Nat.not_lt.1 hshort, hheader.1, hheader.2⟩, rfl, Nat.not_lt.1 hroom, not_not.1 hcrc,
    not_not.1 hmarker⟩

/-- Without a header, nothing goes wrong. -/
theorem validatesInBounds_of_not_hasHeader (h : ¬HasHeader buffer bufLen) :
    ValidatesInBounds w b buffer bufLen :=
  ⟨addresses_of_not_hasHeader h, fun _ hok => absurd (of_vfsRecordValidate_ok hok).1 h⟩

/-- A length that does not wrap around is compared as it is. -/
theorem validatesInBounds_of_wrap_eq
    (h : w.wrap (VfsRecordHeader.size + (VfsRecordHeader.ofMemory buffer).payloadLen.toNat + 4) =
      VfsRecordHeader.size + (VfsRecordHeader.ofMemory buffer).payloadLen.toNat + 4) :
    ValidatesInBounds w b buffer bufLen := by
  by_cases hheader : HasHeader buffer bufLen
  · have hroom := hheader.1
    constructor
    · intro a ha
      rw [mem_addresses_of_hasHeader hheader rfl, h] at ha
      rw [VfsRecordHeader.size] at ha hroom
      omega
    · intro len hok
      rcases of_vfsRecordValidate_ok hok with ⟨_, rfl, hle, hcrc, hcommit⟩
      exact ⟨hheader, rfl, h ▸ hle, hcrc, hcommit⟩
  · exact validatesInBounds_of_not_hasHeader hheader

/-- A length that wraps around always seems to fit: the payload is read up to its length, and
    the marker after it. -/
theorem validatesInBounds_of_wraps {bufLen : UInt32} (hheader : HasHeader buffer bufLen.toNat)
    {len : ℕ} (hlen : (VfsRecordHeader.ofMemory buffer).payloadLen.toNat = len)
    (hwraps : 2 ^ 32 ≤ VfsRecordHeader.size + len + 4) :
    ValidatesInBounds .bits32 b buffer bufLen.toNat ↔
      VfsRecordHeader.size + len ≤ bufLen.toNat ∧ ¬HasCrc b buffer := by
  have hsize : VfsRecordHeader.size = 16 := rfl
  have hroom := hheader.1
  have hlt : len < 2 ^ 32 := hlen ▸ UInt32.toNat_lt _
  have hbuf := bufLen.toNat_lt
  have hwrap : SizeT.bits32.wrap (VfsRecordHeader.size + len + 4) ≤ bufLen.toNat := by
    rw [SizeT.wrap]
    omega
  constructor
  · rintro ⟨hreads, _⟩
    -- The last byte of the payload, and that of the marker, which is beyond any buffer.
    have hlast := hreads (16 + len - 1)
    have hmarker := hreads (16 + len + 3)
    rw [mem_addresses_of_hasHeader hheader hlen] at hlast hmarker
    refine ⟨?_, fun hcrc => ?_⟩
    · have := hlast (.inr (.inr ⟨hwrap, .inr (.inl (by omega))⟩))
      omega
    · have := hmarker (.inr (.inr ⟨hwrap, .inr (.inr ⟨hcrc, by omega⟩)⟩))
      omega
  · rintro ⟨hfits, hcrc⟩
    constructor
    · intro a ha
      rw [mem_addresses_of_hasHeader hheader hlen] at ha
      simp only [hcrc, false_and, or_false] at ha
      omega
    · intro _ hok
      exact absurd (of_vfsRecordValidate_ok hok).2.2.2.1 hcrc

/-- In 32 bits, the validation stays in the buffer and accepts what is in it only, if and only
    if there is no header, the length of the record does not wrap around, or the payload is in
    the buffer nevertheless and does not have its CRC-32. -/
theorem validatesInBounds_iff (b : VfsBlock) (buffer : Memory) (bufLen : UInt32) :
    ValidatesInBounds .bits32 b buffer bufLen.toNat ↔ ¬HasHeader buffer bufLen.toNat ∨
      VfsRecordHeader.size + (VfsRecordHeader.ofMemory buffer).payloadLen.toNat + 4 < 2 ^ 32 ∨
      VfsRecordHeader.size + (VfsRecordHeader.ofMemory buffer).payloadLen.toNat ≤ bufLen.toNat ∧
        ¬HasCrc b buffer := by
  by_cases hheader : HasHeader buffer bufLen.toNat
  · rcases Nat.lt_or_ge (VfsRecordHeader.size +
      (VfsRecordHeader.ofMemory buffer).payloadLen.toNat + 4) (2 ^ 32) with hlt | hwraps
    · exact iff_of_true (validatesInBounds_of_wrap_eq (Nat.mod_eq_of_lt hlt)) (.inr (.inl hlt))
    · rw [validatesInBounds_of_wraps hheader rfl hwraps, or_iff_right (not_not.2 hheader),
        or_iff_right (Nat.not_lt.2 hwraps)]
  · exact iff_of_true (validatesInBounds_of_not_hasHeader hheader) (.inl hheader)

/-- The header of a record next to erased flash: the length of the payload is that of erased
    bytes. -/
def erasedLength : Memory :=
  blit (fun _ => 0xFF) 0 (VfsRecordHeader.bytes ⟨recordMagic, 1, 0, 0xFFFFFFFF, 0xFFFFFFFF⟩)

/-- The smallest buffer with this header is read beyond its end. -/
theorem erasedLength_read_beyond :
    ¬ValidatesInBounds .bits32 (Vfs.mount .osfs fun _ => Flash.blank).block erasedLength 20 := by
  have hheader : VfsRecordHeader.ofMemory erasedLength =
      ⟨recordMagic, 1, 0, 0xFFFFFFFF, 0xFFFFFFFF⟩ := by
    refine VfsRecordHeader.ofMemory_eq ?_
    rw [erasedLength, ← VfsRecordHeader.length_bytes]
    exact slice_blit_self _ _ _
  rintro ⟨hreads, _⟩
  have hfirst := hreads 20
  rw [mem_addresses_of_hasHeader ⟨Nat.le_refl 20, by rw [hheader], by rw [hheader]⟩
    (by rw [hheader])] at hfirst
  refine absurd (hfirst (.inr (.inr ⟨?_, .inr (.inl ⟨?_, ?_⟩)⟩))) ?_
  all_goals decide

end VfsBlock

end SliverOS
