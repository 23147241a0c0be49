import SliverOS.Bytes.Crc
import SliverOS.Vfs.RecordBounds

/-!
# Changes of a record

The CRC-32 of `os/vfs/vfs_block.c` takes eight bits at a time from a table. It is the
reflected CRC of its polynomial, bit by bit (`toBitVec_crcByte`), which tells payloads
apart that differ in one byte (`vfsBlockCalcCrc32_ne`). So a record of which one byte
was changed is not accepted any more, its sequence number and the length of its payload
aside (`detectsChanges`).

The length is stored in four bytes. A payload of `2 ^ 32` bytes is written with the
length 0, and a change in it may go unnoticed (`longPayload_accepted`).
-/

namespace SliverOS

open Bytes

namespace VfsBlock

/-! ## The CRC-32 -/

/-- The polynomial of the CRC-32. -/
def crcPolynomial : BitVec 32 := 0xEDB88320

theorem toBitVec_crcBit (c : UInt32) : (crcBit c).toBitVec = Crc.bit crcPolynomial c.toBitVec := by
  have hlow : c &&& 1 = 0 ↔ c.toBitVec.getLsbD 0 = false := by
    rw [← UInt32.toNat_inj, UInt32.toNat_and, BitVec.getLsbD, Nat.testBit_zero]
    simp [Nat.and_one_is_mod]
  by_cases h : c &&& 1 = 0
  · rw [crcBit, if_neg (not_not.2 h), Crc.bit, hlow.1 h, if_neg Bool.false_ne_true]
    rfl
  · rw [crcBit, if_pos h, Crc.bit, if_pos (Bool.eq_true_of_not_eq_false (mt hlow.2 h))]
    rfl

theorem toBitVec_iterate_crcBit (n : ℕ) (c : UInt32) :
    (crcBit^[n] c).toBitVec = (Crc.bit crcPolynomial)^[n] c.toBitVec := by
  induction n generalizing c with
  | zero => rfl
  | succ n ih => rw [Function.iterate_succ_apply, ih, toBitVec_crcBit, Function.iterate_succ_apply]

/-- An entry of the table. -/
theorem getD_crcTable (b : VfsBlock) {i : ℕ} (hi : i < 256) :
    b.initCrcTable.crcTable[i]?.getD 0 = crcBit^[8] (UInt32.ofNat i) := by
  simp [initCrcTable, hi]

/-- With the table, a byte is taken as bit by bit. -/
theorem toBitVec_crcByte (b : VfsBlock) (c : UInt32) (byte : UInt8) :
    (crcByte b.initCrcTable.crcTable c byte).toBitVec =
      Crc.byte crcPolynomial c.toBitVec byte := by
  have hmask : ∀ i < 32, (0xFF : BitVec 32).getLsbD i = decide (i < 8) := by decide
  have hindex : ((c ^^^ byte.toUInt32) &&& 0xFF).toNat < 256 := by
    rw [UInt32.toNat_and]
    exact Nat.lt_of_le_of_lt Nat.and_le_right (by decide)
  rw [crcByte, getD_crcTable b hindex, UInt32.ofNat_toNat, Crc.byte_eq_table hmask,
    UInt32.toBitVec_xor, toBitVec_iterate_crcBit]
  rfl

variable {b b' : VfsBlock} {w : SizeT} {seq : UInt16} {payload : List UInt8}

theorem toBitVec_foldl_crcByte (b : VfsBlock) (c : UInt32) (data : List UInt8) :
    (data.foldl (crcByte b.initCrcTable.crcTable) c).toBitVec =
      data.foldl (Crc.byte crcPolynomial) c.toBitVec := by
  induction data generalizing c with
  | nil => rfl
  | cons byte data ih => rw [List.foldl_cons, ih, toBitVec_crcByte, List.foldl_cons]

/-- The CRC-32 is that of its polynomial. -/
theorem TableOk.vfsBlockCalcCrc32_eq (h : b.TableOk) (data : List UInt8) :
    (b.vfsBlockCalcCrc32 data).1.toBitVec =
      data.foldl (Crc.byte crcPolynomial) (.allOnes 32) ^^^ .allOnes 32 := by
  have htable : (if b.crcTableReady then b else b.initCrcTable).crcTable =
      b.initCrcTable.crcTable := by
    split_ifs with hready
    · exact h hready
    · rfl
  simp only [VfsBlock.vfsBlockCalcCrc32, htable, UInt32.toBitVec_xor, toBitVec_foldl_crcByte]
  rfl

/-- Payloads that differ in one byte have different CRC-32s. -/
theorem TableOk.vfsBlockCalcCrc32_ne (h : b.TableOk) (xs ys : List UInt8) {x y : UInt8}
    (hxy : x ≠ y) :
    (b.vfsBlockCalcCrc32 (xs ++ x :: ys)).1 ≠ (b.vfsBlockCalcCrc32 (xs ++ y :: ys)).1 := by
  intro heq
  have hbits := congrArg UInt32.toBitVec heq
  rw [h.vfsBlockCalcCrc32_eq, h.vfsBlockCalcCrc32_eq, BitVec.xor_left_inj] at hbits
  exact Crc.foldl_byte_ne (by decide) (by decide) _ xs ys hxy hbits

/-! ## What is detected -/

/-- One byte of some was changed. -/
structure ChangedAt (record buffer : Memory) (n x : ℕ) : Prop where
  changed : buffer x ≠ record x
  same : ∀ y < n, y ≠ x → buffer y = record y

/-- The offsets in a record at which it is protected: its magic and its version, and from the
    CRC-32 of its payload on. -/
def Protected (len x : ℕ) : Prop := x < 6 ∨ 12 ≤ x ∧ x < VfsRecordHeader.size + len + 4

/-- A record as it was written is not accepted any more once one of its protected bytes was
    changed. -/
def DetectsChanges (w : SizeT) (b : VfsBlock) (seq : UInt16) (payload : List UInt8) : Prop :=
  ∀ outBuf maxBufLen record total,
    (b.vfsRecordFormat w outBuf maxBufLen seq payload).1 = .ok (record, total) →
      ∀ b' : VfsBlock, b'.TableOk → ∀ x, Protected payload.length x → ∀ buffer : Memory,
        ChangedAt record buffer (VfsRecordHeader.size + payload.length + 4) x →
          (b'.vfsRecordValidate w buffer total).1 = .error .corrupted

variable {record buffer : Memory} {n x a : ℕ}

theorem ChangedAt.slice_eq (h : ChangedAt record buffer n x) {k : ℕ} (ha : a + k ≤ n)
    (hx : x < a ∨ a + k ≤ x) : slice buffer a k = slice record a k :=
  slice_congr fun y _ _ => h.same y (by omega) (by omega)

/-- A run with the byte that was changed is not the same. -/
theorem ChangedAt.slice_ne (h : ChangedAt record buffer n x) {k : ℕ} (hx : a ≤ x ∧ x < a + k) :
    slice buffer a k ≠ slice record a k :=
  fun heq => h.changed (eq_of_slice_eq heq hx)

/-- A number with the byte that was changed is not the same. -/
theorem ChangedAt.readU32_ne (h : ChangedAt record buffer n x) (hx : a ≤ x ∧ x < a + 4) :
    readU32 buffer a ≠ readU32 record a :=
  fun heq => h.slice_ne hx (slice_eq_of_readU32 heq)

theorem ChangedAt.readU16_ne (h : ChangedAt record buffer n x) (hx : a ≤ x ∧ x < a + 2) :
    readU16 buffer a ≠ readU16 record a := by
  intro heq
  refine h.slice_ne hx (ofLE_inj (by simp) ?_)
  have hlt (m : Memory) : ofLE (slice m a 2) < 2 ^ 16 := by
    simpa using ofLE_lt (slice m a 2)
  have hnat := congrArg UInt16.toNat heq
  rwa [readU16, readU16, UInt16.toNat_ofNat_of_lt' (hlt _), UInt16.toNat_ofNat_of_lt' (hlt _)]
    at hnat

/-- A payload with the byte that was changed has another CRC-32. -/
theorem ChangedAt.crc_ne (h : ChangedAt record buffer n x) (hb : b.TableOk) {k : ℕ}
    (hk : a + k ≤ n) (hx : a ≤ x ∧ x < a + k) :
    (b.vfsBlockCalcCrc32 (slice buffer a k)).1 ≠ (b.vfsBlockCalcCrc32 (slice record a k)).1 := by
  obtain ⟨i, rfl⟩ := Nat.exists_eq_add_of_le hx.1
  have hi : i < k := by omega
  rw [slice_eq_append_cons buffer a hi, slice_eq_append_cons record a hi,
    h.slice_eq (by omega) (by omega), h.slice_eq (by omega) (by omega)]
  exact hb.vfsBlockCalcCrc32_ne _ _ h.changed

/-- The validation gives a length, or that the record is corrupted. -/
theorem corrupted_of_ne_ok {bufLen : ℕ}
    (h : ∀ len, (b.vfsRecordValidate w buffer bufLen).1 ≠ .ok len) :
    (b.vfsRecordValidate w buffer bufLen).1 = .error .corrupted :=
  (vfsRecordValidate_cases w b buffer bufLen rfl).elim id fun _ => by
    simp only [vfsRecordValidate] at h ⊢
    split_ifs at h ⊢
    · rfl
    · rfl
    · rfl
    · rfl
    · rfl
    · exact absurd rfl (h _)

/-- A record of which one protected byte was changed is not accepted. -/
theorem vfsRecordValidate_of_changed (hb : b.TableOk) (hb' : b'.TableOk)
    (hlen : payload.length < 2 ^ 32)
    (hrecord : slice record 0 (payload.length + 20) = b.recordBytes seq payload)
    (hx : Protected payload.length x)
    (h : ChangedAt record buffer (VfsRecordHeader.size + payload.length + 4) x) (bufLen : ℕ) :
    (b'.vfsRecordValidate w buffer bufLen).1 = .error .corrupted := by
  refine corrupted_of_ne_ok fun len hok => ?_
  obtain ⟨⟨_, hmagic, hversion⟩, hbufLen, _, hcrc, hcommit⟩ := of_vfsRecordValidate_ok hok
  obtain ⟨hheader, hpayload, hmarker⟩ := of_slice_eq_recordBytes hrecord
  have hsize : VfsRecordHeader.size = 16 := rfl
  -- The length is not protected, and was not changed.
  have hsame : (VfsRecordHeader.ofMemory buffer).payloadLen = UInt32.ofNat payload.length := by
    have hfield : slice buffer 8 4 = slice record 8 4 := by
      rcases hx with hx | ⟨hx, _⟩
      · exact h.slice_eq (by omega) (.inl (by omega))
      · exact h.slice_eq (by omega) (.inr hx)
    exact (congrArg (fun bs => UInt32.ofNat (ofLE bs)) hfield).trans
      (congrArg VfsRecordHeader.payloadLen hheader)
  have hlen' : len = payload.length := by
    rw [← hbufLen, hsame, UInt32.toNat_ofNat_of_lt' hlen]
  rw [HasCrc, hbufLen] at hcrc
  rw [hlen'] at hcrc hcommit
  have hread (a : ℕ) (ha : x < a ∨ a + 4 ≤ x) (hn : a + 4 ≤ payload.length + 20) :
      readU32 buffer a = readU32 record a := by
    rw [readU32, readU32, h.slice_eq (by omega) ha]
  have hfields := congrArg VfsRecordHeader.payloadCrc32 hheader
  rcases hx with hx | ⟨hx, hend⟩
  · rcases Nat.lt_or_ge x 4 with hx4 | hx4
    · -- The magic.
      refine h.readU32_ne (a := 0) ⟨Nat.zero_le x, hx4⟩ (hmagic.trans ?_)
      exact (congrArg VfsRecordHeader.magic hheader).symm
    · -- The version.
      refine h.readU16_ne (a := 4) ⟨hx4, hx⟩ (hversion.trans ?_)
      exact (congrArg VfsRecordHeader.version hheader).symm
  rcases Nat.lt_or_ge x 16 with hx16 | hx16
  · -- The CRC-32, that of the payload being the same.
    refine h.readU32_ne (a := 12) ⟨hx, hx16⟩ (hcrc.symm.trans ?_)
    have hrest : slice buffer VfsRecordHeader.size payload.length = payload :=
      (h.slice_eq (by omega) (.inl hx16)).trans hpayload
    rw [hrest, hb'.crc_eq hb]
    exact hfields.symm
  rcases Nat.lt_or_ge x (16 + payload.length) with hxp | hxp
  · -- The payload, its CRC-32 being the same.
    refine h.crc_ne hb' (a := VfsRecordHeader.size) (by omega) ⟨hx16, hxp⟩ (hcrc.trans ?_)
    rw [hpayload, hb'.crc_eq hb]
    exact (hread 12 (.inr (by omega)) (by omega)).trans hfields
  · -- The marker.
    exact h.readU32_ne ⟨hxp, by omega⟩ (hcommit.trans hmarker.symm)

/-- All changes of a record with a payload of less than `2 ^ 32` bytes are detected. -/
theorem detectsChanges (w : SizeT) (hb : b.TableOk) (seq : UInt16)
    (hlen : payload.length < 2 ^ 32) : DetectsChanges w b seq payload := by
  intro outBuf maxBufLen record total hformat b' hb' x hx buffer hchanged
  have htotal : total = w.wrap (VfsRecordHeader.size + payload.length + 4) := by
    simp only [vfsRecordFormat] at hformat
    split_ifs at hformat
    cases hformat
    rfl
  by_cases hwrap : w.wrap (VfsRecordHeader.size + payload.length + 4) = payload.length + 20
  · by_cases hfit : payload.length + 20 ≤ maxBufLen
    · obtain ⟨_, heq, hrecord⟩ := vfsRecordFormat_of_wrap b outBuf seq hwrap hfit
      rw [heq] at hformat
      cases hformat
      exact vfsRecordValidate_of_changed hb hb' hlen hrecord hx hchanged _
    · simp only [vfsRecordFormat, hwrap, Nat.not_le.1 hfit, if_true] at hformat
      cases hformat
  · -- In 32 bits, the length may wrap around: no record is that short.
    have hshort : total < VfsRecordHeader.size + 4 := by
      rw [htotal, VfsRecordHeader.size] at *
      cases w <;> simp only [SizeT.wrap] at hwrap ⊢ <;> omega
    rw [vfsRecordValidate, if_pos hshort]

theorem detectsChanges_short : DetectsChanges .bits32
    (Vfs.powerOn .osfs (fun _ => Flash.blank) []).block 7 [0x64, 0x61, 0x74, 0x61] :=
  detectsChanges .bits32 (fun hready => absurd hready Bool.false_ne_true) 7 (by decide)

/-! ## A payload that is too long -/

/-- A payload that starts with the marker and whose CRC-32 is 0, with `n` zero bytes in it. -/
def longPayload (n : ℕ) : List UInt8 :=
  [0xAA, 0x55, 0xAA, 0x55, 0xC1, 0xC4, 0xF3, 0xD9] ++ List.replicate n 0 ++
    [0x62, 0xF5, 0x26, 0x92]

theorem length_longPayload (n : ℕ) : (longPayload n).length = n + 12 := by
  simp [longPayload]

theorem crc_longPayload (hb : b.TableOk) (n : ℕ) : (b.vfsBlockCalcCrc32 (longPayload n)).1 = 0 := by
  -- The zero bytes leave the state at zero.
  have hzeros : (List.replicate n 0).foldl (Crc.byte crcPolynomial) 0 = 0 := by
    induction n with
    | zero => rfl
    | succ n ih => exact ih
  have hstart : [0xAA, 0x55, 0xAA, 0x55, 0xC1, 0xC4, 0xF3, 0xD9].foldl (Crc.byte crcPolynomial)
      (.allOnes 32) = 0 := by decide +kernel
  have hend : [0x62, 0xF5, 0x26, 0x92].foldl (Crc.byte crcPolynomial) 0 = .allOnes 32 := by
    decide +kernel
  refine UInt32.toBitVec_inj.1 ?_
  rw [hb.vfsBlockCalcCrc32_eq, longPayload, List.foldl_append, List.foldl_append, hstart, hzeros,
    hend, BitVec.xor_self]
  rfl

/-- With a length of `2 ^ 32`, the record has the length 0, and is accepted whatever is in the
    payload after the marker. -/
theorem longPayload_accepted :
    ¬DetectsChanges .bits64 (Vfs.powerOn .osfs (fun _ => Flash.blank) []).block 0
      (longPayload (2 ^ 32 - 12)) := by
  intro h
  have hb : (Vfs.powerOn .osfs (fun _ => Flash.blank) []).block.TableOk :=
    fun hready => absurd hready Bool.false_ne_true
  generalize (Vfs.powerOn .osfs (fun _ => Flash.blank) []).block = b at h hb
  have hlength : (longPayload (2 ^ 32 - 12)).length = 2 ^ 32 := length_longPayload _
  have hstart : (longPayload (2 ^ 32 - 12)).take 4 = toLE 4 recordCommitMagic.toNat := by
    rw [longPayload]
    rfl
  have hcrc := crc_longPayload hb (2 ^ 32 - 12)
  generalize longPayload (2 ^ 32 - 12) = payload at h hlength hstart hcrc
  obtain ⟨record, hformat, hbytes⟩ := vfsRecordFormat_of_wrap (w := .bits64) b (fun _ => 0) 0
    (by rw [hlength]; rfl) (Nat.le_refl (payload.length + 20))
  obtain ⟨hheader, hpayload, _⟩ := of_slice_eq_recordBytes hbytes
  -- A byte of the payload that is not part of the marker at its start is changed.
  have hsame (a k : ℕ) (hk : a + k ≤ 24) :
      slice (blit record 24 [record 24 + 1]) a k = slice record a k :=
    slice_blit_of_apart (.inr hk)
  have hchanged : ChangedAt record (blit record 24 [record 24 + 1])
      (VfsRecordHeader.size + payload.length + 4) 24 := by
    refine ⟨?_, fun y _ hy => blit_of_notMem ?_⟩
    · exact fun heq => absurd (add_eq_left.1 heq) (by decide)
    · rw [List.length_singleton]
      omega
  have hread : VfsRecordHeader.ofMemory (blit record 24 [record 24 + 1]) =
      ⟨recordMagic, 1, 0, 0, 0⟩ := by
    have hfields : VfsRecordHeader.ofMemory (blit record 24 [record 24 + 1]) =
        VfsRecordHeader.ofMemory record := by
      simp only [VfsRecordHeader.ofMemory, readU32, readU16, hsame 0 4 (by decide),
        hsame 4 2 (by decide), hsame 6 2 (by decide), hsame 8 4 (by decide),
        hsame 12 4 (by decide)]
    rw [hfields, hheader, recordHeader, hcrc, hlength]
    rfl
  have hmarker : readU32 (blit record 24 [record 24 + 1]) 16 = recordCommitMagic := by
    refine readU32_of_slice ((hsame 16 4 (by decide)).trans ?_)
    rw [← hstart, ← hpayload, take_slice, hlength]
    rfl
  have hempty : (b.vfsBlockCalcCrc32 []).1 = 0 := by
    simp only [VfsBlock.vfsBlockCalcCrc32, List.foldl_nil]
    rfl
  have hcorrupted := h _ _ record _ (congrArg Prod.fst hformat) b hb 24
    (.inr ⟨by decide, by rw [hlength]; decide⟩) _ hchanged
  have hroom : ¬payload.length + 20 < 20 := by omega
  simp only [vfsRecordValidate, hread, VfsRecordHeader.size, Nat.reduceAdd, hroom, if_false,
    UInt32.toNat_zero, SizeT.wrap, Nat.reduceMod, Nat.reducePow, slice, List.range_zero,
    List.map_nil, hempty, hmarker, ne_eq, not_true_eq_false, or_self] at hcorrupted
  cases hcorrupted

end VfsBlock

end SliverOS
