import SliverOS.Vfs.Superblock
import SliverOS.Vfs.Vfs

/-!
# Records

The records of `os/vfs/vfs_block.c`: a header with the length and the CRC-32 of
a payload, the payload, and a commit marker, which is written last.

A record is read back with its payload, and a record of which only the first
bytes were written is never accepted (`vfsRecordValidate_vfsRecordFormat`). Erased
bytes are `0xFF`, so that the length read from a torn record is not smaller than
that of the payload (`readU32_le_of_erased`). If it is larger, the record does not
fit in its buffer; otherwise the marker is looked for at its place, where the
last byte is still erased.
-/

namespace SliverOS

open Bytes

/-- `VFS_RECORD_MAGIC`. -/
def recordMagic : UInt32 := 0x52454331

/-- `VFS_RECORD_COMMIT_MAGIC`. -/
def recordCommitMagic : UInt32 := 0x55AA55AA

/-- The number stored in two bytes. -/
def readU16 (m : Memory) (a : ℕ) : UInt16 := UInt16.ofNat (ofLE (slice m a 2))

theorem readU16_of_slice {m : Memory} {a : ℕ} {v : UInt16} (h : slice m a 2 = toLE 2 v.toNat) :
    readU16 m a = v := by
  rw [readU16, h, ofLE_toLE, Nat.mod_eq_of_lt (by exact v.toNat_lt), UInt16.ofNat_toNat]

/-! ## The header -/

/-- `vfs_record_header_t`. -/
structure VfsRecordHeader where
  magic : UInt32
  version : UInt16
  sequence : UInt16
  payloadLen : UInt32
  payloadCrc32 : UInt32

namespace VfsRecordHeader

/-- `sizeof(vfs_record_header_t)`. -/
def size : ℕ := 16

/-- The bytes of a header. -/
def bytes (hdr : VfsRecordHeader) : List UInt8 :=
  pack [(4, hdr.magic.toNat), (2, hdr.version.toNat), (2, hdr.sequence.toNat),
    (4, hdr.payloadLen.toNat), (4, hdr.payloadCrc32.toNat)]

/-- The header stored at the start of a memory. -/
def ofMemory (m : Memory) : VfsRecordHeader where
  magic := readU32 m 0
  version := readU16 m 4
  sequence := readU16 m 6
  payloadLen := readU32 m 8
  payloadCrc32 := readU32 m 12

theorem length_bytes (hdr : VfsRecordHeader) : hdr.bytes.length = size := by
  simp [bytes, length_pack, size]

/-- A header stored whole is read back. -/
theorem ofMemory_eq {m : Memory} {hdr : VfsRecordHeader} (h : slice m 0 size = hdr.bytes) :
    ofMemory m = hdr := by
  have hfields : slice m 0 (4 + (2 + (2 + (4 + (4 + 0))))) = hdr.bytes := h
  obtain ⟨hmagic, h⟩ := slice_eq_pack_cons hfields
  obtain ⟨hversion, h⟩ := slice_eq_pack_cons h
  obtain ⟨hsequence, h⟩ := slice_eq_pack_cons h
  obtain ⟨hlen, h⟩ := slice_eq_pack_cons h
  obtain ⟨hcrc, _⟩ := slice_eq_pack_cons h
  obtain ⟨magic, version, sequence, payloadLen, payloadCrc32⟩ := hdr
  rw [ofMemory, readU32_of_slice hmagic, readU16_of_slice hversion, readU16_of_slice hsequence,
    readU32_of_slice hlen, readU32_of_slice hcrc]

end VfsRecordHeader

namespace VfsBlock

/-! ## The operations -/

/-- The header that `vfs_record_format` writes. -/
def recordHeader (b : VfsBlock) (seq : UInt16) (payload : List UInt8) : VfsRecordHeader where
  magic := recordMagic
  version := 1
  sequence := seq
  payloadLen := UInt32.ofNat payload.length
  payloadCrc32 := (b.vfsBlockCalcCrc32 payload).1

/-- `vfs_record_format`: the buffer written, and the length of the record. -/
def vfsRecordFormat (w : SizeT) (b : VfsBlock) (outBuf : Memory) (maxBufLen : ℕ) (seq : UInt16)
    (payload : List UInt8) : Except MkStatus (Memory × ℕ) × VfsBlock :=
  let totalLen := w.wrap (VfsRecordHeader.size + payload.length + 4)
  if maxBufLen < totalLen then (.error .noMemory, b)
  else
    let outBuf := blit outBuf 0 (b.recordHeader seq payload).bytes
    let outBuf := blit outBuf VfsRecordHeader.size payload
    let outBuf := blit outBuf (VfsRecordHeader.size + payload.length)
      (toLE 4 recordCommitMagic.toNat)
    (.ok (outBuf, totalLen), (b.vfsBlockCalcCrc32 payload).2)

/-- `vfs_record_validate`: the length of the payload. -/
def vfsRecordValidate (w : SizeT) (b : VfsBlock) (buffer : Memory) (bufLen : ℕ) :
    Except MkStatus ℕ × VfsBlock :=
  if bufLen < VfsRecordHeader.size + 4 then (.error .corrupted, b)
  else
    let hdr := VfsRecordHeader.ofMemory buffer
    if hdr.magic ≠ recordMagic ∨ hdr.version ≠ 1 then (.error .corrupted, b)
    else
      let len := hdr.payloadLen.toNat
      let expectedTotal := w.wrap (VfsRecordHeader.size + len + 4)
      if bufLen < expectedTotal then (.error .corrupted, b)
      else
        let (calcCrc, b) := b.vfsBlockCalcCrc32 (slice buffer VfsRecordHeader.size len)
        if calcCrc ≠ hdr.payloadCrc32 then (.error .corrupted, b)
        else if readU32 buffer (VfsRecordHeader.size + len) ≠ recordCommitMagic then
          (.error .corrupted, b)
        else (.ok len, b)

/-! ## The CRC table -/

/-- The CRC table, once it is ready, is that of `init_crc_table`. -/
def TableOk (b : VfsBlock) : Prop :=
  b.crcTableReady = true → b.crcTable = b.initCrcTable.crcTable

variable {b b' : VfsBlock} {record buffer : Memory} {seq : UInt16} {payload : List UInt8}
  {k bufLen maxBufLen : ℕ}

theorem crcTable_initCrcTable (b b' : VfsBlock) :
    b.initCrcTable.crcTable = b'.initCrcTable.crcTable := by
  simp only [initCrcTable]

theorem tableOk_initCrcTable (b : VfsBlock) : b.initCrcTable.TableOk :=
  fun _ => crcTable_initCrcTable b b.initCrcTable

theorem TableOk.vfsBlockCalcCrc32 (h : b.TableOk) (data : List UInt8) :
    (b.vfsBlockCalcCrc32 data).2.TableOk := by
  simp only [VfsBlock.vfsBlockCalcCrc32]
  split_ifs
  · exact h
  · exact tableOk_initCrcTable b

theorem TableOk.congr (h : b.TableOk) (hready : b'.crcTableReady = b.crcTableReady)
    (htable : b'.crcTable = b.crcTable) : b'.TableOk := by
  rw [TableOk, hready, htable]
  exact fun hr => (h hr).trans (crcTable_initCrcTable b b')

theorem TableOk.vfsBlockInit (h : b.TableOk) : b.vfsBlockInit.2.TableOk := by
  have hready : (if b.crcTableReady then b else b.initCrcTable).TableOk := by
    split_ifs
    · exact h
    · exact tableOk_initCrcTable b
  rw [VfsBlock.vfsBlockInit]
  generalize (if b.crcTableReady then b else b.initCrcTable) = t at hready ⊢
  simp only
  split_ifs <;> exact hready.congr rfl rfl

/-- The CRC-32 of some bytes is the same at any time. -/
theorem TableOk.crc_eq (h : b.TableOk) (h' : b'.TableOk) (data : List UInt8) :
    (b.vfsBlockCalcCrc32 data).1 = (b'.vfsBlockCalcCrc32 data).1 := by
  have htable {c : VfsBlock} (hc : c.TableOk) :
      (if c.crcTableReady then c else c.initCrcTable).crcTable = b.initCrcTable.crcTable := by
    split_ifs with hready
    · exact (hc hready).trans (crcTable_initCrcTable c b)
    · exact crcTable_initCrcTable c b
  simp only [VfsBlock.vfsBlockCalcCrc32, htable h, htable h']

/-! ## What is written -/

/-- The bytes of a record. -/
def recordBytes (b : VfsBlock) (seq : UInt16) (payload : List UInt8) : List UInt8 :=
  (b.recordHeader seq payload).bytes ++ payload ++ toLE 4 recordCommitMagic.toNat

/-- A record is written whole into a buffer that has room for it. -/
theorem vfsRecordFormat_of_wrap {w : SizeT} (b : VfsBlock) (outBuf : Memory) (seq : UInt16)
    (htotal : w.wrap (VfsRecordHeader.size + payload.length + 4) = payload.length + 20)
    (hfit : payload.length + 20 ≤ maxBufLen) :
    ∃ record, b.vfsRecordFormat w outBuf maxBufLen seq payload =
        (.ok (record, payload.length + 20), (b.vfsBlockCalcCrc32 payload).2) ∧
      slice record 0 (payload.length + 20) = b.recordBytes seq payload := by
  simp only [vfsRecordFormat, htotal, if_neg (Nat.not_lt.2 hfit)]
  refine ⟨_, rfl, ?_⟩
  have hheader : slice (blit outBuf 0 (b.recordHeader seq payload).bytes) 0 VfsRecordHeader.size =
      (b.recordHeader seq payload).bytes := by
    rw [← VfsRecordHeader.length_bytes (b.recordHeader seq payload), slice_blit_self]
  have hend : payload.length + 20 =
      VfsRecordHeader.size + payload.length + (toLE 4 recordCommitMagic.toNat).length := by
    rw [length_toLE, VfsRecordHeader.size]
    omega
  rw [hend, slice_blit_append, slice_blit_append, hheader, recordBytes]

/-- In 64 bits, the length of a record does not wrap around. -/
theorem vfsRecordFormat_eq (b : VfsBlock) (outBuf : Memory) (seq : UInt16)
    (hlen : payload.length < 2 ^ 32 - 20) (hfit : payload.length + 20 ≤ maxBufLen) :
    ∃ record, b.vfsRecordFormat .bits64 outBuf maxBufLen seq payload =
        (.ok (record, payload.length + 20), (b.vfsBlockCalcCrc32 payload).2) ∧
      slice record 0 (payload.length + 20) = b.recordBytes seq payload := by
  refine vfsRecordFormat_of_wrap b outBuf seq ?_ hfit
  rw [SizeT.wrap, VfsRecordHeader.size, Nat.mod_eq_of_lt (by omega)]
  omega

/-- The parts of a record that is there whole. -/
theorem of_slice_eq_recordBytes
    (h : slice buffer 0 (payload.length + 20) = b.recordBytes seq payload) :
    VfsRecordHeader.ofMemory buffer = b.recordHeader seq payload ∧
      slice buffer VfsRecordHeader.size payload.length = payload ∧
      readU32 buffer (VfsRecordHeader.size + payload.length) = recordCommitMagic := by
  have hsize := VfsRecordHeader.length_bytes (b.recordHeader seq payload)
  rw [recordBytes, List.append_assoc, show payload.length + 20 =
    (b.recordHeader seq payload).bytes.length + (payload.length + 4) by
      rw [hsize, VfsRecordHeader.size]; omega] at h
  obtain ⟨hheader, hrest⟩ := slice_eq_append h
  obtain ⟨hpayload, hmarker⟩ := slice_eq_append hrest
  rw [hsize] at hheader hpayload hmarker
  rw [Nat.zero_add] at hpayload hmarker
  exact ⟨VfsRecordHeader.ofMemory_eq hheader, hpayload, readU32_of_slice hmarker⟩

/-! ## What is accepted -/

/-- What is accepted fits in the buffer, and has its marker. -/
theorem vfsRecordValidate_cases (w : SizeT) (b : VfsBlock) (buffer : Memory) (bufLen : ℕ) {len : ℕ}
    (hlen : (VfsRecordHeader.ofMemory buffer).payloadLen.toNat = len) :
    (b.vfsRecordValidate w buffer bufLen).1 = .error .corrupted ∨
      w.wrap (VfsRecordHeader.size + len + 4) ≤ bufLen ∧
        readU32 buffer (VfsRecordHeader.size + len) = recordCommitMagic := by
  simp only [vfsRecordValidate, hlen]
  split_ifs with _ _ hroom _ hmarker
  · exact .inl rfl
  · exact .inl rfl
  · exact .inl rfl
  · exact .inl rfl
  · exact .inl rfl
  · exact .inr ⟨Nat.not_lt.1 hroom, not_not.1 hmarker⟩

/-- A record that is there whole is accepted. -/
theorem vfsRecordValidate_of_whole (hb : b.TableOk) (hb' : b'.TableOk)
    (hlen : payload.length < 2 ^ 32 - 20)
    (h : slice buffer 0 (payload.length + 20) = b.recordBytes seq payload) :
    (b'.vfsRecordValidate .bits64 buffer (payload.length + 20)).1 = .ok payload.length := by
  obtain ⟨hheader, hpayload, hmarker⟩ := of_slice_eq_recordBytes h
  have hfield : (UInt32.ofNat payload.length).toNat = payload.length :=
    UInt32.toNat_ofNat_of_lt' (Nat.lt_of_lt_of_le hlen (by decide))
  have htotal : SizeT.bits64.wrap (VfsRecordHeader.size + payload.length + 4) =
      payload.length + 20 := by
    rw [SizeT.wrap, VfsRecordHeader.size, Nat.mod_eq_of_lt (by omega)]
    omega
  have hroom : ¬payload.length + 20 < VfsRecordHeader.size + 4 := by
    rw [VfsRecordHeader.size]
    omega
  simp only [vfsRecordValidate, hheader, recordHeader, hfield, htotal, hpayload, hmarker,
    hb.crc_eq hb' payload, if_neg hroom, ne_eq, not_true_eq_false, or_self, if_false, lt_irrefl]

/-- A record whose end was not written is not accepted. -/
theorem vfsRecordValidate_of_torn (b' : VfsBlock) (hlen : payload.length < 2 ^ 32 - 20)
    (h : slice record 0 (payload.length + 20) = b.recordBytes seq payload)
    (hk : k < payload.length + 20)
    (hbuffer : ∀ x < payload.length + 20, buffer x = if x < k then record x else 0xFF) :
    (b'.vfsRecordValidate .bits64 buffer (payload.length + 20)).1 = .error .corrupted := by
  obtain ⟨hheader, _, _⟩ := of_slice_eq_recordBytes h
  have hread : readU32 record 8 = UInt32.ofNat payload.length :=
    congrArg VfsRecordHeader.payloadLen hheader
  -- The length read is that of the payload, or larger.
  have hle : readU32 record 8 ≤ readU32 buffer 8 := by
    refine readU32_le_of_erased fun j hj => ?_
    rw [hbuffer _ (by omega)]
    split_ifs
    · exact .inl rfl
    · exact .inr rfl
  rw [hread, UInt32.le_iff_toNat_le,
    UInt32.toNat_ofNat_of_lt' (Nat.lt_of_lt_of_le hlen (by decide))] at hle
  refine (vfsRecordValidate_cases _ _ _ _ rfl).resolve_right ?_
  rintro ⟨hroom, hmarker⟩
  change SizeT.bits64.wrap (16 + (readU32 buffer 8).toNat + 4) ≤ _ at hroom
  change readU32 buffer (16 + (readU32 buffer 8).toNat) = _ at hmarker
  have hlt := (readU32 buffer 8).toNat_lt
  rw [SizeT.wrap, Nat.mod_eq_of_lt (by omega)] at hroom
  -- The marker is looked for at its place, where its last byte is still erased.
  have heq : (readU32 buffer 8).toNat = payload.length := by omega
  have hlast : buffer (16 + (readU32 buffer 8).toNat + 3) = 0xFF := by
    rw [heq, hbuffer _ (by omega), if_neg (by omega)]
  have hbig := le_readU32 hlast
  rw [hmarker] at hbig
  exact absurd hbig (by decide)

/-- A record of a payload that is there whole is accepted, with the length of the payload, and
    one of which only the first `k` bytes were written is not. -/
theorem vfsRecordValidate_vfsRecordFormat (hb : b.TableOk) (outBuf : Memory) (seq : UInt16)
    (hlen : payload.length < 2 ^ 32 - 20) (hfit : payload.length + 20 ≤ maxBufLen) :
    ∃ record, b.vfsRecordFormat .bits64 outBuf maxBufLen seq payload =
        (.ok (record, payload.length + 20), (b.vfsBlockCalcCrc32 payload).2) ∧
      (∀ b' : VfsBlock, b'.TableOk → ∀ buffer : Memory,
        (∀ x < payload.length + 20, buffer x = record x) →
          (b'.vfsRecordValidate .bits64 buffer (payload.length + 20)).1 = .ok payload.length) ∧
      ∀ k < payload.length + 20, ∀ (b' : VfsBlock) (buffer : Memory),
        (∀ x < payload.length + 20, buffer x = if x < k then record x else 0xFF) →
          (b'.vfsRecordValidate .bits64 buffer (payload.length + 20)).1 = .error .corrupted := by
  obtain ⟨record, hformat, hbytes⟩ := vfsRecordFormat_eq b outBuf seq hlen hfit
  refine ⟨record, hformat, fun b' hb' buffer hbuffer => ?_, fun k hk b' buffer hbuffer => ?_⟩
  · have hslice : slice buffer 0 (payload.length + 20) = b.recordBytes seq payload := by
      rw [← hbytes]
      exact slice_congr fun x _ hx => hbuffer x (by omega)
    exact vfsRecordValidate_of_whole hb hb' hlen hslice
  · exact vfsRecordValidate_of_torn b' hlen hbytes hk hbuffer

/-- A payload of erased bytes and of the marker, in a buffer of 512 bytes. -/
theorem vfsRecordValidate_vfsRecordFormat_marker : ∃ record,
    (VfsBlock.mk .sim (fun _ => Flash.blank) [] [] 64 true (.replicate 256 0) false).vfsRecordFormat
        .bits64 (fun _ => 0) 512 7 [0xFF, 0xFF, 0xAA, 0x55, 0xAA, 0x55] =
      (.ok (record, 26), ((VfsBlock.mk .sim (fun _ => Flash.blank) [] [] 64 true (.replicate 256 0)
        false).vfsBlockCalcCrc32 [0xFF, 0xFF, 0xAA, 0x55, 0xAA, 0x55]).2) ∧
    (∀ b' : VfsBlock, b'.TableOk → ∀ buffer : Memory, (∀ x < 26, buffer x = record x) →
      (b'.vfsRecordValidate .bits64 buffer 26).1 = .ok 6) ∧
    ∀ k < 26, ∀ (b' : VfsBlock) (buffer : Memory),
      (∀ x < 26, buffer x = if x < k then record x else 0xFF) →
        (b'.vfsRecordValidate .bits64 buffer 26).1 = .error .corrupted :=
  vfsRecordValidate_vfsRecordFormat (fun h => absurd h Bool.false_ne_true) _ 7 (by decide)
    (by decide)

end VfsBlock

end SliverOS
