import SliverOS.Vfs.Detection
import SliverOS.Vfs.Table

/-!
# The CRC-32 bit by bit

What `vfs_block_calc_crc32` computes from its table is the CRC-32 of a message as it is sent one
bit after the other, through a register of 32 bits (`crc32`). The table is built by
`vfs_block_init`, or by the first call that needs it, and whatever is called in between, it stays
as it was built (`tableOk_run`).

* `vfsBlockCalcCrc32_bitwise`: the CRC-32 of any bytes, at any time.
-/

namespace SliverOS.VfsBlock

open Bytes Flash

/-- The reflected CRC-32: the bits of a message are added one by one to the register, which is
    all ones at the start and inverted at the end. -/
def crc32 (data : List UInt8) : BitVec 32 :=
  (data.flatMap Crc.lowBits).foldl (Crc.serial crcPolynomial) (.allOnes 32) ^^^ .allOnes 32

/-- The check value of the CRC-32. -/
example : crc32 (ascii "123456789") = 0xCBF43926 := by decide +kernel

/-- A call of a function of `vfs_block.c`. -/
inductive Call
  | vfsBlockInit
  | vfsBlockCalcCrc32 (data : List UInt8)
  | vfsBlockRead (sector : UInt32) (buffer : Memory) (size : ℕ)
  | vfsBlockWrite (sector : UInt32) (data : List UInt8)
  | vfsBlockErase (sector : UInt32)
  | vfsRecordFormat (outBuf : Memory) (maxBufLen : ℕ) (seq : UInt16) (payload : List UInt8)
  | vfsRecordValidate (buffer : Memory) (bufLen : ℕ)

/-- The medium and the static variables after a call. -/
def exec (w : SizeT) (b : VfsBlock) : Call → VfsBlock
  | .vfsBlockInit => b.vfsBlockInit.2
  | .vfsBlockCalcCrc32 data => (b.vfsBlockCalcCrc32 data).2
  | .vfsBlockRead sector buffer size => (b.vfsBlockRead sector buffer size).2.2
  | .vfsBlockWrite sector data => (b.vfsBlockWrite sector data).2
  | .vfsBlockErase sector => (b.vfsBlockErase sector).2
  | .vfsRecordFormat outBuf maxBufLen seq payload =>
    (vfsRecordFormat w b outBuf maxBufLen seq payload).2
  | .vfsRecordValidate buffer bufLen => (vfsRecordValidate w b buffer bufLen).2

variable {b : VfsBlock} {w : SizeT}

theorem TableOk.vfsBlockRead (h : b.TableOk) (sector : UInt32) (buffer : Memory) (size : ℕ) :
    (b.vfsBlockRead sector buffer size).2.2.TableOk := by
  rw [VfsBlock.vfsBlockRead]
  split_ifs
  · exact h
  · exact h.congr rfl rfl
  · exact h.congr rfl rfl

theorem TableOk.vfsRecordFormat (h : b.TableOk) (outBuf : Memory) (maxBufLen : ℕ) (seq : UInt16)
    (payload : List UInt8) : (vfsRecordFormat w b outBuf maxBufLen seq payload).2.TableOk := by
  rw [VfsBlock.vfsRecordFormat]
  simp only
  split_ifs
  · exact h
  · exact h.vfsBlockCalcCrc32 payload

theorem TableOk.vfsRecordValidate (h : b.TableOk) (buffer : Memory) (bufLen : ℕ) :
    (vfsRecordValidate w b buffer bufLen).2.TableOk := by
  have hcalc := h.vfsBlockCalcCrc32
    (slice buffer VfsRecordHeader.size (VfsRecordHeader.ofMemory buffer).payloadLen.toNat)
  rw [VfsBlock.vfsRecordValidate]
  simp only
  split_ifs
  · exact h
  · exact h
  · exact h
  · exact hcalc
  · exact hcalc
  · exact hcalc

/-- No call changes a table that is ready. -/
theorem TableOk.exec (h : b.TableOk) (c : Call) : (b.exec w c).TableOk := by
  cases c with
  | vfsBlockInit => exact h.vfsBlockInit
  | vfsBlockCalcCrc32 data => exact h.vfsBlockCalcCrc32 data
  | vfsBlockRead sector buffer size => exact h.vfsBlockRead sector buffer size
  | vfsBlockWrite sector data => exact h.vfsBlockWrite sector data
  | vfsBlockErase sector => exact h.vfsBlockErase sector
  | vfsRecordFormat outBuf maxBufLen seq payload => exact h.vfsRecordFormat outBuf maxBufLen seq _
  | vfsRecordValidate buffer bufLen => exact h.vfsRecordValidate buffer bufLen

/-- The table of any run is that of `init_crc_table`, once it is ready. -/
theorem tableOk_run (w : SizeT) (h : b.TableOk) (calls : List Call) :
    (calls.foldl (exec w) b).TableOk := by
  induction calls generalizing b with
  | nil => exact h
  | cons c calls ih => exact ih (h.exec c)

/-- The CRC-32 of any bytes is computed as it is bit by bit, at any time after power on: by the
    table of `vfs_block_init`, or by the one built at the first use. -/
theorem vfsBlockCalcCrc32_bitwise (w : SizeT) (medium : Medium) (flash : Image)
    (faults : List Bool) (calls : List Call) (data : List UInt8) :
    ((calls.foldl (exec w) (Vfs.powerOn medium flash faults).block).vfsBlockCalcCrc32
      data).1.toBitVec = crc32 data := by
  have hstart : (Vfs.powerOn medium flash faults).block.TableOk := by
    intro hready
    cases hready
  rw [(tableOk_run w hstart calls).vfsBlockCalcCrc32_eq, Crc.foldl_byte_eq_serial (by decide),
    crc32]

end SliverOS.VfsBlock
