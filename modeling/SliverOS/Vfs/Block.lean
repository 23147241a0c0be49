import SliverOS.Flash.Nor
import SliverOS.Kernel.Types

/-!
# The sectors of the file system

`os/vfs/vfs_block.c`, without the records: the sectors of the `osfs` partition,
or of the flash simulated on a host, and the CRC-32 of the superblock. Pointers
passed are not `NULL`.

A call of the partition driver can fail; which of the calls do is given ahead
(`VfsBlock.faults`), a failed one leaving the flash as it is. The steps done are
recorded in `VfsBlock.journal`.
-/

namespace SliverOS

open Bytes Flash

/-- `VFS_SECTOR_SIZE`. -/
def sectorSize : ℕ := 4096

/-- `VFS_BLOCK_MAGIC`. -/
def blockMagic : UInt32 := 0x4F534653

/-- What the sectors are on. -/
structure Medium where
  /-- The flash is that of a partition, and not simulated and wiped by `vfs_block_init`. -/
  persistent : Bool
  cell : Cell
  sectorCount : UInt32
  /-- There is a sector for the superblock, and for each of the files. -/
  enough : 19 ≤ sectorCount

namespace Medium

/-- The partition `osfs` of `partitions.csv`. -/
def osfs : Medium := ⟨true, .clearing, 0x2A0000 / 4096, by decide⟩

/-- The flash simulated, `s_sim_flash`. -/
def sim : Medium := ⟨false, .overwriting, 64, by decide⟩

end Medium

/-- The medium with its contents, and the static variables. -/
structure VfsBlock where
  medium : Medium
  flash : Image
  journal : List Step
  faults : List Bool
  sectorCount : UInt32
  initialized : Bool
  crcTable : Vector UInt32 256
  crcTableReady : Bool

namespace VfsBlock

/-! ## CRC-32 -/

/-- A bit of an entry of the table. -/
def crcBit (c : UInt32) : UInt32 :=
  if c &&& 1 ≠ 0 then (0xEDB88320 : UInt32) ^^^ (c >>> 1) else c >>> 1

/-- `init_crc_table`. -/
def initCrcTable (b : VfsBlock) : VfsBlock :=
  { b with
    crcTable := Vector.ofFn fun i => crcBit^[8] (UInt32.ofNat i)
    crcTableReady := true }

/-- A byte of the loop of `vfs_block_calc_crc32`. -/
def crcByte (table : Vector UInt32 256) (c : UInt32) (byte : UInt8) : UInt32 :=
  table[((c ^^^ byte.toUInt32) &&& 0xFF).toNat]?.getD 0 ^^^ (c >>> 8)

/-- `vfs_block_calc_crc32`: the CRC-32, the table being ready after it. -/
def vfsBlockCalcCrc32 (b : VfsBlock) (data : List UInt8) : UInt32 × VfsBlock :=
  let b := if b.crcTableReady then b else b.initCrcTable
  (data.foldl (crcByte b.crcTable) 0xFFFFFFFF ^^^ 0xFFFFFFFF, b)

/-! ## Sectors -/

/-- The next call of the driver fails. -/
def fails (b : VfsBlock) : Bool := b.faults.headD false

/-- The call of the driver is over. -/
def next (b : VfsBlock) : VfsBlock := { b with faults := b.faults.tail }

/-- A step done on the flash. -/
def perform (b : VfsBlock) (st : Step) : VfsBlock :=
  { b with flash := st.apply b.medium.cell b.flash, journal := b.journal ++ [st] }

/-- `vfs_block_init`: the partition is looked up twice at most, and the simulated
    flash is wiped. -/
def vfsBlockInit (b : VfsBlock) : MkStatus × VfsBlock :=
  let b := if b.crcTableReady then b else b.initCrcTable
  if b.medium.persistent then
    if b.fails && b.next.fails then (.notFound, b.next.next)
    else
      let b := if b.fails then b.next.next else b.next
      (.ok, { b with sectorCount := b.medium.sectorCount, initialized := true })
  else
    (.ok, { b with
      flash := fun _ => blank
      sectorCount := b.medium.sectorCount
      initialized := true })

/-- `vfs_block_read` into a buffer: the buffer after it. -/
def vfsBlockRead (b : VfsBlock) (sector : UInt32) (buffer : Memory) (size : ℕ) :
    MkStatus × Memory × VfsBlock :=
  if !b.initialized ∨ b.sectorCount ≤ sector ∨ sectorSize < size then (.invalidArg, buffer, b)
  else if b.fails then (.ioError, buffer, b.next)
  else (.ok, blit buffer 0 (slice (b.flash sector.toNat) 0 size), b.next)

/-- `vfs_block_write`. -/
def vfsBlockWrite (b : VfsBlock) (sector : UInt32) (data : List UInt8) : MkStatus × VfsBlock :=
  if !b.initialized ∨ b.sectorCount ≤ sector ∨ sectorSize < data.length then (.invalidArg, b)
  else if b.fails then (.ioError, b.next)
  else (.ok, b.next.perform (.program sector.toNat data))

/-- `vfs_block_erase`. -/
def vfsBlockErase (b : VfsBlock) (sector : UInt32) : MkStatus × VfsBlock :=
  if !b.initialized ∨ b.sectorCount ≤ sector then (.invalidArg, b)
  else if b.fails then (.ioError, b.next)
  else (.ok, b.next.perform (.erase sector.toNat))

/-! ## Without failures -/

/-- The sectors can be used, and no call of the driver is going to fail. -/
structure Up (b : VfsBlock) : Prop where
  initialized : b.initialized = true
  sectorCount : b.sectorCount = b.medium.sectorCount
  crcTableReady : b.crcTableReady = true
  faults : b.faults = []

variable {b : VfsBlock} {sector : UInt32}

theorem next_eq (h : b.faults = []) : b.next = b := by
  rw [next, h, List.tail_nil, ← h]

/-- Several steps done. -/
def performAll (b : VfsBlock) (steps : List Step) : VfsBlock :=
  { b with flash := run b.medium.cell b.flash steps, journal := b.journal ++ steps }

theorem Up.performAll (h : b.Up) (steps : List Step) : (b.performAll steps).Up :=
  ⟨h.initialized, h.sectorCount, h.crcTableReady, h.faults⟩

@[simp] theorem performAll_performAll (xs ys : List Step) :
    (b.performAll xs).performAll ys = b.performAll (xs ++ ys) := by
  simp [VfsBlock.performAll, run_append]

/-- The arguments of a call are in range. -/
theorem Up.guard (h : b.Up) (hs : sector < 19) : ¬b.sectorCount ≤ sector := by
  rw [h.sectorCount, UInt32.not_le]
  exact UInt32.lt_of_lt_of_le hs b.medium.enough

theorem Up.vfsBlockRead (h : b.Up) (hs : sector < 19) (buffer : Memory) {size : ℕ}
    (hsize : size ≤ sectorSize) : b.vfsBlockRead sector buffer size =
      (.ok, blit buffer 0 (slice (b.flash sector.toNat) 0 size), b) := by
  have hrange : ¬(!b.initialized ∨ b.sectorCount ≤ sector ∨ sectorSize < size) := by
    simp [h.initialized, h.guard hs, hsize]
  rw [VfsBlock.vfsBlockRead, if_neg hrange, if_neg (by simp [fails, h.faults]), next_eq h.faults]

theorem Up.vfsBlockErase (h : b.Up) (hs : sector < 19) :
    b.vfsBlockErase sector = (.ok, b.performAll [.erase sector.toNat]) := by
  have hrange : ¬(!b.initialized ∨ b.sectorCount ≤ sector) := by
    simp [h.initialized, h.guard hs]
  rw [VfsBlock.vfsBlockErase, if_neg hrange, if_neg (by simp [fails, h.faults]), next_eq h.faults]
  rfl

theorem Up.vfsBlockWrite (h : b.Up) (hs : sector < 19) {data : List UInt8}
    (hsize : data.length ≤ sectorSize) :
    b.vfsBlockWrite sector data = (.ok, b.performAll [.program sector.toNat data]) := by
  have hrange : ¬(!b.initialized ∨ b.sectorCount ≤ sector ∨ sectorSize < data.length) := by
    simp [h.initialized, h.guard hs, hsize]
  rw [VfsBlock.vfsBlockWrite, if_neg hrange, if_neg (by simp [fails, h.faults]), next_eq h.faults]
  rfl

/-- The sectors can be used once initialised, those of a partition as they were. -/
theorem vfsBlockInit_eq (h : b.faults = []) :
    ∃ b', b.vfsBlockInit = (.ok, b') ∧ b'.Up ∧ b'.medium = b.medium ∧ b'.journal = b.journal ∧
      b'.flash = if b.medium.persistent then b.flash else fun _ => blank := by
  have htable : ∃ t : VfsBlock, (if b.crcTableReady then b else b.initCrcTable) = t ∧
      t.crcTableReady = true ∧ t.faults = [] ∧ t.medium = b.medium ∧ t.journal = b.journal ∧
        t.flash = b.flash := by
    by_cases hready : b.crcTableReady = true
    · exact ⟨b, if_pos hready, hready, h, rfl, rfl, rfl⟩
    · refine ⟨b.initCrcTable, if_neg hready, ?_⟩
      simp only [initCrcTable]
      exact ⟨trivial, h, trivial, trivial, trivial⟩
  obtain ⟨t, ht, hready, hfaults, hmedium, hjournal, hflash⟩ := htable
  rw [VfsBlock.vfsBlockInit, ht]
  by_cases hp : t.medium.persistent = true
  · have hfails : t.fails = false := by simp [fails, hfaults]
    simp only [hp, if_true, hfails, Bool.false_and, Bool.false_eq_true, if_false, next_eq hfaults]
    refine ⟨_, rfl, ⟨rfl, rfl, hready, hfaults⟩, hmedium, hjournal, ?_⟩
    rw [if_pos (hmedium ▸ hp)]
    exact hflash
  · simp only [hp, Bool.false_eq_true, if_false]
    refine ⟨_, rfl, ⟨rfl, rfl, hready, hfaults⟩, hmedium, hjournal, ?_⟩
    rw [if_neg (hmedium ▸ hp)]

theorem Up.vfsBlockCalcCrc32 (h : b.Up) (data : List UInt8) :
    b.vfsBlockCalcCrc32 data = ((b.vfsBlockCalcCrc32 data).1, b) := by
  rw [VfsBlock.vfsBlockCalcCrc32, if_pos h.crcTableReady]

end VfsBlock

end SliverOS
