import SliverOS.Flash.Discipline
import SliverOS.Vfs.Invariant

/-!
# The file system on NOR flash

Programming NOR flash only clears bits, while the simulated flash takes any bytes.
The file system programs a sector only right after erasing it, so both do the same:
a run on the one and a run on the other go through twin states, with the same flash
(`Twin`), as long as no call of the driver fails.

* `Twin.call`: a call keeps twin states, and has the same outcome in both;
* `discipline`: over any run, the outcomes and the flash are the same for clearing
  and for overwriting cells, and no sector is programmed that was not erased since
  it was last programmed.
-/

namespace SliverOS

open Bytes Flash

/-! ## Sectors -/

namespace VfsBlock

/-- The sectors on other cells. -/
def setCell (c : Cell) (b : VfsBlock) : VfsBlock :=
  { b with medium := { b.medium with cell := c } }

/-- The same sectors on other cells, which were programmed only when erased. -/
structure Twin (c : Cell) (b b' : VfsBlock) : Prop where
  faults : b.faults = []
  eq_setCell : b' = b.setCell c
  disciplined : Disciplined ∅ b.journal

variable {c : Cell} {b b' : VfsBlock} {sector : UInt32} {data : List UInt8}

/-! ### What the calls do when none fails -/

theorem vfsBlockRead_eq (h : b.faults = []) (sector : UInt32) (buffer : Memory) (size : ℕ) :
    b.vfsBlockRead sector buffer size =
      if !b.initialized ∨ b.sectorCount ≤ sector ∨ sectorSize < size then
        (.invalidArg, buffer, b)
      else (.ok, blit buffer 0 (slice (b.flash sector.toNat) 0 size), b) := by
  rw [vfsBlockRead, if_neg (show ¬b.fails = true by simp [fails, h]), next_eq h]

theorem vfsBlockErase_eq (h : b.faults = []) (sector : UInt32) :
    b.vfsBlockErase sector = if !b.initialized ∨ b.sectorCount ≤ sector then (.invalidArg, b)
      else (.ok, b.performAll [.erase sector.toNat]) := by
  rw [vfsBlockErase, if_neg (show ¬b.fails = true by simp [fails, h]), next_eq h]
  rfl

theorem vfsBlockWrite_eq (h : b.faults = []) (sector : UInt32) (data : List UInt8) :
    b.vfsBlockWrite sector data =
      if !b.initialized ∨ b.sectorCount ≤ sector ∨ sectorSize < data.length then (.invalidArg, b)
      else (.ok, b.performAll [.program sector.toNat data]) := by
  rw [vfsBlockWrite, if_neg (show ¬b.fails = true by simp [fails, h]), next_eq h]
  rfl

/-- A sector that is erased is then programmed, unless the data do not fit in it. -/
theorem vfsBlockWrite_vfsBlockErase (h : b.faults = []) (sector : UInt32) (data : List UInt8) :
    (b.vfsBlockErase sector).2.vfsBlockWrite sector data =
      if !b.initialized ∨ b.sectorCount ≤ sector then (.invalidArg, b)
      else if sectorSize < data.length then (.invalidArg, b.performAll [.erase sector.toNat])
      else (.ok, b.performAll (rewrite sector.toNat data)) := by
  rw [vfsBlockErase_eq h]
  by_cases hrange : !b.initialized ∨ b.sectorCount ≤ sector
  · rw [if_pos hrange, if_pos hrange, vfsBlockWrite_eq h, if_pos (hrange.imp_right .inl)]
  · have herased : (b.performAll [.erase sector.toNat]).faults = [] := h
    rw [if_neg hrange, if_neg hrange, vfsBlockWrite_eq herased]
    obtain ⟨hinit, hsector⟩ := not_or.1 hrange
    by_cases hlen : sectorSize < data.length
    · rw [if_pos (.inr (.inr hlen)), if_pos hlen]
    · have hwrite : ¬(!(b.performAll [.erase sector.toNat]).initialized ∨
          (b.performAll [.erase sector.toNat]).sectorCount ≤ sector ∨ sectorSize < data.length) :=
        not_or.2 ⟨hinit, not_or.2 ⟨hsector, hlen⟩⟩
      rw [if_neg hwrite, if_neg hlen, performAll_performAll]
      rfl

/-! ### On other cells -/

/-- Steps done on both, for which the flash does not depend on the cells. -/
theorem Twin.performAll (h : Twin c b b') {steps : List Step} (hsteps : Disciplined ∅ steps) :
    Twin c (b.performAll steps) (b'.performAll steps) := by
  obtain ⟨hf, rfl, hj⟩ := h
  refine ⟨hf, ?_, hj.append hsteps⟩
  have hflash : run c b.flash steps = run b.medium.cell b.flash steps :=
    hsteps.run_eq fun _ ha => absurd ha (Set.notMem_empty _)
  simp only [VfsBlock.performAll, setCell, hflash]

theorem Twin.faults' (h : Twin c b b') : b'.faults = [] := by
  rw [h.eq_setCell]
  exact h.faults

theorem Twin.initialized (h : Twin c b b') : b'.initialized = b.initialized := by
  rw [h.eq_setCell]
  rfl

theorem Twin.sectorCount (h : Twin c b b') : b'.sectorCount = b.sectorCount := by
  rw [h.eq_setCell]
  rfl

theorem Twin.flash (h : Twin c b b') : b'.flash = b.flash := by
  rw [h.eq_setCell]
  rfl

theorem Twin.journal (h : Twin c b b') : b'.journal = b.journal := by
  rw [h.eq_setCell]
  rfl

theorem Twin.vfsBlockRead (h : Twin c b b') (sector : UInt32) (buffer : Memory) (size : ℕ) :
    ∃ status buffer', b.vfsBlockRead sector buffer size = (status, buffer', b) ∧
      b'.vfsBlockRead sector buffer size = (status, buffer', b') := by
  rw [vfsBlockRead_eq h.faults, vfsBlockRead_eq h.faults', h.initialized, h.sectorCount, h.flash]
  split_ifs
  · exact ⟨_, _, rfl, rfl⟩
  · exact ⟨_, _, rfl, rfl⟩

theorem Twin.vfsBlockErase (h : Twin c b b') (sector : UInt32) :
    Twin c (b.vfsBlockErase sector).2 (b'.vfsBlockErase sector).2 := by
  rw [vfsBlockErase_eq h.faults, vfsBlockErase_eq h.faults', h.initialized, h.sectorCount]
  split_ifs
  · exact h
  · exact h.performAll (disciplined_erase _)

/-- A sector that is programmed after it was erased. -/
theorem Twin.rewrite (h : Twin c b b') (sector : UInt32) (data : List UInt8) :
    ((b'.vfsBlockErase sector).2.vfsBlockWrite sector data).1 =
        ((b.vfsBlockErase sector).2.vfsBlockWrite sector data).1 ∧
      Twin c ((b.vfsBlockErase sector).2.vfsBlockWrite sector data).2
        ((b'.vfsBlockErase sector).2.vfsBlockWrite sector data).2 := by
  rw [vfsBlockWrite_vfsBlockErase h.faults, vfsBlockWrite_vfsBlockErase h.faults', h.initialized,
    h.sectorCount]
  split_ifs
  · exact ⟨rfl, h⟩
  · exact ⟨rfl, h.performAll (disciplined_erase _)⟩
  · exact ⟨rfl, h.performAll (disciplined_rewrite _ _)⟩

theorem initCrcTable_setCell (c : Cell) (b : VfsBlock) :
    (b.setCell c).initCrcTable = b.initCrcTable.setCell c := by
  simp only [initCrcTable, setCell]

/-- The CRC table is made ready for both. -/
theorem Twin.crcTable (h : Twin c b b') :
    Twin c (if b.crcTableReady then b else b.initCrcTable)
      (if b'.crcTableReady then b' else b'.initCrcTable) := by
  have hready : b'.crcTableReady = b.crcTableReady := by
    rw [h.eq_setCell]
    rfl
  rw [hready]
  split_ifs
  · exact h
  · refine ⟨?_, by rw [h.eq_setCell, initCrcTable_setCell], ?_⟩
    · simpa only [initCrcTable] using h.faults
    · simpa only [initCrcTable] using h.disciplined

/-- The CRC-32 is the same. -/
theorem Twin.vfsBlockCalcCrc32 (h : Twin c b b') (data : List UInt8) :
    (b'.vfsBlockCalcCrc32 data).1 = (b.vfsBlockCalcCrc32 data).1 ∧
      Twin c (b.vfsBlockCalcCrc32 data).2 (b'.vfsBlockCalcCrc32 data).2 := by
  have htable := h.crcTable
  rw [VfsBlock.vfsBlockCalcCrc32, VfsBlock.vfsBlockCalcCrc32]
  generalize (if b.crcTableReady then b else b.initCrcTable) = t at htable ⊢
  generalize (if b'.crcTableReady then b' else b'.initCrcTable) = t' at htable ⊢
  obtain ⟨hf, rfl, hj⟩ := htable
  exact ⟨rfl, hf, rfl, hj⟩

theorem Twin.vfsBlockInit (h : Twin c b b') :
    b'.vfsBlockInit.1 = b.vfsBlockInit.1 ∧ Twin c b.vfsBlockInit.2 b'.vfsBlockInit.2 := by
  have htable := h.crcTable
  rw [VfsBlock.vfsBlockInit, VfsBlock.vfsBlockInit]
  generalize (if b.crcTableReady then b else b.initCrcTable) = t at htable ⊢
  generalize (if b'.crcTableReady then b' else b'.initCrcTable) = t' at htable ⊢
  obtain ⟨hf, rfl, hj⟩ := htable
  have hf' : (t.setCell c).faults = [] := hf
  have hpersistent : (t.setCell c).medium.persistent = t.medium.persistent := rfl
  have hfails : t.fails = false := by simp [fails, hf]
  have hfails' : (t.setCell c).fails = false := by simp [fails, hf']
  simp only [hpersistent, hfails, hfails', Bool.false_and, Bool.false_eq_true, if_false,
    next_eq hf, next_eq hf']
  split_ifs
  · exact ⟨rfl, hf, rfl, hj⟩
  · exact ⟨rfl, hf, rfl, hj⟩

end VfsBlock

/-! ## The file system -/

namespace Vfs

/-- The same file system on other cells, which were programmed only when erased. -/
structure Twin (c : Cell) (s s' : Vfs) : Prop where
  block : s.block.Twin c s'.block
  eq_block : s' = { s with block := s'.block }

variable {c : Cell} {s s' : Vfs} {i : Fin 16} {d : Fin 8}

theorem Twin.superblock (h : Twin c s s') : s'.superblock = s.superblock := by rw [h.eq_block]

theorem Twin.openFiles (h : Twin c s s') : s'.openFiles = s.openFiles := by rw [h.eq_block]

theorem Twin.ready (h : Twin c s s') : s'.ready = s.ready := by rw [h.eq_block]

theorem Twin.inode (h : Twin c s s') (i : Fin 16) : s'.inode i = s.inode i := by
  rw [Vfs.inode, Vfs.inode, h.superblock]

/-- The superblock in memory replaced in both. -/
theorem Twin.setSuperblock (h : Twin c s s') (sb : VfsSuperblock) :
    Twin c { s with superblock := sb } { s' with superblock := sb } := by
  refine ⟨h.block, ?_⟩
  rw [h.eq_block]

/-- The descriptors replaced in both. -/
theorem Twin.setOpenFiles (h : Twin c s s') (files : Fin 8 → VfsFileDesc) :
    Twin c { s with openFiles := files } { s' with openFiles := files } := by
  refine ⟨h.block, ?_⟩
  rw [h.eq_block]

theorem Twin.erase (h : Twin c s s') (sector : UInt32) :
    Twin c (s.erase sector) (s'.erase sector) := by
  refine ⟨h.block.vfsBlockErase sector, ?_⟩
  simp only [Vfs.erase]
  rw [h.eq_block]

theorem Twin.rewrite (h : Twin c s s') (sector : UInt32) (data : List UInt8) :
    Twin c ((s.erase sector).write sector data) ((s'.erase sector).write sector data) := by
  refine ⟨(h.block.rewrite sector data).2, ?_⟩
  simp only [Vfs.erase, Vfs.write]
  rw [h.eq_block]

theorem Twin.vfsSyncSuperblock (h : Twin c s s') :
    Twin c s.vfsSyncSuperblock s'.vfsSyncSuperblock := by
  rw [Vfs.vfsSyncSuperblock, Vfs.vfsSyncSuperblock, h.superblock]
  obtain ⟨hcrc, hblock⟩ := h.block.vfsBlockCalcCrc32
    (VfsSuperblock.bytes { s.superblock with magic := blockMagic } |>.take 776)
  simp only [hcrc]
  refine Twin.rewrite ⟨hblock, ?_⟩ 0 _
  rw [h.eq_block]

theorem Twin.setInode (h : Twin c s s') (i : Fin 16) (ino : VfsInode) :
    Twin c (s.setInode i ino) (s'.setInode i ino) := by
  rw [Vfs.setInode, Vfs.setInode, h.superblock]
  exact h.setSuperblock _

/-- The number of files changed in both. -/
theorem Twin.mapFileCount (h : Twin c s s') (f : UInt32 → UInt32) :
    Twin c
      { s with superblock := { s.superblock with fileCount := f s.superblock.fileCount } }
      { s' with superblock := { s'.superblock with fileCount := f s'.superblock.fileCount } } := by
  rw [h.superblock]
  exact h.setSuperblock _

theorem Twin.eraseFile (h : Twin c s s') (i : Fin 16) :
    Twin c (s.erase (s.inode i).startSector) (s'.erase (s'.inode i).startSector) := by
  rw [h.inode]
  exact h.erase _

/-! ### Mounting -/

theorem Twin.createDefaultFiles (h : Twin c s s') :
    Twin c s.createDefaultFiles s'.createDefaultFiles := by
  have hseeded : Twin c s.seedMacro s'.seedMacro := by
    rw [seedMacro, seedMacro, h.inode]
    exact (h.setInode 0 _).rewrite 1 defaultMacro
  have hlog : Twin c s.seedMacro.seedLog s'.seedMacro.seedLog := by
    rw [seedLog, seedLog, hseeded.inode]
    exact (hseeded.setInode 1 _).erase 2
  exact (hlog.mapFileCount fun _ => 2).vfsSyncSuperblock

theorem Twin.vfsInit (h : Twin c s s') :
    s'.vfsInit.1 = s.vfsInit.1 ∧ Twin c s.vfsInit.2 s'.vfsInit.2 := by
  obtain ⟨hstatus, hblock⟩ := h.block.vfsBlockInit
  rw [Vfs.vfsInit, Vfs.vfsInit]
  simp only
  generalize s.block.vfsBlockInit = r at hstatus hblock ⊢
  generalize s'.block.vfsBlockInit = r' at hstatus hblock ⊢
  obtain ⟨status, b⟩ := r
  obtain ⟨status', b'⟩ := r'
  obtain rfl : status' = status := hstatus
  simp only at hblock ⊢
  by_cases hok : status' ≠ .ok
  · rw [if_pos hok, if_pos hok]
    refine ⟨rfl, hblock, ?_⟩
    rw [h.eq_block]
  · -- Both read the same superblock, and so both format, or neither does.
    obtain ⟨rstatus, buffer, hread, hread'⟩ := hblock.vfsBlockRead 0 VfsSuperblock.zero.byte
      VfsSuperblock.size
    rw [if_neg hok, if_neg hok, hread, hread']
    refine ⟨rfl, ?_⟩
    simp only
    split_ifs
    · have hformatted : Twin c
          { s with openFiles := fun _ => ⟨0, 0, 0, false⟩
                   superblock := { VfsSuperblock.zero with magic := blockMagic }, block := b }
          { s' with openFiles := fun _ => ⟨0, 0, 0, false⟩
                    superblock := { VfsSuperblock.zero with magic := blockMagic }
                    block := b' } := by
        refine ⟨hblock, ?_⟩
        rw [h.eq_block]
      have hfiles := hformatted.createDefaultFiles
      refine ⟨hfiles.block, ?_⟩
      rw [hfiles.eq_block]
    · refine ⟨hblock, ?_⟩
      rw [h.eq_block]

/-! ### Opening -/

theorem Twin.findInode (h : Twin c s s') (name : List UInt8) :
    s'.findInode name = s.findInode name := by
  simp only [Vfs.findInode, h.inode]

theorem Twin.freeInode (h : Twin c s s') : s'.freeInode = s.freeInode := by
  simp only [Vfs.freeInode, h.inode]

theorem Twin.freeFd (h : Twin c s s') : s'.freeFd = s.freeFd := by
  simp only [Vfs.freeFd, h.openFiles]

theorem Twin.create (h : Twin c s s') (i : Fin 16) (name : List UInt8) (flags : UInt32) :
    Twin c (s.create i name flags) (s'.create i name flags) := by
  have hinode : Twin c (s.setInode i (s.newInode i name flags))
      (s'.setInode i (s'.newInode i name flags)) := by
    rw [newInode, newInode, h.inode]
    exact h.setInode i _
  exact ((hinode.mapFileCount (· + 1)).eraseFile i).vfsSyncSuperblock

theorem Twin.targetInode (h : Twin c s s') (name : List UInt8) (flags : UInt32) :
    (s'.targetInode name flags).1 = (s.targetInode name flags).1 ∧
      Twin c (s.targetInode name flags).2 (s'.targetInode name flags).2 := by
  rw [Vfs.targetInode, Vfs.targetInode, h.findInode, h.freeInode]
  cases s.findInode name with
  | some i => exact ⟨rfl, h⟩
  | none =>
    simp only
    split_ifs
    · exact ⟨rfl, h⟩
    · cases s.freeInode with
      | none => exact ⟨rfl, h⟩
      | some i => exact ⟨rfl, h.create i name flags⟩

theorem Twin.truncate (h : Twin c s s') (i : Fin 16) (d : Fin 8) :
    Twin c (s.truncate i d) (s'.truncate i d) := by
  have hinode : Twin c (s.setInode i { s.inode i with sizeBytes := 0 })
      (s'.setInode i { s'.inode i with sizeBytes := 0 }) := by
    rw [h.inode]
    exact h.setInode i _
  have hrewound := hinode.setOpenFiles
    (Function.update s.openFiles d { s.openFiles d with cursor := 0 })
  rw [Vfs.truncate, Vfs.truncate]
  simp only
  have hfiles : (s'.setInode i { s'.inode i with sizeBytes := 0 }).openFiles = s.openFiles :=
    h.openFiles
  rw [hfiles]
  exact (hrewound.eraseFile i).vfsSyncSuperblock

theorem Twin.vfsOpen (h : Twin c s s') (path : List UInt8) (flags : UInt32) :
    (s'.vfsOpen path flags).1 = (s.vfsOpen path flags).1 ∧
      Twin c (s.vfsOpen path flags).2 (s'.vfsOpen path flags).2 := by
  rw [Vfs.vfsOpen, Vfs.vfsOpen, h.ready]
  by_cases hready : (!s.ready) = true
  · rw [if_pos hready, if_pos hready]
    exact ⟨rfl, h⟩
  rw [if_neg hready, if_neg hready]
  obtain ⟨hresult, ht⟩ := h.targetInode (fname path) flags
  generalize s.targetInode (fname path) flags = r at hresult ht ⊢
  generalize s'.targetInode (fname path) flags = r' at hresult ht ⊢
  obtain ⟨result, t⟩ := r
  obtain ⟨result', t'⟩ := r'
  obtain rfl : result' = result := hresult
  cases result' with
  | error status => exact ⟨rfl, ht⟩
  | ok i =>
    simp only at ht ⊢
    rw [ht.freeFd]
    cases t.freeFd with
    | none => exact ⟨rfl, ht⟩
    | some d =>
      simp only
      rw [ht.inode, ht.openFiles]
      -- Only a truncation writes, to a sector that it erases first.
      by_cases htrunc : flags &&& oTrunc ≠ 0
      · rw [if_pos htrunc, if_pos htrunc]
        exact ⟨trivial, (ht.setOpenFiles _).truncate i d⟩
      · rw [if_neg htrunc, if_neg htrunc]
        exact ⟨trivial, ht.setOpenFiles _⟩

/-! ### Reading and writing -/

theorem Twin.vfsRead (h : Twin c s s') (w : SizeT) (fd : ℤ) (size : ℕ) :
    (s'.vfsRead w fd size).1 = (s.vfsRead w fd size).1 ∧
      Twin c (s.vfsRead w fd size).2 (s'.vfsRead w fd size).2 := by
  rw [Vfs.vfsRead, Vfs.vfsRead]
  cases fd? fd with
  | none => exact ⟨rfl, h⟩
  | some d =>
    have hbuf : s'.readBuf = s.readBuf := by rw [h.eq_block]
    obtain ⟨status, buffer, hread, hread'⟩ := h.block.vfsBlockRead
      (s.inode (s.openFiles d).inodeIdx).startSector s.readBuf sectorSize
    simp only
    rw [h.ready, h.openFiles, h.inode, hbuf, hread, hread']
    split_ifs
    · exact ⟨rfl, h⟩
    · exact ⟨rfl, h⟩
    · exact ⟨rfl, h⟩
    · refine ⟨rfl, h.block, ?_⟩
      rw [h.eq_block]
    · refine ⟨rfl, h.block, ?_⟩
      rw [h.eq_block]

theorem Twin.writeSector (h : Twin c s s') (d : Fin 8) (buffer : List UInt8) (size : ℕ) :
    (s'.writeSector d buffer size).1 = (s.writeSector d buffer size).1 ∧
      Twin c (s.writeSector d buffer size).2 (s'.writeSector d buffer size).2 := by
  have hbuf : s'.writeBuf = s.writeBuf := by rw [h.eq_block]
  obtain ⟨status, page, hread, hread'⟩ := h.block.vfsBlockRead
    (s.inode (s.openFiles d).inodeIdx).startSector s.writeBuf sectorSize
  rw [Vfs.writeSector, Vfs.writeSector, h.openFiles, h.inode, hbuf, hread, hread']
  obtain ⟨hstatus, hblock⟩ := h.block.rewrite (s.inode (s.openFiles d).inodeIdx).startSector
    (slice (blit page (s.openFiles d).cursor.toNat buffer) 0 size)
  refine ⟨hstatus, hblock, ?_⟩
  simp only
  rw [h.eq_block]

theorem Twin.advance (h : Twin c s s') (d : Fin 8) (size : ℕ) :
    Twin c (s.advance d size) (s'.advance d size) := by
  have hmoved := h.setOpenFiles (Function.update s.openFiles d (s.advanced d size))
  have hinode := hmoved.inode (s.openFiles d).inodeIdx
  simp only [advanced] at hmoved hinode
  simp only [Vfs.advance, h.openFiles, hinode]
  split_ifs
  · exact (hmoved.setInode _ _).vfsSyncSuperblock
  · exact hmoved

theorem Twin.vfsWrite (h : Twin c s s') (w : SizeT) (fd : ℤ) (buffer : List UInt8) :
    (s'.vfsWrite w fd buffer).1 = (s.vfsWrite w fd buffer).1 ∧
      Twin c (s.vfsWrite w fd buffer).2 (s'.vfsWrite w fd buffer).2 := by
  rw [Vfs.vfsWrite, Vfs.vfsWrite]
  cases fd? fd with
  | none => exact ⟨rfl, h⟩
  | some d =>
    obtain ⟨hstatus, ht⟩ := h.writeSector d buffer
      (w.wrap ((s.openFiles d).cursor.toNat + buffer.length))
    simp only
    rw [h.ready, h.openFiles]
    generalize s.writeSector d buffer _ = r at hstatus ht ⊢
    generalize s'.writeSector d buffer _ = r' at hstatus ht ⊢
    obtain ⟨status, t⟩ := r
    obtain ⟨status', t'⟩ := r'
    obtain rfl : status' = status := hstatus
    split_ifs
    · exact ⟨rfl, h⟩
    · exact ⟨rfl, h⟩
    · exact ⟨rfl, h⟩
    · exact ⟨rfl, ht⟩
    · exact ⟨rfl, ht.advance d buffer.length⟩

/-! ### Closing and deleting -/

theorem Twin.vfsClose (h : Twin c s s') (fd : ℤ) :
    (s'.vfsClose fd).1 = (s.vfsClose fd).1 ∧ Twin c (s.vfsClose fd).2 (s'.vfsClose fd).2 := by
  rw [Vfs.vfsClose, Vfs.vfsClose]
  cases fd? fd with
  | none => exact ⟨rfl, h⟩
  | some d =>
    simp only
    rw [h.openFiles]
    split_ifs
    · exact ⟨rfl, h⟩
    · exact ⟨rfl, h.setOpenFiles _⟩

theorem Twin.remove (h : Twin c s s') (i : Fin 16) : Twin c (s.remove i) (s'.remove i) := by
  have hinode : Twin c (s.setInode i { s.inode i with inUse := 0 })
      (s'.setInode i { s'.inode i with inUse := 0 }) := by
    rw [h.inode]
    exact h.setInode i _
  exact ((hinode.eraseFile i).mapFileCount (· - 1)).vfsSyncSuperblock

theorem Twin.vfsDelete (h : Twin c s s') (path : List UInt8) :
    (s'.vfsDelete path).1 = (s.vfsDelete path).1 ∧
      Twin c (s.vfsDelete path).2 (s'.vfsDelete path).2 := by
  rw [Vfs.vfsDelete, Vfs.vfsDelete, h.ready, h.findInode]
  split_ifs
  · exact ⟨rfl, h⟩
  · cases s.findInode (fname path) with
    | none => exact ⟨rfl, h⟩
    | some i => exact ⟨rfl, h.remove i⟩

/-! ## Runs -/

/-- What a call returns. -/
inductive Outcome
  | status (status : MkStatus)
  | descriptor (result : Except MkStatus (Fin 8))
  | bytes (result : Except MkStatus (List UInt8))
  | count (result : Except MkStatus ℕ)

/-- What a call returns in a state. -/
def outcome (w : SizeT) (s : Vfs) : Call → Outcome
  | .vfsInit => .status s.vfsInit.1
  | .vfsOpen path flags => .descriptor (s.vfsOpen path flags).1
  | .vfsRead fd size => .bytes (s.vfsRead w fd size).1
  | .vfsWrite fd buffer => .count (s.vfsWrite w fd buffer).1
  | .vfsClose fd => .status (s.vfsClose fd).1
  | .vfsDelete path => .status (s.vfsDelete path).1

/-- What some calls return, one after the other, and the file system after them. -/
def execAll (w : SizeT) (s : Vfs) : List Call → List Outcome × Vfs
  | [] => ([], s)
  | call :: calls =>
    let r := (s.exec w call).execAll w calls
    (s.outcome w call :: r.1, r.2)

/-- A call has the same outcome on other cells. -/
theorem Twin.call (h : Twin c s s') (w : SizeT) (call : Call) :
    s'.outcome w call = s.outcome w call ∧ Twin c (s.exec w call) (s'.exec w call) := by
  cases call with
  | vfsInit => exact ⟨congrArg Outcome.status h.vfsInit.1, h.vfsInit.2⟩
  | vfsOpen path flags =>
    exact ⟨congrArg Outcome.descriptor (h.vfsOpen path flags).1, (h.vfsOpen path flags).2⟩
  | vfsRead fd size =>
    exact ⟨congrArg Outcome.bytes (h.vfsRead w fd size).1, (h.vfsRead w fd size).2⟩
  | vfsWrite fd buffer =>
    exact ⟨congrArg Outcome.count (h.vfsWrite w fd buffer).1, (h.vfsWrite w fd buffer).2⟩
  | vfsClose fd => exact ⟨congrArg Outcome.status (h.vfsClose fd).1, (h.vfsClose fd).2⟩
  | vfsDelete path =>
    exact ⟨congrArg Outcome.status (h.vfsDelete path).1, (h.vfsDelete path).2⟩

theorem Twin.execAll (h : Twin c s s') (w : SizeT) (calls : List Call) :
    (s'.execAll w calls).1 = (s.execAll w calls).1 ∧
      Twin c (s.execAll w calls).2 (s'.execAll w calls).2 := by
  induction calls generalizing s s' with
  | nil => exact ⟨rfl, h⟩
  | cons call calls ih =>
    obtain ⟨houtcome, hnext⟩ := h.call w call
    obtain ⟨houtcomes, hlast⟩ := ih hnext
    refine ⟨?_, hlast⟩
    rw [Vfs.execAll, Vfs.execAll, houtcome, houtcomes]

/-- A run on cells of which programming only clears bits. -/
def onClearing (w : SizeT) (medium : Medium) (flash : Image) (calls : List Call) :
    List Outcome × Vfs :=
  (powerOn { medium with cell := .clearing } flash []).execAll w calls

/-- A run on cells that take any value programmed. -/
def onOverwriting (w : SizeT) (medium : Medium) (flash : Image) (calls : List Call) :
    List Outcome × Vfs :=
  (powerOn { medium with cell := .overwriting } flash []).execAll w calls

/-- In any run, the outcomes and the flash are the same on both kinds of cells, and a
    sector is programmed only when it was erased since it was last programmed. -/
theorem discipline (w : SizeT) (medium : Medium) (flash : Image) (calls : List Call) :
    (onClearing w medium flash calls).1 = (onOverwriting w medium flash calls).1 ∧
      (onClearing w medium flash calls).2.block.flash =
        (onOverwriting w medium flash calls).2.block.flash ∧
      ∀ a data before after, (onClearing w medium flash calls).2.block.journal =
          before ++ .program a data :: after →
        ∃ earlier since, before = earlier ++ .erase a :: since ∧
          ∀ data', .program a data' ∉ since := by
  have hstart : Twin .clearing (powerOn { medium with cell := .overwriting } flash [])
      (powerOn { medium with cell := .clearing } flash []) := ⟨⟨rfl, rfl, trivial⟩, rfl⟩
  obtain ⟨houtcomes, htwin⟩ := hstart.execAll w calls
  refine ⟨houtcomes, htwin.block.flash, fun a data before after hjournal => ?_⟩
  have hdisciplined : Disciplined ∅ (onClearing w medium flash calls).2.block.journal :=
    htwin.block.journal ▸ htwin.block.disciplined
  rw [hjournal] at hdisciplined
  exact hdisciplined.erased_before.resolve_left fun hmem => Set.notMem_empty a hmem.1

end Vfs

end SliverOS
