import SliverOS.Vfs.Record
import SliverOS.Vfs.Splice

/-!
# The table of files

The superblock in memory keeps, besides the inodes, the number of files and the
CRC-32 of what is before it. Both are brought up to date by each of the changes
of an inode, the CRC-32 when the superblock is written (`Summed`).

In any run, the table thus counts its inodes in use, their sectors are apart from
each other and from that of the superblock, sizes and positions are in range, and
the superblock on the flash is the table, with its CRC-32 (`Reachable.fileTable`).
-/

namespace SliverOS

open Bytes Flash

/-! ## The CRC table on the flash -/

namespace VfsBlock

variable {b : VfsBlock}

theorem TableOk.vfsBlockErase (h : b.TableOk) (sector : UInt32) :
    (b.vfsBlockErase sector).2.TableOk := by
  rw [VfsBlock.vfsBlockErase]
  split_ifs
  · exact h
  · exact h.congr rfl rfl
  · exact h.congr rfl rfl

theorem TableOk.vfsBlockWrite (h : b.TableOk) (sector : UInt32) (data : List UInt8) :
    (b.vfsBlockWrite sector data).2.TableOk := by
  rw [VfsBlock.vfsBlockWrite]
  split_ifs
  · exact h
  · exact h.congr rfl rfl
  · exact h.congr rfl rfl

theorem TableOk.performAll (h : b.TableOk) (steps : List Step) : (b.performAll steps).TableOk :=
  h.congr rfl rfl

end VfsBlock

namespace VfsSuperblock

/-- The bytes of a superblock that its CRC-32 is of. -/
def summed (sb : VfsSuperblock) : List UInt8 := sb.bytes.take 776

/-- The CRC-32 is not of itself. -/
theorem summed_setCrc (sb : VfsSuperblock) (crc : UInt32) :
    { sb with crc32 := crc }.summed = sb.summed := by
  refine List.ext_getElem (by simp [summed]) fun x hx _ => ?_
  simp only [summed, List.length_take, length_bytes] at hx
  simp only [summed, List.getElem_take, bytes, List.getElem_map, List.getElem_range]
  rw [byte, byte, if_pos (show x < 776 by omega), if_pos (show x < 776 by omega)]

end VfsSuperblock

/-! ## Inodes in use -/

/-- The slots in use. -/
def usedSlots (inodes : Fin 16 → VfsInode) : Finset (Fin 16) :=
  Finset.univ.filter fun i => (inodes i).inUse ≠ 0

theorem mem_usedSlots {inodes : Fin 16 → VfsInode} {i : Fin 16} :
    i ∈ usedSlots inodes ↔ (inodes i).inUse ≠ 0 := by
  simp [usedSlots]

theorem card_usedSlots_le (inodes : Fin 16 → VfsInode) : (usedSlots inodes).card ≤ 16 :=
  Finset.card_le_univ _

section Update

variable {inodes : Fin 16 → VfsInode} {i : Fin 16} {ino : VfsInode}

theorem usedSlots_setSize (inodes : Fin 16 → VfsInode) (i : Fin 16) (size : UInt32) :
    usedSlots (Function.update inodes i { inodes i with sizeBytes := size }) =
      usedSlots inodes := by
  ext j
  rw [mem_usedSlots, mem_usedSlots]
  by_cases hj : j = i
  · rw [hj, Function.update_self]
  · rw [Function.update_of_ne hj]

theorem card_usedSlots_of_free (hfree : (inodes i).inUse = 0) (huse : ino.inUse ≠ 0) :
    (usedSlots (Function.update inodes i ino)).card = (usedSlots inodes).card + 1 := by
  have hnew : usedSlots (Function.update inodes i ino) = insert i (usedSlots inodes) := by
    ext j
    rw [Finset.mem_insert, mem_usedSlots, mem_usedSlots]
    by_cases hj : j = i
    · simp [hj, huse]
    · simp [hj]
  rw [hnew, Finset.card_insert_of_notMem fun hmem => mem_usedSlots.1 hmem hfree]

theorem card_usedSlots_of_used (huse : (inodes i).inUse ≠ 0) (hfree : ino.inUse = 0) :
    (usedSlots inodes).card = (usedSlots (Function.update inodes i ino)).card + 1 := by
  have hold : (usedSlots (Function.update (Function.update inodes i ino) i (inodes i))).card =
      (usedSlots (Function.update inodes i ino)).card + 1 :=
    card_usedSlots_of_free (by rwa [Function.update_self]) huse
  rwa [Function.update_idem, Function.update_eq_self] at hold

end Update

namespace Vfs

variable {s : Vfs} {i : Fin 16} {d : Fin 8}

/-! ## The number of files, and the CRC-32 -/

/-- The number of files is that of the inodes in use, and the CRC-32 is that of the
    superblock in memory. -/
structure Summed (s : Vfs) : Prop where
  fileCount : s.superblock.fileCount = UInt32.ofNat (usedSlots s.superblock.inodes).card
  table : s.block.TableOk
  crc : s.superblock.crc32 = (s.block.vfsBlockCalcCrc32 s.superblock.summed).1

/-- The same superblock, and the same CRC-32 of it. -/
theorem Summed.congr {t : Vfs} (h : Summed s) (hsb : t.superblock = s.superblock)
    (htable : t.block.TableOk) : Summed t where
  fileCount := by rw [hsb, h.fileCount]
  table := htable
  crc := by rw [hsb, h.crc, h.table.crc_eq htable]

theorem tableOk_vfsSyncSuperblock (h : s.block.TableOk) : s.vfsSyncSuperblock.block.TableOk := by
  have hcrc := h.vfsBlockCalcCrc32 (VfsSuperblock.summed { s.superblock with magic := blockMagic })
  exact (hcrc.vfsBlockErase 0).vfsBlockWrite 0 s.sealed.bytes

/-- A superblock that counts its inodes has its CRC-32 after it is written. -/
theorem summed_vfsSyncSuperblock (htable : s.block.TableOk)
    (hcount : s.superblock.fileCount = UInt32.ofNat (usedSlots s.superblock.inodes).card) :
    Summed s.vfsSyncSuperblock where
  fileCount := hcount
  table := tableOk_vfsSyncSuperblock htable
  crc := by
    have hsealed : s.vfsSyncSuperblock.superblock = s.sealed := rfl
    rw [hsealed, sealed, VfsSuperblock.summed_setCrc]
    exact htable.crc_eq (tableOk_vfsSyncSuperblock htable) _

theorem Summed.create (h : Summed s) (hfree : (s.inode i).inUse = 0) (name : List UInt8)
    (flags : UInt32) : Summed (s.create i name flags) := by
  refine summed_vfsSyncSuperblock (h.table.vfsBlockErase _) ?_
  change s.superblock.fileCount + 1 = UInt32.ofNat (usedSlots (Function.update
    s.superblock.inodes i (s.newInode i name flags))).card
  have hcard := card_usedSlots_of_free (show (s.superblock.inodes i).inUse = 0 from hfree)
    (show (s.newInode i name flags).inUse ≠ 0 from show (1 : UInt32) ≠ 0 by decide)
  rw [hcard, h.fileCount, UInt32.ofNat_add]
  rfl

/-- A change of the size of a file does not change the number of files. -/
theorem Summed.fileCount_setSize (h : Summed s) (i : Fin 16) (size : UInt32) :
    (s.setInode i { s.inode i with sizeBytes := size }).superblock.fileCount =
      UInt32.ofNat (usedSlots (s.setInode i
        { s.inode i with sizeBytes := size }).superblock.inodes).card :=
  h.fileCount.trans (congrArg (fun slots : Finset (Fin 16) => UInt32.ofNat slots.card)
    (usedSlots_setSize s.superblock.inodes i size).symm)

theorem Summed.truncate (h : Summed s) (i : Fin 16) (d : Fin 8) : Summed (s.truncate i d) :=
  summed_vfsSyncSuperblock (h.table.vfsBlockErase _) (h.fileCount_setSize i 0)

theorem Summed.remove (h : Summed s) (huse : (s.inode i).inUse ≠ 0) : Summed (s.remove i) := by
  refine summed_vfsSyncSuperblock (h.table.vfsBlockErase _) ?_
  change s.superblock.fileCount - 1 = UInt32.ofNat (usedSlots (Function.update
    s.superblock.inodes i { s.inode i with inUse := 0 })).card
  have hcard := card_usedSlots_of_used (show (s.superblock.inodes i).inUse ≠ 0 from huse)
    (show ({ s.inode i with inUse := 0 } : VfsInode).inUse = 0 from rfl)
  rw [h.fileCount, hcard, UInt32.ofNat_add]
  exact add_sub_cancel_right _ _

theorem Summed.advance (h : Summed s) (d : Fin 8) (size : ℕ) : Summed (s.advance d size) := by
  by_cases hlt : (s.inode (s.openFiles d).inodeIdx).sizeBytes < (s.advanced d size).cursor
  · have hgrown : s.advance d size = Vfs.vfsSyncSuperblock (Vfs.setInode { s with
        openFiles := Function.update s.openFiles d (s.advanced d size) } (s.openFiles d).inodeIdx
        { s.inode (s.openFiles d).inodeIdx with sizeBytes := (s.advanced d size).cursor }) :=
      if_pos hlt
    rw [hgrown]
    exact summed_vfsSyncSuperblock h.table (h.fileCount_setSize _ _)
  · rw [advance_of_le (UInt32.not_lt.1 hlt)]
    exact h.congr rfl h.table

/-! ## Over calls -/

theorem Summed.targetInode (h : Summed s) (name : List UInt8) (flags : UInt32) :
    Summed (s.targetInode name flags).2 :=
  targetInode_rule h name flags fun _ hfree => h.create (freeInode_inUse hfree) name flags

theorem Summed.vfsOpen (h : Summed s) (path : List UInt8) (flags : UInt32) :
    Summed (s.vfsOpen path flags).2 := by
  -- Opening a descriptor leaves the superblock alone; truncating writes it again.
  refine vfsOpen_rule h path flags (h.targetInode _ flags) ?_ ?_
  · intro i t d _ ht
    exact ht.congr rfl ht.table
  · intro i t d _ _ hopened
    exact hopened.truncate i d

theorem Summed.vfsRead (h : Summed s) (hinv : Inv s) (w : SizeT) (fd : ℤ) (size : ℕ) :
    Summed (s.vfsRead w fd size).2 :=
  vfsRead_rule h hinv w fd size fun _ _ _ _ _ => h.congr rfl h.table

theorem Summed.vfsWrite (h : Summed s) (hinv : Inv s) (w : SizeT) (fd : ℤ)
    (buffer : List UInt8) : Summed (s.vfsWrite w fd buffer).2 := by
  refine vfsWrite_rule h hinv w fd buffer fun d _ => ?_
  have hrewritten : Summed (s.rewritten w d buffer) := h.congr rfl (h.table.performAll _)
  exact hrewritten.advance d buffer.length

theorem Summed.vfsClose (h : Summed s) (fd : ℤ) : Summed (s.vfsClose fd).2 :=
  vfsClose_rule h fd fun _ => h.congr rfl h.table

theorem Summed.vfsDelete (h : Summed s) (path : List UInt8) : Summed (s.vfsDelete path).2 :=
  vfsDelete_rule h path fun _ hfind => h.remove (findInode_inUse hfind)

/-! ## Mounting -/

theorem Summed.createDefaultFiles (hup : s.block.Up) (htable : s.block.TableOk)
    (hzero : s.superblock.inodes = fun _ => .zero) : Summed s.createDefaultFiles := by
  obtain ⟨sb, -, hsb, heq⟩ := createDefaultFiles_eq hup hzero
  have hseeds := ((htable.vfsBlockErase 1).vfsBlockWrite 1 defaultMacro).vfsBlockErase 2
  refine summed_vfsSyncSuperblock hseeds ?_
  have hinodes : s.seedMacro.seedLog.superblock.inodes = defaultInodes :=
    (congrArg (fun t : Vfs => t.superblock.inodes) heq).trans hsb
  simp only [hinodes]
  decide +kernel

/-- Mounting a superblock that counts its inodes, with its CRC-32. -/
theorem summed_vfsInit (hf : s.block.faults = []) (htable : s.block.TableOk)
    (hmounted : s.block.medium.persistent = true →
      (VfsSuperblock.ofMemory (s.block.flash 0)).magic = blockMagic →
      ∃ t, Summed t ∧ t.superblock = .ofMemory (s.block.flash 0)) : Summed s.vfsInit.2 := by
  obtain ⟨b, hinit, hup, -, -, hflash, heq⟩ := vfsInit_eq hf
  have hb : b.TableOk := by
    have := htable.vfsBlockInit
    rwa [hinit] at this
  by_cases hm : (VfsSuperblock.ofMemory (b.flash 0)).magic ≠ blockMagic
  · -- The flash is formatted.
    rw [if_pos hm] at heq
    have hformatted := Summed.createDefaultFiles (s := { s with
      openFiles := fun _ => ⟨0, 0, 0, false⟩
      superblock := { VfsSuperblock.zero with magic := blockMagic }
      block := b }) hup hb rfl
    rw [heq]
    exact hformatted.congr rfl hformatted.table
  · -- There is no superblock on a flash that is wiped.
    have hp : s.block.medium.persistent = true := by
      by_contra hp
      rw [hflash, if_neg hp] at hm
      exact hm (by decide +kernel)
    rw [if_neg hm] at heq
    rw [hflash, if_pos hp] at heq hm
    obtain ⟨t, ht, hsb⟩ := hmounted hp (not_not.1 hm)
    rw [heq]
    exact ht.congr hsb.symm hb

theorem Summed.mount (h : Summed s) (hinv : Inv s) {medium : Medium} {flash : Image}
    (hflash : flash 0 = s.block.flash 0) : Summed (mount medium flash) := by
  refine summed_vfsInit rfl (fun hready => by cases hready) fun _ _ => ⟨s, h, ?_⟩
  exact (VfsSuperblock.ofMemory_eq fun x hx => by
    rw [← hinv.synced x hx, ← hflash]
    rfl).symm

theorem Summed.exec (h : Summed s) (hinv : Inv s) (w : SizeT) (c : Call) : Summed (s.exec w c) := by
  cases c with
  | vfsInit =>
    refine summed_vfsInit hinv.up.faults h.table fun _ _ => ⟨s, h, ?_⟩
    exact (VfsSuperblock.ofMemory_eq hinv.synced).symm
  | vfsOpen path flags => exact h.vfsOpen path flags
  | vfsRead fd size => exact h.vfsRead hinv w fd size
  | vfsWrite fd buffer => exact h.vfsWrite hinv w fd buffer
  | vfsClose fd => exact h.vfsClose fd
  | vfsDelete path => exact h.vfsDelete path

/-! ## Runs -/

variable {w : SizeT}

theorem Reachable.summed (h : Reachable w s) : Summed s := by
  induction h with
  | format medium hblank =>
    exact summed_vfsInit rfl (fun hready => by cases hready) fun _ hm => absurd hm hblank
  | call h c ih => exact ih.exec h.inv w c
  | powerCut h c n j hcut ih =>
    rcases hcut with hcut | hcut
    · exact ih.mount h.inv hcut
    · exact (ih.exec h.inv w c).mount (h.inv.exec w c) hcut

/-- The table of files is in order, and it is what is on the first sector. -/
structure FileTable (s : Vfs) : Prop where
  fileCount : s.superblock.fileCount.toNat = (usedSlots s.superblock.inodes).card
  apart : ∀ i j, (s.inode i).inUse ≠ 0 → (s.inode j).inUse ≠ 0 → i ≠ j →
    (s.inode i).startSector ≠ (s.inode j).startSector
  sectors : ∀ i, (s.inode i).inUse ≠ 0 →
    1 ≤ (s.inode i).startSector.toNat ∧ (s.inode i).startSector.toNat ≤ 18
  sizes : ∀ i, (s.inode i).sizeBytes.toNat ≤ 4096
  cursors : ∀ d, (s.openFiles d).isOpen = true → (s.openFiles d).cursor.toNat ≤ 4096
  stored : slice (s.block.flash 0) 0 VfsSuperblock.size = s.superblock.bytes
  crc : s.superblock.crc32 = (s.block.vfsBlockCalcCrc32 s.superblock.summed).1

/-- In every run, the table of files is in order, and it is what is on the first sector. -/
theorem Reachable.fileTable (h : Reachable w s) : FileTable s where
  fileCount := by
    have hcard := card_usedSlots_le s.superblock.inodes
    rw [h.summed.fileCount, UInt32.toNat_ofNat_of_lt' (by simp only [UInt32.size]; omega)]
  apart i j hi hj hij heq := by
    have hne := (h.inv.slot i).sector_ne (h.inv.slot j) hij ((h.inv.slot i).startSector_ne hi)
    exact hne (congrArg UInt32.toNat heq)
  sectors i hi := by
    have hpos := startSector_ne_zero_iff.1 ((h.inv.slot i).startSector_ne hi)
    have hlt := UInt32.lt_iff_toNat_lt.1 (h.inv.slot i).lt
    have h19 : (19 : UInt32).toNat = 19 := rfl
    omega
  sizes i := (h.inv.slot i).sizeBytes
  cursors d hopen := (h.inv.desc d hopen).2
  stored := h.inv.stored
  crc := h.summed.crc

/-- A file is created, deleted, and written through its descriptor after that. -/
theorem fileTable_deleted : FileTable (((formatted.exec .bits64
    (.vfsOpen (ascii "a") (oWronly ||| oCreat))).exec .bits64 (.vfsDelete (ascii "a"))).exec
    .bits64 (.vfsWrite 0 (ascii "x"))) :=
  Reachable.fileTable (((reachable_formatted.call _).call _).call _)

end Vfs

end SliverOS
