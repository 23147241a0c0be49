import SliverOS.Vfs.Splice

/-!
# Calls of the driver that fail

A call of the driver that fails leaves the flash as it is, and none of the calls of the
file system gives up because of it but a read and a write of a file. What is known of
the variables holds whatever fails (`Mounted`): it is that every slot keeps to its own
sector, and every descriptor to the sector of its file. The superblock on the flash, in
turn, may be any that was not written to the end.

The states considered are those after a run without failures, and then any calls with
any failures (`ReachableWithFaults`). What is on the flash is mounted again if it is in
order: a failed erasure may leave a superblock that was programmed over another.
-/

namespace SliverOS

open Bytes Flash

namespace VfsBlock

/-- The sectors can be used, if the driver does not fail. -/
structure Usable (b : VfsBlock) : Prop where
  initialized : b.initialized = true
  sectorCount : b.sectorCount = b.medium.sectorCount

variable {b : VfsBlock} {sector : UInt32}

theorem Up.usable (h : b.Up) : b.Usable := ⟨h.initialized, h.sectorCount⟩

theorem Usable.next (h : b.Usable) : b.next.Usable := ⟨h.initialized, h.sectorCount⟩

theorem Usable.guard (h : b.Usable) (hs : sector < 19) : ¬b.sectorCount ≤ sector := by
  rw [h.sectorCount, UInt32.not_le]
  exact UInt32.lt_of_lt_of_le hs b.medium.enough

/-! ## The outcome of a call of the driver -/

theorem Usable.vfsBlockRead_eq (h : b.Usable) (hs : sector < 19) (buffer : Memory) :
    b.vfsBlockRead sector buffer sectorSize = (if b.fails then .ioError else .ok,
      if b.fails then buffer else blit buffer 0 (slice (b.flash sector.toNat) 0 sectorSize),
        b.next) := by
  have hrange : ¬(!b.initialized ∨ b.sectorCount ≤ sector ∨ sectorSize < sectorSize) := by
    simp [h.initialized, h.guard hs]
  rw [VfsBlock.vfsBlockRead, if_neg hrange]
  split_ifs
  · rfl
  · rfl

theorem Usable.vfsBlockErase_eq (h : b.Usable) (hs : sector < 19) :
    b.vfsBlockErase sector = (if b.fails then .ioError else .ok,
      if b.fails then b.next else b.next.perform (.erase sector.toNat)) := by
  have hrange : ¬(!b.initialized ∨ b.sectorCount ≤ sector) := by
    simp [h.initialized, h.guard hs]
  rw [VfsBlock.vfsBlockErase, if_neg hrange]
  split_ifs
  · rfl
  · rfl

theorem Usable.vfsBlockWrite_eq (h : b.Usable) (hs : sector < 19) {data : List UInt8}
    (hsize : data.length ≤ sectorSize) :
    b.vfsBlockWrite sector data = (if b.fails then .ioError else .ok,
      if b.fails then b.next else b.next.perform (.program sector.toNat data)) := by
  have hrange : ¬(!b.initialized ∨ b.sectorCount ≤ sector ∨ sectorSize < data.length) := by
    simp [h.initialized, h.guard hs, hsize]
  rw [VfsBlock.vfsBlockWrite, if_neg hrange]
  split_ifs
  · rfl
  · rfl

/-! ## What does not change -/

theorem Usable.vfsBlockRead (h : b.Usable) (sector : UInt32) (buffer : Memory) (size : ℕ) :
    (b.vfsBlockRead sector buffer size).2.2.Usable := by
  rw [VfsBlock.vfsBlockRead]
  split_ifs
  · exact h
  · exact h.next
  · exact h.next

theorem Usable.vfsBlockErase (h : b.Usable) (sector : UInt32) :
    (b.vfsBlockErase sector).2.Usable := by
  rw [VfsBlock.vfsBlockErase]
  split_ifs
  · exact h
  · exact h.next
  · exact ⟨h.initialized, h.sectorCount⟩

theorem Usable.vfsBlockWrite (h : b.Usable) (sector : UInt32) (data : List UInt8) :
    (b.vfsBlockWrite sector data).2.Usable := by
  rw [VfsBlock.vfsBlockWrite]
  split_ifs
  · exact h
  · exact h.next
  · exact ⟨h.initialized, h.sectorCount⟩

theorem Usable.vfsBlockCalcCrc32 (h : b.Usable) (data : List UInt8) :
    (b.vfsBlockCalcCrc32 data).2.Usable := by
  simp only [VfsBlock.vfsBlockCalcCrc32, VfsBlock.initCrcTable]
  split_ifs
  · exact h
  · constructor
    · exact h.initialized
    · exact h.sectorCount

end VfsBlock

namespace Vfs

variable {w : SizeT} {s s' : Vfs} {i : Fin 16} {d : Fin 8} {ino : VfsInode}

/-- The calls of the driver to come that fail. -/
def withFaults (s : Vfs) (faults : List Bool) : Vfs := { s with block := { s.block with faults } }

/-- A file system that is mounted, whatever is on the first sector by now. -/
structure Mounted (s : Vfs) : Prop where
  ready : s.ready = true
  usable : s.block.Usable
  slot : ∀ i, SlotOk i (s.inode i)
  desc : ∀ d, (s.openFiles d).isOpen = true →
    (s.inode (s.openFiles d).inodeIdx).startSector ≠ 0 ∧
      (s.openFiles d).cursor.toNat ≤ sectorSize

theorem Inv.mounted (h : Inv s) : Mounted s := ⟨h.ready, h.up.usable, h.slot, h.desc⟩

theorem Mounted.withFaults (h : Mounted s) (faults : List Bool) : Mounted (s.withFaults faults) :=
  ⟨h.ready, ⟨h.usable.initialized, h.usable.sectorCount⟩, h.slot, h.desc⟩

/-! ## Changes -/

/-- A change of the buffers and of the flash. -/
theorem Mounted.congr (h : Mounted s) (hready : s'.ready = s.ready) (hblock : s'.block.Usable)
    (hfiles : s'.openFiles = s.openFiles) (hsb : s'.superblock.inodes = s.superblock.inodes) :
    Mounted s' where
  ready := hready.trans h.ready
  usable := hblock
  slot i := by
    rw [inode, hsb]
    exact h.slot i
  desc d hd := by
    rw [hfiles] at hd ⊢
    rw [inode, hsb]
    exact h.desc d hd

/-- A change of one inode. -/
theorem Mounted.setInode (h : Mounted s) (hok : SlotOk i ino) (hne : ino.startSector ≠ 0) :
    Mounted (s.setInode i ino) where
  ready := h.ready
  usable := h.usable
  slot := slotOk_update h.slot hok
  desc d hd := by
    obtain ⟨hstart, hcursor⟩ := h.desc d hd
    exact ⟨inode_update (p := fun ino => ino.startSector ≠ 0) hne hstart, hcursor⟩

/-- A change of a descriptor. -/
theorem Mounted.setDesc (h : Mounted s) {e : VfsFileDesc} (he : e.isOpen = true →
    (s.inode e.inodeIdx).startSector ≠ 0 ∧ e.cursor.toNat ≤ sectorSize) :
    Mounted { s with openFiles := Function.update s.openFiles d e } where
  ready := h.ready
  usable := h.usable
  slot := h.slot
  desc := desc_update
    (p := fun e => (s.inode e.inodeIdx).startSector ≠ 0 ∧ e.cursor.toNat ≤ sectorSize) h.desc he

theorem Mounted.erase (h : Mounted s) (sector : UInt32) : Mounted (s.erase sector) :=
  h.congr rfl (h.usable.vfsBlockErase sector) rfl rfl

theorem Mounted.write (h : Mounted s) (sector : UInt32) (data : List UInt8) :
    Mounted (s.write sector data) :=
  h.congr rfl (h.usable.vfsBlockWrite sector data) rfl rfl

theorem Mounted.setFileCount (h : Mounted s) (fileCount : UInt32) :
    Mounted { s with superblock := { s.superblock with fileCount } } :=
  h.congr rfl h.usable rfl rfl

/-- The superblock is written, or it fails to be. -/
theorem Mounted.vfsSyncSuperblock (h : Mounted s) : Mounted s.vfsSyncSuperblock := by
  have hcrc := h.usable.vfsBlockCalcCrc32
    ({ s.superblock with magic := blockMagic }.bytes.take 776)
  simp only [Vfs.vfsSyncSuperblock]
  refine Mounted.write (Mounted.erase ?_ 0) 0 _
  exact h.congr rfl hcrc rfl rfl

/-! ## Calls -/

theorem Mounted.create (h : Mounted s) (i : Fin 16) (name : List UInt8) (flags : UInt32) :
    Mounted (s.create i name flags) := by
  have hok := slotOk_newInode s i name flags
  have hne := hok.startSector_ne (show (1 : UInt32) ≠ 0 by decide)
  rw [Vfs.create]
  exact (((h.setInode hok hne).setFileCount _).erase _).vfsSyncSuperblock

theorem Mounted.truncate (h : Mounted s) (hi : (s.inode i).startSector ≠ 0) (d : Fin 8) :
    Mounted (s.truncate i d) := by
  have hemptied := h.setInode
    ((h.slot i).setSize (show (0 : UInt32).toNat ≤ sectorSize by decide)) hi
  have hrewound := hemptied.setDesc (d := d) (e := { s.openFiles d with cursor := 0 })
    fun hopen => ⟨(hemptied.desc d hopen).1, Nat.zero_le _⟩
  rw [Vfs.truncate]
  exact (hrewound.erase _).vfsSyncSuperblock

theorem Mounted.remove (h : Mounted s) (huse : (s.inode i).inUse ≠ 0) : Mounted (s.remove i) := by
  have hok := h.slot i
  have hfreed : SlotOk i { s.inode i with inUse := 0 } :=
    ⟨hok.place.imp_left fun hz => ⟨hz.1, rfl⟩, hok.sizeBytes, .inl rfl⟩
  rw [Vfs.remove]
  exact (((h.setInode hfreed (hok.startSector_ne huse)).erase _).setFileCount _).vfsSyncSuperblock

theorem Mounted.targetInode (h : Mounted s) (name : List UInt8) (flags : UInt32) :
    Mounted (s.targetInode name flags).2 :=
  targetInode_rule h name flags fun i _ => h.create i name flags

theorem Mounted.vfsOpen (h : Mounted s) (path : List UInt8) (flags : UInt32) :
    Mounted (s.vfsOpen path flags).2 := by
  refine vfsOpen_rule h path flags (h.targetInode _ flags) ?_ ?_
  · intro i t d htarget ht
    have hstart := (ht.slot i).startSector_ne (inUse_targetInode htarget)
    exact ht.setDesc fun _ => ⟨hstart, (ht.slot i).cursor_opened flags⟩
  · intro i t d htarget ht hopened
    exact hopened.truncate ((ht.slot i).startSector_ne (inUse_targetInode htarget)) d

theorem Mounted.vfsRead (h : Mounted s) (w : SizeT) (fd : ℤ) (size : ℕ) :
    Mounted (s.vfsRead w fd size).2 := by
  rw [Vfs.vfsRead]
  cases fd? fd with
  | none => exact h
  | some d =>
    simp only
    rw [if_neg (by simp [h.ready])]
    by_cases hopen : (s.openFiles d).isOpen = true
    swap
    · rw [if_pos (by simpa using hopen)]
      exact h
    rw [if_neg (by simp [hopen])]
    have hread : Mounted { s with
        readBuf := (s.block.vfsBlockRead (s.inode (s.openFiles d).inodeIdx).startSector s.readBuf
          sectorSize).2.1
        block := (s.block.vfsBlockRead (s.inode (s.openFiles d).inodeIdx).startSector s.readBuf
          sectorSize).2.2 } :=
      h.congr rfl (h.usable.vfsBlockRead _ _ _) rfl rfl
    split_ifs
    · exact h
    · exact hread
    · exact hread.setDesc fun _ => ⟨(h.desc d hopen).1,
        toNat_cursor_toRead (h.slot (s.openFiles d).inodeIdx).sizeBytes⟩

theorem Mounted.writeSector (h : Mounted s) (d : Fin 8) (buffer : List UInt8) (size : ℕ) :
    Mounted (s.writeSector d buffer size).2 :=
  h.congr rfl (((h.usable.vfsBlockRead _ _ _).vfsBlockErase _).vfsBlockWrite _ _) rfl rfl

theorem Mounted.advance (h : Mounted s) (hopen : (s.openFiles d).isOpen = true) {size : ℕ}
    (hcursor : (s.advanced d size).cursor.toNat ≤ sectorSize) : Mounted (s.advance d size) := by
  have hstart := (h.desc d hopen).1
  have hmoved := h.setDesc (d := d) (e := s.advanced d size) fun _ => ⟨hstart, hcursor⟩
  by_cases hlt : (s.inode (s.openFiles d).inodeIdx).sizeBytes < (s.advanced d size).cursor
  · refine Eq.mpr (congrArg Mounted (if_pos hlt)) ?_
    exact (hmoved.setInode ((h.slot _).setSize hcursor) hstart).vfsSyncSuperblock
  · rw [advance_of_le (UInt32.not_lt.1 hlt)]
    exact hmoved

theorem Mounted.vfsWrite (h : Mounted s) (w : SizeT) (fd : ℤ) (buffer : List UInt8) :
    Mounted (s.vfsWrite w fd buffer).2 := by
  rcases vfsWrite_refused_or h.ready w fd buffer with ⟨status, heq⟩ | ⟨d, rfl, ha⟩
  · rw [heq]
    exact h
  have hwritten := h.writeSector d buffer
    (w.wrap ((s.openFiles d).cursor.toNat + buffer.length))
  rw [Vfs.vfsWrite, fd?_eq]
  simp only
  rw [if_neg (by simp [h.ready]), if_neg (by simp [ha.isOpen, ha.writable]),
    if_neg (Nat.not_lt.2 ha.fits)]
  split_ifs
  · exact hwritten
  · exact hwritten.advance ha.isOpen ((toNat_cursor ha.fits).trans_le ha.fits)

theorem Mounted.vfsClose (h : Mounted s) (fd : ℤ) : Mounted (s.vfsClose fd).2 :=
  vfsClose_rule h fd fun _ => h.setDesc fun hopen => by cases hopen

theorem Mounted.vfsDelete (h : Mounted s) (path : List UInt8) : Mounted (s.vfsDelete path).2 :=
  vfsDelete_rule h path fun _ hfind => h.remove (findInode_inUse hfind)

/-! ## Runs -/

/-- What is known of the variables holds after any call but `vfs_init`. -/
theorem Mounted.exec (h : Mounted s) (w : SizeT) {c : Call} (hc : c ≠ .vfsInit) :
    Mounted (s.exec w c) := by
  cases c with
  | vfsInit => exact absurd rfl hc
  | vfsOpen path flags => exact h.vfsOpen path flags
  | vfsRead fd size => exact h.vfsRead w fd size
  | vfsWrite fd buffer => exact h.vfsWrite w fd buffer
  | vfsClose fd => exact h.vfsClose fd
  | vfsDelete path => exact h.vfsDelete path

/-- A superblock is found in order, or none is. -/
def InOrder (sector : Memory) : Prop :=
  (VfsSuperblock.ofMemory sector).magic = blockMagic →
    ∀ i, SlotOk i ((VfsSuperblock.ofMemory sector).inodes i)

theorem mounted_mount (medium : Medium) {flash : Image} (h : InOrder (flash 0)) :
    Mounted (mount medium flash) := by
  by_cases hm : medium.persistent = true ∧
      (VfsSuperblock.ofMemory (flash 0)).magic = blockMagic
  · obtain ⟨b, hup, -, -, heq⟩ := vfsInit_mounted (s := powerOn medium flash []) rfl hm.1 hm.2
    rw [mount, heq]
    exact ⟨rfl, hup.usable, h hm.2, fun _ hd => by cases hd⟩
  · exact (inv_vfsInit_of_blank (s := powerOn medium flash []) rfl
      fun hp hm' => hm ⟨hp, hm'⟩).mounted

/-- The file systems after a run without failures, and then calls of which any of those of the
    driver may fail. What is on the flash can be mounted again if it is in order. -/
inductive ReachableWithFaults (w : SizeT) : Vfs → Prop
  | run {s : Vfs} (h : Reachable w s) : ReachableWithFaults w s
  | call {s : Vfs} (h : ReachableWithFaults w s) (faults : List Bool) {c : Call}
      (hc : c ≠ .vfsInit) : ReachableWithFaults w ((s.withFaults faults).exec w c)
  | mount {s : Vfs} (h : ReachableWithFaults w s) (horder : InOrder (s.block.flash 0)) :
      ReachableWithFaults w (mount s.block.medium s.block.flash)

theorem ReachableWithFaults.mounted (h : ReachableWithFaults w s) : Mounted s := by
  induction h with
  | run h => exact h.inv.mounted
  | call _ faults hc ih => exact (ih.withFaults faults).exec w hc
  | mount _ horder _ => exact mounted_mount _ horder

end Vfs

end SliverOS
