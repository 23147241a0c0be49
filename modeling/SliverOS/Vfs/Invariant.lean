import SliverOS.Vfs.Vfs

/-!
# Runs of the file system

A run starts with the formatting of a flash without a file system and is a
sequence of calls, while no call of the driver fails; between them the power can
be cut, as long as this does not happen while the superblock is being rewritten
(`Reachable`).

Every change of the file system is a change of one inode, followed by the
rewriting of the superblock (`commit`). So after any run the superblock on the
first sector is that in memory, each slot has its own sector, sizes and cursors
are in range and the descriptors open are on slots that have a sector
(`Inv`, `Reachable.inv`).
-/

namespace SliverOS

open Bytes Flash

namespace Vfs

variable {s : Vfs} {i : Fin 16} {d : Fin 8} {ino : VfsInode}

/-! ## Changes of the superblock -/

/-- The superblock that `vfs_sync_superblock` writes. -/
def sealed (s : Vfs) : VfsSuperblock :=
  let superblock := { s.superblock with magic := blockMagic }
  { superblock with crc32 := (s.block.vfsBlockCalcCrc32 (superblock.bytes.take 776)).1 }

/-- The file system with some steps done on the flash, and then the superblock
    replaced and rewritten. -/
def commit (s : Vfs) (sb : VfsSuperblock) (steps : List Step) : Vfs :=
  { s with superblock := sb, block := s.block.performAll (steps ++ rewrite 0 sb.bytes) }

theorem erase_eq (h : s.block.Up) {sector : UInt32} (hs : sector < 19) :
    s.erase sector = { s with block := s.block.performAll [.erase sector.toNat] } := by
  rw [erase, h.vfsBlockErase hs]

theorem write_eq (h : s.block.Up) {sector : UInt32} (hs : sector < 19) {data : List UInt8}
    (hdata : data.length ≤ sectorSize) :
    s.write sector data = { s with block := s.block.performAll [.program sector.toNat data] } := by
  rw [write, h.vfsBlockWrite hs hdata]

theorem vfsSyncSuperblock_eq (h : s.block.Up) : s.vfsSyncSuperblock = s.commit s.sealed [] := by
  have hcode : s.vfsSyncSuperblock =
      (({ s with superblock := s.sealed } : Vfs).erase 0).write 0 s.sealed.bytes := by
    rw [vfsSyncSuperblock, h.vfsBlockCalcCrc32]
    rfl
  rw [hcode, erase_eq (s := { s with superblock := s.sealed }) h (by decide),
    write_eq (h.performAll _) (by decide) (by simp [sectorSize]), commit]
  simp only [VfsBlock.performAll_performAll]
  rfl

/-- The superblock rewritten after the erasure of a sector. -/
theorem sync_erase_eq (h : s.block.Up) {sector : UInt32} (hs : sector < 19) :
    ∃ sb, sb.magic = blockMagic ∧ sb.inodes = s.superblock.inodes ∧
      (s.erase sector).vfsSyncSuperblock = s.commit sb [.erase sector.toNat] := by
  have hup := h.performAll [.erase sector.toNat]
  rw [erase_eq h hs, vfsSyncSuperblock_eq hup]
  refine ⟨_, rfl, ?_, by simp only [commit, VfsBlock.performAll_performAll]; rfl⟩
  rfl

/-! ## The invariant -/

/-- What holds of the inode of a slot: it was never used, or it has the sector of
    the slot, or that of the default file of the slot. -/
structure SlotOk (i : Fin 16) (ino : VfsInode) : Prop where
  place : ino.startSector = 0 ∧ ino.inUse = 0 ∨ ino.startSector.toNat = i + 3 ∨
    (i : ℕ) < 2 ∧ ino.startSector.toNat = i + 1
  sizeBytes : ino.sizeBytes.toNat ≤ sectorSize
  inUse : ino.inUse = 0 ∨ ino.inUse = 1

/-- A file system that is mounted, its superblock written to the first sector. -/
structure Inv (s : Vfs) : Prop where
  ready : s.ready = true
  up : s.block.Up
  magic : s.superblock.magic = blockMagic
  synced : ∀ x < 780, s.block.flash 0 x = s.superblock.byte x
  slot : ∀ i, SlotOk i (s.inode i)
  desc : ∀ d, (s.openFiles d).isOpen = true →
    (s.inode (s.openFiles d).inodeIdx).startSector ≠ 0 ∧
      (s.openFiles d).cursor.toNat ≤ sectorSize

/-- The first sector starts with the bytes of the superblock. -/
theorem Inv.stored (h : Inv s) :
    slice (s.block.flash 0) 0 VfsSuperblock.size = s.superblock.bytes := by
  refine List.ext_getElem (by simp [VfsSuperblock.size]) fun x hx _ => ?_
  rw [length_slice, VfsSuperblock.size] at hx
  simpa [slice, VfsSuperblock.bytes] using h.synced x hx

theorem startSector_ne_zero_iff {v : UInt32} : v ≠ 0 ↔ v.toNat ≠ 0 := by
  rw [ne_eq, ← UInt32.toNat_inj]
  rfl

theorem SlotOk.lt (h : SlotOk i ino) : ino.startSector < 19 := by
  rw [UInt32.lt_iff_toNat_lt]
  have hi := i.isLt
  have h19 : (19 : UInt32).toNat = 19 := rfl
  rcases h.place with ⟨hz, _⟩ | hs | ⟨_, hs⟩
  · rw [hz]
    decide
  · omega
  · omega

/-- A file in use has a sector. -/
theorem SlotOk.startSector_ne (h : SlotOk i ino) (huse : ino.inUse ≠ 0) : ino.startSector ≠ 0 := by
  rw [startSector_ne_zero_iff]
  rcases h.place with ⟨_, hz⟩ | hs | ⟨_, hs⟩
  · exact absurd hz huse
  · omega
  · omega

/-- Different slots do not share a sector. -/
theorem SlotOk.sector_ne {j : Fin 16} {ino' : VfsInode} (h : SlotOk i ino) (h' : SlotOk j ino')
    (hij : i ≠ j) (hne : ino.startSector ≠ 0) :
    ino.startSector.toNat ≠ ino'.startSector.toNat := by
  have hij' : (i : ℕ) ≠ j := fun heq => hij (Fin.ext heq)
  rw [startSector_ne_zero_iff] at hne
  rcases h.place with ⟨hz, _⟩ | hs | ⟨_, hs⟩
  · exact absurd (congrArg UInt32.toNat hz) hne
  all_goals
    rcases h'.place with ⟨hz, _⟩ | hs' | ⟨_, hs'⟩
    · rw [hz]
      exact hne
    · omega
    · omega

/-- The slots after a change of one inode. -/
theorem slotOk_update {inodes : Fin 16 → VfsInode} (h : ∀ j, SlotOk j (inodes j))
    (hok : SlotOk i ino) (j : Fin 16) : SlotOk j (Function.update inodes i ino j) :=
  (Function.forall_update_iff inodes fun j ino => SlotOk j ino).2 ⟨hok, fun j _ => h j⟩ j

/-- An inode has a property still after a change of one inode, which has it. -/
theorem inode_update {inodes : Fin 16 → VfsInode} {j : Fin 16} {p : VfsInode → Prop}
    (hino : p ino) (h : p (inodes j)) : p (Function.update inodes i ino j) := by
  by_cases hj : j = i
  · rwa [hj, Function.update_self]
  · rwa [Function.update_of_ne hj]

/-- The open descriptors after a change of one of them. -/
theorem desc_update {s : Vfs} {e : VfsFileDesc} {p : VfsFileDesc → Prop}
    (h : ∀ d, (s.openFiles d).isOpen = true → p (s.openFiles d)) (he : e.isOpen = true → p e)
    (d' : Fin 8) (hd' : (Function.update s.openFiles d e d').isOpen = true) :
    p (Function.update s.openFiles d e d') :=
  (Function.forall_update_iff s.openFiles fun _ e => e.isOpen = true → p e).2
    ⟨he, fun d' _ => h d'⟩ d' hd'

/-- A change of one inode, and of the flash elsewhere than in the superblock. -/
theorem Inv.commit (h : Inv s) {sb : VfsSuperblock} {steps : List Step}
    (hm : sb.magic = blockMagic) (hsb : sb.inodes = Function.update s.superblock.inodes i ino)
    (hok : SlotOk i ino) (hne : ino.startSector ≠ 0) : Inv (s.commit sb steps) where
  ready := h.ready
  up := h.up.performAll _
  magic := hm
  synced x hx := by
    simp only [Vfs.commit, VfsBlock.performAll, run_append, run_rewrite, Function.update_self,
      written]
    exact VfsSuperblock.getD_bytes sb hx _
  slot j := by
    simp only [Vfs.commit, inode, hsb]
    exact slotOk_update h.slot hok j
  desc d hd := by
    obtain ⟨hstart, hcursor⟩ := h.desc d hd
    refine ⟨?_, hcursor⟩
    simp only [Vfs.commit, inode, hsb]
    exact inode_update (p := fun ino => ino.startSector ≠ 0) hne hstart

/-- A change of a descriptor. -/
theorem Inv.setDesc (h : Inv s) {e : VfsFileDesc} (he : e.isOpen = true →
    (s.inode e.inodeIdx).startSector ≠ 0 ∧ e.cursor.toNat ≤ sectorSize) :
    Inv { s with openFiles := Function.update s.openFiles d e } where
  ready := h.ready
  up := h.up
  magic := h.magic
  synced := h.synced
  slot := h.slot
  desc := desc_update
    (p := fun e => (s.inode e.inodeIdx).startSector ≠ 0 ∧ e.cursor.toNat ≤ sectorSize) h.desc he

/-! ## What the calls do -/

theorem inodes_vfsSyncSuperblock (s : Vfs) :
    s.vfsSyncSuperblock.superblock.inodes = s.superblock.inodes := rfl

theorem fd?_eq (d : Fin 8) : fd? (d : ℕ) = some d := by
  have hd := d.isLt
  simp only [fd?, Int.toNat_natCast]
  rw [dif_pos (by omega)]

theorem eq_of_fd? {fd : ℤ} (h : fd? fd = some d) : fd = (d : ℕ) := by
  rw [fd?] at h
  split at h
  · cases h
    simp only
    omega
  · cases h

theorem findInode_inUse {name : List UInt8} (h : s.findInode name = some i) :
    (s.inode i).inUse ≠ 0 := by
  have := List.find?_some h
  simp only [decide_eq_true_eq] at this
  exact this.1

theorem freeInode_inUse (h : s.freeInode = some i) : (s.inode i).inUse = 0 := by
  simpa using List.find?_some h

/-- The inode of a new file. -/
def newInode (s : Vfs) (i : Fin 16) (name : List UInt8) (flags : UInt32) : VfsInode where
  name := strncpy (s.inode i).name name 31
  startSector := 3 + UInt32.ofNat i
  sizeBytes := 0
  flags := flags
  inUse := 1

theorem newInode_startSector (s : Vfs) (i : Fin 16) (name : List UInt8) (flags : UInt32) :
    (s.newInode i name flags).startSector.toNat = i + 3 := by
  have hi := i.isLt
  simp only [newInode, UInt32.toNat_add, UInt32.toNat_ofNat']
  have h3 : (3 : UInt32).toNat = 3 := rfl
  omega

theorem slotOk_newInode (s : Vfs) (i : Fin 16) (name : List UInt8) (flags : UInt32) :
    SlotOk i (s.newInode i name flags) :=
  ⟨.inr (.inl (newInode_startSector s i name flags)), by simp [newInode], .inr rfl⟩

theorem create_eq (h : s.block.Up) (i : Fin 16) (name : List UInt8) (flags : UInt32) :
    ∃ sb, sb.magic = blockMagic ∧
      sb.inodes = Function.update s.superblock.inodes i (s.newInode i name flags) ∧
      s.create i name flags = s.commit sb [.erase (i + 3)] := by
  obtain ⟨sb, hm, hsb, heq⟩ := sync_erase_eq
    (s := { s.setInode i (s.newInode i name flags) with superblock :=
      { (s.setInode i (s.newInode i name flags)).superblock with
        fileCount := s.superblock.fileCount + 1 } }) h (slotOk_newInode s i name flags).lt
  rw [newInode_startSector] at heq
  refine ⟨sb, hm, hsb, Eq.trans ?_ heq⟩
  simp only [create, setInode, inode, Function.update_self]
  rfl

theorem inode_create (s : Vfs) (i : Fin 16) (name : List UInt8) (flags : UInt32) :
    (s.create i name flags).inode i = s.newInode i name flags := by
  rw [create, inode, inodes_vfsSyncSuperblock]
  exact Function.update_self ..

theorem inode_create_of_ne (s : Vfs) (name : List UInt8) (flags : UInt32) {j : Fin 16}
    (h : j ≠ i) : (s.create i name flags).inode j = s.inode j := by
  rw [create, inode, inodes_vfsSyncSuperblock]
  exact Function.update_of_ne h ..

theorem openFiles_create (s : Vfs) (i : Fin 16) (name : List UInt8) (flags : UInt32) :
    (s.create i name flags).openFiles = s.openFiles := by
  rw [create, vfsSyncSuperblock]
  rfl

theorem freeFd_create (s : Vfs) (i : Fin 16) (name : List UInt8) (flags : UInt32) :
    (s.create i name flags).freeFd = s.freeFd := by
  rw [freeFd, openFiles_create, freeFd]

theorem truncate_eq (h : Inv s) (i : Fin 16) (d : Fin 8) :
    ∃ sb, sb.magic = blockMagic ∧
      sb.inodes = Function.update s.superblock.inodes i { s.inode i with sizeBytes := 0 } ∧
      s.truncate i d = Vfs.commit { s with
        openFiles := Function.update s.openFiles d { s.openFiles d with cursor := 0 } } sb
          [.erase (s.inode i).startSector.toNat] := by
  obtain ⟨sb, hm, hsb, heq⟩ := sync_erase_eq
    (s := { s.setInode i { s.inode i with sizeBytes := 0 } with
      openFiles := Function.update s.openFiles d { s.openFiles d with cursor := 0 } })
    h.up (h.slot i).lt
  refine ⟨sb, hm, hsb, Eq.trans ?_ heq⟩
  simp only [truncate, setInode, inode, Function.update_self]

theorem remove_eq (h : Inv s) (i : Fin 16) :
    ∃ sb, sb.magic = blockMagic ∧
      sb.inodes = Function.update s.superblock.inodes i { s.inode i with inUse := 0 } ∧
      s.remove i = s.commit sb [.erase (s.inode i).startSector.toNat] := by
  obtain ⟨sb, hm, hsb, heq⟩ := sync_erase_eq
    (s := { s.setInode i { s.inode i with inUse := 0 } with superblock :=
      { (s.setInode i { s.inode i with inUse := 0 }).superblock with
        fileCount := s.superblock.fileCount - 1 } }) h.up (h.slot i).lt
  refine ⟨sb, hm, hsb, Eq.trans ?_ heq⟩
  simp only [remove, setInode, inode, Function.update_self]
  rfl

/-- The descriptor after the end of `vfs_write`. -/
def advanced (s : Vfs) (d : Fin 8) (size : ℕ) : VfsFileDesc :=
  { s.openFiles d with cursor := (s.openFiles d).cursor + UInt32.ofNat size }

/-- A write that ends in the file does not touch the superblock. -/
theorem advance_of_le {size : ℕ}
    (hle : (s.advanced d size).cursor ≤ (s.inode (s.openFiles d).inodeIdx).sizeBytes) :
    s.advance d size =
      { s with openFiles := Function.update s.openFiles d (s.advanced d size) } :=
  if_neg (UInt32.not_lt.2 hle)

/-- A write beyond the end of the file changes its size. -/
theorem advance_of_lt (h : s.block.Up) {size : ℕ}
    (hlt : (s.inode (s.openFiles d).inodeIdx).sizeBytes < (s.advanced d size).cursor) :
    ∃ sb, sb.magic = blockMagic ∧
      sb.inodes = Function.update s.superblock.inodes (s.openFiles d).inodeIdx
        { s.inode (s.openFiles d).inodeIdx with sizeBytes := (s.advanced d size).cursor } ∧
      s.advance d size = Vfs.commit { s with
        openFiles := Function.update s.openFiles d (s.advanced d size) } sb [] := by
  refine ⟨_, rfl, rfl, Eq.trans (if_pos hlt) (vfsSyncSuperblock_eq ?_)⟩
  exact h

/-- The buffer of `vfs_write` with the sector of the file and the bytes to write. -/
def writeImage (s : Vfs) (d : Fin 8) (buffer : List UInt8) : Memory :=
  blit (blit s.writeBuf 0 (slice (s.block.flash
    (s.inode (s.openFiles d).inodeIdx).startSector.toNat) 0 sectorSize))
      (s.openFiles d).cursor.toNat buffer

/-- The bytes that `vfs_write` programs. -/
def writeData (w : SizeT) (s : Vfs) (d : Fin 8) (buffer : List UInt8) : List UInt8 :=
  slice (s.writeImage d buffer) 0 (w.wrap ((s.openFiles d).cursor.toNat + buffer.length))

/-- The file system of which `vfs_write` has rewritten the sector of the file. -/
def rewritten (w : SizeT) (s : Vfs) (d : Fin 8) (buffer : List UInt8) : Vfs :=
  { s with
    writeBuf := s.writeImage d buffer
    block := s.block.performAll (rewrite (s.inode (s.openFiles d).inodeIdx).startSector.toNat
      (s.writeData w d buffer)) }

/-- `vfs_write` takes the bytes: the descriptor is open for writing, and they fit
    in the sector. -/
structure Accepts (w : SizeT) (s : Vfs) (d : Fin 8) (buffer : List UInt8) : Prop where
  isOpen : (s.openFiles d).isOpen = true
  writable : (s.openFiles d).flags &&& oRdonly = 0
  fits : w.wrap ((s.openFiles d).cursor.toNat + buffer.length) ≤ sectorSize

theorem Accepts.writeSector {w : SizeT} {buffer : List UInt8} (ha : Accepts w s d buffer)
    (h : Inv s) :
    s.writeSector d buffer (w.wrap ((s.openFiles d).cursor.toNat + buffer.length)) =
      (.ok, s.rewritten w d buffer) := by
  have hstart := (h.slot (s.openFiles d).inodeIdx).lt
  have hlen : (s.writeData w d buffer).length ≤ sectorSize := by
    rw [writeData, length_slice]
    exact ha.fits
  have hwrite := (h.up.performAll
    [.erase (s.inode (s.openFiles d).inodeIdx).startSector.toNat]).vfsBlockWrite hstart hlen
  rw [writeData, writeImage] at hwrite
  simp only [Vfs.writeSector, h.up.vfsBlockRead hstart s.writeBuf (Nat.le_refl sectorSize),
    h.up.vfsBlockErase hstart, hwrite, VfsBlock.performAll_performAll]
  rfl

theorem Accepts.vfsWrite {w : SizeT} {buffer : List UInt8} (ha : Accepts w s d buffer)
    (h : Inv s) : s.vfsWrite w (d : ℕ) buffer =
      (.ok buffer.length, (s.rewritten w d buffer).advance d buffer.length) := by
  simp only [Vfs.vfsWrite, fd?_eq, ha.writeSector h]
  rw [if_neg (by simp [h.ready]), if_neg (by simp [ha.isOpen, ha.writable]),
    if_neg (Nat.not_lt.2 ha.fits), if_neg (by simp)]

/-- `vfs_write` refuses the bytes and changes nothing, or takes them. -/
theorem vfsWrite_refused_or (hready : s.ready = true) (w : SizeT) (fd : ℤ) (buffer : List UInt8) :
    (∃ status, s.vfsWrite w fd buffer = (.error status, s)) ∨
      ∃ d : Fin 8, fd = (d : ℕ) ∧ Accepts w s d buffer := by
  cases hfd : fd? fd with
  | none =>
    refine .inl ⟨.invalidArg, ?_⟩
    rw [Vfs.vfsWrite, hfd]
  | some d =>
    obtain rfl := eq_of_fd? hfd
    rw [Vfs.vfsWrite, hfd]
    simp only [hready, Bool.not_true, Bool.false_eq_true, if_false]
    by_cases hopen : (s.openFiles d).isOpen = true ∧ (s.openFiles d).flags &&& oRdonly = 0
    swap
    · refine .inl ⟨.invalidState, if_pos ?_⟩
      rcases not_and_or.1 hopen with hclosed | hflags
      · exact .inl (by simpa using hclosed)
      · exact .inr hflags
    by_cases hfits : w.wrap ((s.openFiles d).cursor.toNat + buffer.length) ≤ sectorSize
    swap
    · refine .inl ⟨.noMemory, ?_⟩
      rw [if_neg (by simp [hopen.1, hopen.2]), if_pos (Nat.lt_of_not_le hfits)]
    exact .inr ⟨d, rfl, hopen.1, hopen.2, hfits⟩

theorem vfsWrite_cases (h : Inv s) (w : SizeT) (fd : ℤ) (buffer : List UInt8) :
    (∃ status, s.vfsWrite w fd buffer = (.error status, s)) ∨
      ∃ d : Fin 8, fd = (d : ℕ) ∧ Accepts w s d buffer :=
  vfsWrite_refused_or h.ready w fd buffer

/-! ## Mounting -/

/-- The inodes of a file system just formatted. -/
def defaultInodes : Fin 16 → VfsInode :=
  Function.update (Function.update (fun _ => .zero)
    0 ⟨strncpy VfsInode.zero.name (ascii "macro.txt") 31, 1,
      UInt32.ofNat defaultMacro.length, 0, 1⟩)
    1 ⟨strncpy VfsInode.zero.name (ascii "wifi_audit.log") 31, 2, 0, 0, 1⟩

theorem slotOk_defaultInodes (i : Fin 16) : SlotOk i (defaultInodes i) := by
  fin_cases i <;> exact ⟨by decide +kernel, by decide +kernel, by decide +kernel⟩

/-- The steps that format the data sectors. -/
def formatSteps : List Step := rewrite 1 defaultMacro ++ [.erase 2]

theorem seedMacro_eq (h : s.block.Up) (hzero : s.inode 0 = .zero) :
    s.seedMacro = { s.setInode 0 (defaultInodes 0) with
      block := s.block.performAll (rewrite 1 defaultMacro) } := by
  rw [seedMacro, hzero]
  simp only
  rw [erase_eq (s := s.setInode 0 _) h (by decide),
    write_eq (h.performAll _) (by decide) (by decide +kernel)]
  simp only [VfsBlock.performAll_performAll]
  rfl

theorem seedLog_eq (h : s.block.Up) (hzero : s.inode 1 = .zero) :
    s.seedLog = { s.setInode 1 (defaultInodes 1) with
      block := s.block.performAll [.erase 2] } := by
  rw [seedLog, hzero]
  exact erase_eq (s := s.setInode 1 _) h (by decide)

theorem createDefaultFiles_eq (h : s.block.Up) (hzero : s.superblock.inodes = fun _ => .zero) :
    ∃ sb, sb.magic = blockMagic ∧ sb.inodes = defaultInodes ∧
      s.createDefaultFiles = s.commit sb formatSteps := by
  have hseeded := seedMacro_eq h (congrFun hzero 0)
  have hlog := seedLog_eq (s := s.seedMacro) (by rw [hseeded]; exact h.performAll _) (by
    rw [hseeded]
    simp only [inode, setInode, hzero]
    rfl)
  have hinodes : (s.seedMacro.setInode 1 (defaultInodes 1)).superblock.inodes = defaultInodes := by
    rw [hseeded]
    simp only [setInode, hzero]
    funext i
    fin_cases i <;> rfl
  have hseed : s.seedMacro.seedLog = { s with
      superblock := { s.superblock with inodes := defaultInodes }
      block := s.block.performAll formatSteps } := by
    rw [hlog, formatSteps, ← VfsBlock.performAll_performAll]
    rw [← hinodes, hseeded]
    rfl
  refine ⟨sealed { s with
    superblock := { s.superblock with inodes := defaultInodes, fileCount := 2 }
    block := s.block.performAll formatSteps }, rfl, rfl, ?_⟩
  rw [createDefaultFiles, hseed]
  refine (vfsSyncSuperblock_eq (h.performAll _)).trans ?_
  simp only [Vfs.commit, VfsBlock.performAll_performAll]
  rfl

/-- `vfs_init` reads what is on the first sector. -/
theorem vfsInit_eq (hf : s.block.faults = []) :
    ∃ b : VfsBlock, s.block.vfsBlockInit = (.ok, b) ∧ b.Up ∧ b.medium = s.block.medium ∧
      b.journal = s.block.journal ∧
      b.flash = (if s.block.medium.persistent then s.block.flash else fun _ => blank) ∧
      s.vfsInit.2 = { (if (VfsSuperblock.ofMemory (b.flash 0)).magic ≠ blockMagic then
        createDefaultFiles { s with
          openFiles := fun _ => ⟨0, 0, 0, false⟩
          superblock := { VfsSuperblock.zero with magic := blockMagic }
          block := b }
        else { s with
          openFiles := fun _ => ⟨0, 0, 0, false⟩
          superblock := .ofMemory (b.flash 0)
          block := b }) with ready := true } := by
  obtain ⟨b, hinit, hup, hmedium, hjournal, hflash⟩ := VfsBlock.vfsBlockInit_eq hf
  refine ⟨b, hinit, hup, hmedium, hjournal, hflash, ?_⟩
  have hread := hup.vfsBlockRead (show (0 : UInt32) < 19 by decide) VfsSuperblock.zero.byte
    (show VfsSuperblock.size ≤ sectorSize by decide)
  -- Only the bytes of the superblock are read.
  have hbuffer : VfsSuperblock.ofMemory (blit VfsSuperblock.zero.byte 0
      (slice (b.flash (0 : UInt32).toNat) 0 VfsSuperblock.size)) =
        VfsSuperblock.ofMemory (b.flash 0) :=
    VfsSuperblock.ofMemory_congr fun x hx => by
      rw [blit_slice_zero (by simpa [VfsSuperblock.size] using hx)]
      rfl
  simp only [vfsInit, hinit, hread, hbuffer]
  rw [if_neg (by simp)]
  simp only [ne_eq, not_true_eq_false, false_or]

/-- A flash with a superblock is mounted as it is. -/
theorem vfsInit_mounted (hf : s.block.faults = []) (hp : s.block.medium.persistent = true)
    (hm : (VfsSuperblock.ofMemory (s.block.flash 0)).magic = blockMagic) :
    ∃ b : VfsBlock, b.Up ∧ b.flash = s.block.flash ∧ b.journal = s.block.journal ∧
      s.vfsInit.2 = { s with
        openFiles := fun _ => ⟨0, 0, 0, false⟩
        superblock := .ofMemory (s.block.flash 0)
        block := b
        ready := true } := by
  obtain ⟨b, -, hup, -, hjournal, hflash, heq⟩ := vfsInit_eq hf
  rw [if_pos hp] at hflash
  rw [hflash, if_neg (by simpa using hm)] at heq
  exact ⟨b, hup, hflash, hjournal, heq⟩

/-- A flash without a superblock is formatted. -/
theorem vfsInit_formatted (hf : s.block.faults = [])
    (hm : s.block.medium.persistent = true →
      (VfsSuperblock.ofMemory (s.block.flash 0)).magic ≠ blockMagic) :
    ∃ (b : VfsBlock) (sb : VfsSuperblock), b.Up ∧ sb.magic = blockMagic ∧
      sb.inodes = defaultInodes ∧ s.vfsInit.2 = { Vfs.commit { s with
        openFiles := fun _ => ⟨0, 0, 0, false⟩
        superblock := { VfsSuperblock.zero with magic := blockMagic }
        block := b } sb formatSteps with ready := true } := by
  obtain ⟨b, -, hup, -, -, hflash, heq⟩ := vfsInit_eq hf
  have hmagic : (VfsSuperblock.ofMemory (b.flash 0)).magic ≠ blockMagic := by
    by_cases hp : s.block.medium.persistent = true
    · rw [hflash, if_pos hp]
      exact hm hp
    · rw [hflash, if_neg hp]
      decide +kernel
  rw [if_pos hmagic] at heq
  obtain ⟨sb, hsb, hinodes, hcode⟩ := createDefaultFiles_eq (s := { s with
    openFiles := fun _ => ⟨0, 0, 0, false⟩
    superblock := { VfsSuperblock.zero with magic := blockMagic }
    block := b }) hup rfl
  exact ⟨b, sb, hup, hsb, hinodes, by rw [heq, hcode]⟩

/-- Mounting a superblock in order. -/
theorem inv_vfsInit_of_synced (hf : s.block.faults = []) (hp : s.block.medium.persistent = true)
    {sb : VfsSuperblock} (hm : sb.magic = blockMagic) (hok : ∀ i, SlotOk i (sb.inodes i))
    (hsb : ∀ x < 780, s.block.flash 0 x = sb.byte x) : Inv s.vfsInit.2 := by
  have hread := VfsSuperblock.ofMemory_eq hsb
  obtain ⟨b, hup, hflash, -, heq⟩ := vfsInit_mounted hf hp (hread ▸ hm)
  rw [heq]
  exact {
    ready := rfl
    up := hup
    magic := hread ▸ hm
    synced := fun x hx => by
      simp only [hread, hflash]
      exact hsb x hx
    slot := fun i => by
      simp only [inode, hread]
      exact hok i
    desc := fun _ hd => by cases hd }

/-- Mounting a flash without a superblock. -/
theorem inv_vfsInit_of_blank (hf : s.block.faults = [])
    (hm : s.block.medium.persistent = true →
      (VfsSuperblock.ofMemory (s.block.flash 0)).magic ≠ blockMagic) : Inv s.vfsInit.2 := by
  obtain ⟨b, sb, hup, hmagic, hinodes, heq⟩ := vfsInit_formatted hf hm
  rw [heq]
  exact {
    ready := rfl
    up := hup.performAll _
    magic := hmagic
    synced := fun x hx => by
      simp only [Vfs.commit, VfsBlock.performAll, run_append, run_rewrite, Function.update_self,
        written]
      exact VfsSuperblock.getD_bytes sb hx _
    slot := fun i => by
      simp only [inode, Vfs.commit, hinodes]
      exact slotOk_defaultInodes i
    desc := fun _ hd => by cases hd }

theorem Inv.vfsInit (h : Inv s) : Inv s.vfsInit.2 := by
  by_cases hp : s.block.medium.persistent = true
  · exact inv_vfsInit_of_synced h.up.faults hp h.magic h.slot h.synced
  · exact inv_vfsInit_of_blank h.up.faults fun hp' => absurd hp' hp

/-! ## The invariant over calls -/

theorem Inv.create (h : Inv s) (i : Fin 16) (name : List UInt8) (flags : UInt32) :
    Inv (s.create i name flags) := by
  obtain ⟨sb, hm, hsb, heq⟩ := create_eq h.up i name flags
  rw [heq]
  have hok := slotOk_newInode s i name flags
  exact h.commit hm hsb hok (hok.startSector_ne (show (1 : UInt32) ≠ 0 by decide))

/-- A file whose size is changed keeps its sector. -/
theorem SlotOk.setSize (h : SlotOk i ino) {size : UInt32} (hsize : size.toNat ≤ sectorSize) :
    SlotOk i { ino with sizeBytes := size } :=
  ⟨h.place, hsize, h.inUse⟩

theorem Inv.truncate (h : Inv s) {i : Fin 16} (hi : (s.inode i).startSector ≠ 0) (d : Fin 8) :
    Inv (s.truncate i d) := by
  obtain ⟨sb, hm, hsb, heq⟩ := truncate_eq h i d
  rw [heq]
  have hrewound := h.setDesc (d := d) (e := { s.openFiles d with cursor := 0 })
    fun hopen => ⟨(h.desc d hopen).1, Nat.zero_le _⟩
  exact hrewound.commit hm hsb ((h.slot i).setSize (Nat.zero_le _)) hi

/-- The file that `vfs_open` finds. -/
theorem targetInode_of_found {name : List UInt8} (hfind : s.findInode name = some i)
    (flags : UInt32) : s.targetInode name flags = (.ok i, s) := by
  rw [targetInode, hfind]

/-- The file that `vfs_open` creates. -/
theorem targetInode_of_creat {name : List UInt8} {flags : UInt32}
    (hfind : s.findInode name = none) (hcreat : flags &&& oCreat ≠ 0)
    (hfree : s.freeInode = some i) :
    s.targetInode name flags = (.ok i, s.create i name flags) := by
  rw [targetInode, hfind]
  simp only
  rw [if_neg hcreat, hfree]

/-- There is no file, and none is created. -/
theorem targetInode_of_absent {name : List UInt8} {flags : UInt32}
    (hfind : s.findInode name = none) (hno : flags &&& oCreat = 0 ∨ s.freeInode = none) :
    ∃ status, s.targetInode name flags = (.error status, s) := by
  rw [targetInode, hfind]
  simp only
  by_cases hcreat : flags &&& oCreat = 0
  · exact ⟨_, if_pos hcreat⟩
  · rw [if_neg hcreat, hno.resolve_left hcreat]
    exact ⟨_, rfl⟩

/-- What `vfs_open` goes on with: an error, the file that it finds, or one that it creates. -/
theorem targetInode_cases (s : Vfs) (name : List UInt8) (flags : UInt32) :
    (∃ status, s.targetInode name flags = (.error status, s)) ∨
      (∃ i, s.findInode name = some i ∧ s.targetInode name flags = (.ok i, s)) ∨
      ∃ i, s.findInode name = none ∧ s.freeInode = some i ∧ flags &&& oCreat ≠ 0 ∧
        s.targetInode name flags = (.ok i, s.create i name flags) := by
  cases hfind : s.findInode name with
  | some i => exact .inr (.inl ⟨i, rfl, targetInode_of_found hfind flags⟩)
  | none =>
    by_cases hno : flags &&& oCreat = 0 ∨ s.freeInode = none
    · exact .inl (targetInode_of_absent hfind hno)
    · obtain ⟨hcreat, hsome⟩ := not_or.1 hno
      obtain ⟨i, hfree⟩ := Option.ne_none_iff_exists'.1 hsome
      exact .inr (.inr ⟨i, rfl, hfree, hcreat, targetInode_of_creat hfind hcreat hfree⟩)

/-- What holds before the file is found or created holds after it, if creating it keeps it. -/
theorem targetInode_rule {P : Vfs → Prop} (h : P s) (name : List UInt8) (flags : UInt32)
    (hcreate : ∀ i, s.freeInode = some i → P (s.create i name flags)) :
    P (s.targetInode name flags).2 := by
  rcases s.targetInode_cases name flags with
    ⟨status, heq⟩ | ⟨i, -, heq⟩ | ⟨i, -, hfree, -, heq⟩
  · rwa [heq]
  · rwa [heq]
  · rw [heq]
    exact hcreate i hfree

/-- The inode that `vfs_open` goes on with is in use. -/
theorem inUse_targetInode {t : Vfs} {name : List UInt8} {flags : UInt32}
    (htarget : s.targetInode name flags = (.ok i, t)) : (t.inode i).inUse ≠ 0 := by
  rcases s.targetInode_cases name flags with ⟨status, heq⟩ | ⟨j, hfind, heq⟩ | ⟨j, -, -, -, heq⟩
  · rw [heq] at htarget
    cases htarget
  · rw [heq] at htarget
    cases htarget
    exact findInode_inUse hfind
  · rw [heq] at htarget
    cases htarget
    rw [inode_create]
    exact (show (1 : UInt32) ≠ 0 by decide)

/-- The descriptor that `vfs_open` opens on a file. -/
def opened (s : Vfs) (i : Fin 16) (d : Fin 8) (flags : UInt32) : Vfs :=
  { s with
    openFiles := Function.update s.openFiles d
      ⟨i, if flags &&& oAppend ≠ 0 then (s.inode i).sizeBytes else 0, flags, true⟩ }

theorem vfsOpen_of_not_ready (h : ¬s.ready = true) (path : List UInt8) (flags : UInt32) :
    ∃ status, s.vfsOpen path flags = (.error status, s) :=
  ⟨_, by rw [vfsOpen, if_pos (by simpa using h)]⟩

/-- Once the inode was found or created, a descriptor is opened, or there is none. -/
theorem vfsOpen_of_targetInode {t : Vfs} {path : List UInt8} {flags : UInt32}
    (hready : s.ready = true) (htarget : s.targetInode (fname path) flags = (.ok i, t)) :
    (t.freeFd = none ∧ s.vfsOpen path flags = (.error .busy, t)) ∨
      ∃ d, t.freeFd = some d ∧ s.vfsOpen path flags = (.ok d,
        if flags &&& oTrunc ≠ 0 then (t.opened i d flags).truncate i d
        else t.opened i d flags) := by
  rw [vfsOpen, if_neg (by simp [hready]), htarget]
  cases hfree : t.freeFd with
  | none =>
    refine .inl ⟨rfl, ?_⟩
    simp only [hfree]
  | some d =>
    refine .inr ⟨d, rfl, ?_⟩
    simp only [hfree]
    rfl

theorem vfsOpen_of_targetInode_error {t : Vfs} {path : List UInt8} {flags : UInt32}
    {status : MkStatus} (hready : s.ready = true)
    (htarget : s.targetInode (fname path) flags = (.error status, t)) :
    s.vfsOpen path flags = (.error status, t) := by
  rw [vfsOpen, if_neg (by simp [hready]), htarget]

/-- `vfs_open` gives an error before a descriptor is opened, or opens one on the file that it
    found or created. -/
theorem vfsOpen_outcome (hready : s.ready = true) (path : List UInt8) (flags : UInt32) :
    (∃ status, s.vfsOpen path flags = (.error status, (s.targetInode (fname path) flags).2)) ∨
      ∃ i t d, s.targetInode (fname path) flags = (.ok i, t) ∧ t.freeFd = some d ∧
        s.vfsOpen path flags = (.ok d,
          if flags &&& oTrunc ≠ 0 then (t.opened i d flags).truncate i d
          else t.opened i d flags) := by
  rcases htarget : s.targetInode (fname path) flags with ⟨status | i, t⟩
  · exact .inl ⟨status, vfsOpen_of_targetInode_error hready htarget⟩
  · rcases vfsOpen_of_targetInode hready htarget with ⟨-, heq⟩ | ⟨d, hfd, heq⟩
    · exact .inl ⟨.busy, heq⟩
    · exact .inr ⟨i, t, d, rfl, hfd, heq⟩

/-- What holds before `vfs_open` holds after it, if finding or creating the file, opening the
    descriptor and truncating the file each keep it. -/
theorem vfsOpen_rule {P : Vfs → Prop} (h : P s) (path : List UInt8) (flags : UInt32)
    (htarget : P (s.targetInode (fname path) flags).2)
    (hopened : ∀ i t d, s.targetInode (fname path) flags = (.ok i, t) → P t →
      P (t.opened i d flags))
    (htruncate : ∀ i t d, s.targetInode (fname path) flags = (.ok i, t) → P t →
      P (t.opened i d flags) → P ((t.opened i d flags).truncate i d)) :
    P (s.vfsOpen path flags).2 := by
  by_cases hready : s.ready = true
  swap
  · obtain ⟨status, heq⟩ := vfsOpen_of_not_ready hready path flags
    rwa [heq]
  rcases vfsOpen_outcome hready path flags with ⟨status, heq⟩ | ⟨i, t, d, hfound, -, heq⟩
  · rwa [heq]
  · have ht : P t := by rwa [hfound] at htarget
    have hopen := hopened i t d hfound ht
    rw [heq]
    simp only
    split
    · exact htruncate i t d hfound ht hopen
    · exact hopen

theorem Inv.targetInode (h : Inv s) (name : List UInt8) (flags : UInt32) :
    Inv (s.targetInode name flags).2 :=
  targetInode_rule h name flags fun i _ => h.create i name flags

/-- The cursor of a descriptor that is opened. -/
theorem SlotOk.cursor_opened (h : SlotOk i ino) (flags : UInt32) :
    (if flags &&& oAppend ≠ 0 then ino.sizeBytes else 0).toNat ≤ sectorSize := by
  split
  · exact h.sizeBytes
  · exact Nat.zero_le _

theorem Inv.opened (h : Inv s) (huse : (s.inode i).inUse ≠ 0) (d : Fin 8) (flags : UInt32) :
    Inv (s.opened i d flags) :=
  h.setDesc fun _ => ⟨(h.slot i).startSector_ne huse, (h.slot i).cursor_opened flags⟩

theorem Inv.vfsOpen (h : Inv s) (path : List UInt8) (flags : UInt32) :
    Inv (s.vfsOpen path flags).2 := by
  refine vfsOpen_rule h path flags (h.targetInode _ flags) ?_ ?_
  · intro i t d htarget ht
    exact ht.opened (inUse_targetInode htarget) d flags
  · intro i t d htarget ht hopened
    exact hopened.truncate ((ht.slot i).startSector_ne (inUse_targetInode htarget)) d

/-- A cursor that stays in the sector is not wrapped around. -/
theorem toNat_cursor {w : SizeT} {cursor : UInt32} {n : ℕ}
    (h : w.wrap (cursor.toNat + n) ≤ sectorSize) :
    (cursor + UInt32.ofNat n).toNat = w.wrap (cursor.toNat + n) := by
  rw [UInt32.toNat_add, UInt32.toNat_ofNat']
  cases w with
  | bits32 => rw [SizeT.wrap, Nat.add_mod_mod]
  | bits64 =>
    simp only [SizeT.wrap, sectorSize] at h ⊢
    omega

/-- `vfs_read` moves the cursor to the end of the file at most. -/
theorem toNat_cursor_toRead {w : SizeT} {cursor sizeBytes : UInt32} {size : ℕ}
    (hsize : sizeBytes.toNat ≤ sectorSize) :
    (cursor + UInt32.ofNat (toRead w cursor sizeBytes size)).toNat ≤ sectorSize := by
  by_cases hlong : sizeBytes.toNat < w.wrap (cursor.toNat + size)
  · rw [toRead, if_pos hlong, UInt32.ofNat_toNat]
    have hsum : cursor + (sizeBytes - cursor) = sizeBytes := by
      rw [add_comm, sub_add_cancel]
    rwa [hsum]
  · rw [toRead, if_neg hlong]
    have hfits : w.wrap (cursor.toNat + size) ≤ sectorSize := by omega
    rwa [toNat_cursor hfits]

/-- `vfs_read` moves the cursor of an open descriptor, or does nothing. -/
theorem vfsRead_cases (h : Inv s) (w : SizeT) (fd : ℤ) (size : ℕ) :
    (s.vfsRead w fd size).2 = s ∨ ∃ d cursor readBuf, (s.openFiles d).isOpen = true ∧
      cursor.toNat ≤ sectorSize ∧ (s.vfsRead w fd size).2 = { s with
        readBuf, openFiles := Function.update s.openFiles d { s.openFiles d with cursor } } := by
  rw [vfsRead]
  cases fd? fd with
  | none => exact .inl rfl
  | some d =>
    have hslot := h.slot (s.openFiles d).inodeIdx
    simp only
    rw [if_neg (by simp [h.ready]), h.up.vfsBlockRead hslot.lt s.readBuf (Nat.le_refl _)]
    by_cases hopen : (s.openFiles d).isOpen = true
    swap
    · rw [if_pos (by simpa using hopen)]
      exact .inl rfl
    rw [if_neg (by simp [hopen])]
    by_cases heof : (s.inode (s.openFiles d).inodeIdx).sizeBytes ≤ (s.openFiles d).cursor
    · rw [if_pos heof]
      exact .inl rfl
    · rw [if_neg heof]
      exact .inr ⟨d, _, _, hopen, toNat_cursor_toRead hslot.sizeBytes, rfl⟩

/-- What holds before `vfs_read` holds after it, if moving the cursor of an open descriptor
    keeps it. -/
theorem vfsRead_rule {P : Vfs → Prop} (h : P s) (hinv : Inv s) (w : SizeT) (fd : ℤ) (size : ℕ)
    (hmove : ∀ d cursor readBuf, (s.openFiles d).isOpen = true → cursor.toNat ≤ sectorSize →
      P { s with
        readBuf, openFiles := Function.update s.openFiles d { s.openFiles d with cursor } }) :
    P (s.vfsRead w fd size).2 := by
  rcases vfsRead_cases hinv w fd size with heq | ⟨d, cursor, readBuf, hopen, hcursor, heq⟩
  · rwa [heq]
  · rw [heq]
    exact hmove d cursor readBuf hopen hcursor

theorem Inv.vfsRead (h : Inv s) (w : SizeT) (fd : ℤ) (size : ℕ) :
    Inv (s.vfsRead w fd size).2 := by
  refine vfsRead_rule h h w fd size fun d cursor readBuf hopen hcursor => ?_
  have hread : Inv { s with readBuf } := ⟨h.ready, h.up, h.magic, h.synced, h.slot, h.desc⟩
  exact hread.setDesc fun _ => ⟨(h.desc d hopen).1, hcursor⟩

theorem Inv.rewritten (h : Inv s) (w : SizeT) (hopen : (s.openFiles d).isOpen = true)
    (buffer : List UInt8) : Inv (s.rewritten w d buffer) where
  ready := h.ready
  up := h.up.performAll _
  magic := h.magic
  synced x hx := by
    have hne := startSector_ne_zero_iff.1 (h.desc d hopen).1
    simp only [Vfs.rewritten, VfsBlock.performAll, run_rewrite]
    rw [Function.update_of_ne (Ne.symm hne)]
    exact h.synced x hx
  slot := h.slot
  desc := h.desc

theorem Inv.advance (h : Inv s) (hopen : (s.openFiles d).isOpen = true) {size : ℕ}
    (hcursor : (s.advanced d size).cursor.toNat ≤ sectorSize) : Inv (s.advance d size) := by
  have hstart := (h.desc d hopen).1
  have hmoved := h.setDesc (d := d) (e := s.advanced d size) fun _ => ⟨hstart, hcursor⟩
  by_cases hlt : (s.inode (s.openFiles d).inodeIdx).sizeBytes < (s.advanced d size).cursor
  · obtain ⟨sb, hm, hsb, heq⟩ := advance_of_lt h.up hlt
    rw [heq]
    exact hmoved.commit hm hsb ((h.slot _).setSize hcursor) hstart
  · rw [advance_of_le (UInt32.not_lt.1 hlt)]
    exact hmoved

/-- What holds before `vfs_write` holds after it, if writing through a descriptor that accepts the
    bytes keeps it. -/
theorem vfsWrite_rule {P : Vfs → Prop} (h : P s) (hinv : Inv s) (w : SizeT) (fd : ℤ)
    (buffer : List UInt8) (hwrite : ∀ d, Accepts w s d buffer →
      P ((s.rewritten w d buffer).advance d buffer.length)) :
    P (s.vfsWrite w fd buffer).2 := by
  rcases vfsWrite_cases hinv w fd buffer with ⟨status, heq⟩ | ⟨d, rfl, ha⟩
  · rwa [heq]
  · rw [ha.vfsWrite hinv]
    exact hwrite d ha

theorem Inv.vfsWrite (h : Inv s) (w : SizeT) (fd : ℤ) (buffer : List UInt8) :
    Inv (s.vfsWrite w fd buffer).2 := by
  refine vfsWrite_rule h h w fd buffer fun d ha => ?_
  refine (h.rewritten w ha.isOpen buffer).advance ha.isOpen ?_
  exact (toNat_cursor ha.fits).trans_le ha.fits

/-- `vfs_close` changes nothing, or it closes a descriptor that is open. -/
theorem vfsClose_cases (s : Vfs) (fd : ℤ) : (∃ status, s.vfsClose fd = (status, s)) ∨
    ∃ d : Fin 8, fd = (d : ℕ) ∧ (s.openFiles d).isOpen = true ∧ s.vfsClose fd =
      (.ok, { s with
        openFiles := Function.update s.openFiles d { s.openFiles d with isOpen := false } }) := by
  rw [vfsClose]
  cases hfd : fd? fd with
  | none => exact .inl ⟨_, rfl⟩
  | some d =>
    simp only
    by_cases hopen : (s.openFiles d).isOpen = true
    · exact .inr ⟨d, eq_of_fd? hfd, hopen, if_neg (by simp [hopen])⟩
    · exact .inl ⟨_, if_pos (by simpa using hopen)⟩

/-- `vfs_delete` changes nothing, or it removes the file that it finds. -/
theorem vfsDelete_cases (s : Vfs) (path : List UInt8) :
    (∃ status, s.vfsDelete path = (status, s)) ∨ ∃ i, s.findInode (fname path) = some i ∧
      s.vfsDelete path = (.ok, s.remove i) := by
  rw [vfsDelete]
  by_cases hready : s.ready = true
  swap
  · exact .inl ⟨_, if_pos (by simpa using hready)⟩
  rw [if_neg (by simp [hready])]
  cases hfind : s.findInode (fname path) with
  | none => exact .inl ⟨_, rfl⟩
  | some i => exact .inr ⟨i, rfl, rfl⟩

/-- What holds before `vfs_close` holds after it, if closing an open descriptor keeps it. -/
theorem vfsClose_rule {P : Vfs → Prop} (h : P s) (fd : ℤ)
    (hclose : ∀ d, P { s with
      openFiles := Function.update s.openFiles d { s.openFiles d with isOpen := false } }) :
    P (s.vfsClose fd).2 := by
  rcases s.vfsClose_cases fd with ⟨status, heq⟩ | ⟨d, -, -, heq⟩
  · rwa [heq]
  · rw [heq]
    exact hclose d

/-- What holds before `vfs_delete` holds after it, if removing a file keeps it. -/
theorem vfsDelete_rule {P : Vfs → Prop} (h : P s) (path : List UInt8)
    (hremove : ∀ i, s.findInode (fname path) = some i → P (s.remove i)) :
    P (s.vfsDelete path).2 := by
  rcases s.vfsDelete_cases path with ⟨status, heq⟩ | ⟨i, hfind, heq⟩
  · rwa [heq]
  · rw [heq]
    exact hremove i hfind

theorem Inv.vfsClose (h : Inv s) (fd : ℤ) : Inv (s.vfsClose fd).2 :=
  vfsClose_rule h fd fun _ => h.setDesc fun hopen => by cases hopen

theorem Inv.vfsDelete (h : Inv s) (path : List UInt8) : Inv (s.vfsDelete path).2 := by
  refine vfsDelete_rule h path fun i hfind => ?_
  have hok := h.slot i
  have hstart := hok.startSector_ne (findInode_inUse hfind)
  obtain ⟨sb, hm, hsb, heq⟩ := remove_eq h i
  rw [heq]
  refine h.commit hm hsb ⟨?_, hok.sizeBytes, .inl rfl⟩ hstart
  exact hok.place.imp_left fun hz => ⟨hz.1, rfl⟩

/-! ## Runs -/

/-- A call of the file system. -/
inductive Call
  | vfsInit
  | vfsOpen (path : List UInt8) (flags : UInt32)
  | vfsRead (fd : ℤ) (size : ℕ)
  | vfsWrite (fd : ℤ) (buffer : List UInt8)
  | vfsClose (fd : ℤ)
  | vfsDelete (path : List UInt8)

/-- The file system after a call. -/
def exec (w : SizeT) (s : Vfs) : Call → Vfs
  | .vfsInit => s.vfsInit.2
  | .vfsOpen path flags => (s.vfsOpen path flags).2
  | .vfsRead fd size => (s.vfsRead w fd size).2
  | .vfsWrite fd buffer => (s.vfsWrite w fd buffer).2
  | .vfsClose fd => (s.vfsClose fd).2
  | .vfsDelete path => (s.vfsDelete path).2

/-- The steps of a call on the flash. -/
def steps (w : SizeT) (s : Vfs) (c : Call) : List Step :=
  (s.exec w c).block.journal.drop s.block.journal.length

/-- The flash when the power is cut during a call, after `n` of its steps and
    `j` bytes of the next one. -/
def interrupted (w : SizeT) (s : Vfs) (c : Call) (n j : ℕ) : Image :=
  cut s.block.medium.cell s.block.flash (s.steps w c) n j

/-- The file system mounted when the power is back. -/
def mount (medium : Medium) (flash : Image) : Vfs := (powerOn medium flash []).vfsInit.2

/-- The file systems that runs end with. A run begins with the formatting of a
    flash; a power cut in it leaves the superblock as before or as after the
    call it interrupts. -/
inductive Reachable (w : SizeT) : Vfs → Prop
  | format (medium : Medium) {flash : Image}
      (hblank : (VfsSuperblock.ofMemory (flash 0)).magic ≠ blockMagic) :
      Reachable w (mount medium flash)
  | call {s : Vfs} (h : Reachable w s) (c : Call) : Reachable w (s.exec w c)
  | powerCut {s : Vfs} (h : Reachable w s) (c : Call) (n j : ℕ)
      (hcut : s.interrupted w c n j 0 = s.block.flash 0 ∨
        s.interrupted w c n j 0 = (s.exec w c).block.flash 0) :
      Reachable w (mount s.block.medium (s.interrupted w c n j))

theorem Inv.exec (h : Inv s) (w : SizeT) (c : Call) : Inv (s.exec w c) := by
  cases c with
  | vfsInit => exact h.vfsInit
  | vfsOpen path flags => exact h.vfsOpen path flags
  | vfsRead fd size => exact h.vfsRead w fd size
  | vfsWrite fd buffer => exact h.vfsWrite w fd buffer
  | vfsClose fd => exact h.vfsClose fd
  | vfsDelete path => exact h.vfsDelete path

/-- Mounting a flash with the superblock of a file system in order. -/
theorem Inv.mount (h : Inv s) {medium : Medium} {flash : Image}
    (hflash : flash 0 = s.block.flash 0) : Inv (mount medium flash) := by
  by_cases hp : medium.persistent = true
  · exact inv_vfsInit_of_synced rfl hp h.magic h.slot fun x hx => by
      rw [← h.synced x hx, ← hflash]
      rfl
  · exact inv_vfsInit_of_blank rfl fun hp' => absurd hp' hp

/-- The invariant holds after any run. -/
theorem Reachable.inv {w : SizeT} (h : Reachable w s) : Inv s := by
  induction h with
  | format medium hblank => exact inv_vfsInit_of_blank rfl fun _ => hblank
  | call _ c ih => exact ih.exec w c
  | powerCut _ c n j hcut ih =>
    rcases hcut with hcut | hcut
    · exact ih.mount hcut
    · exact (ih.exec w c).mount hcut

end Vfs

end SliverOS
